import ClickMobileIP.Wire.Packet
import Mathlib.Data.List.Nodup
import Mathlib.Data.List.Perm.Basic
import Mathlib.Data.List.TakeWhile

/-! # The table of address resolution

Packets whose next hop has not answered yet wait in the entry of that next hop. The table forgets entries that
are too old and kills packets when it holds too many of them.
-/
namespace ClickMobileIP

/-- Time wraps around; the sign of the difference decides. -/
def clickJiffiesLess (a b : UInt32) : Bool := decide (0x80000000 ≤ a - b)

def EtherAddress.broadcast : EtherAddress := 0xffffffffffff

structure ARPEntry where
  ip : IPAddress
  eth : EtherAddress := EtherAddress.broadcast
  known : Bool := false
  numPollsSinceReply : UInt8 := 0
  liveAtJ : UInt32
  polledAtJ : UInt32
  queue : List Packet := []
  entryPacketCount : ℕ := 0
  deriving DecidableEq, Repr

namespace ARPEntry

def expired (e : ARPEntry) (now timeoutJ : UInt32) : Bool :=
  clickJiffiesLess (e.liveAtJ + timeoutJ) now && timeoutJ != 0

def isKnown (e : ARPEntry) (now timeoutJ : UInt32) : Bool := e.known && !e.expired now timeoutJ

def allowPoll (e : ARPEntry) (now : UInt32) : Bool :=
  !clickJiffiesLess now (e.polledAtJ + if 10 ≤ e.numPollsSinceReply then 2000 else 100)

def markPoll (e : ARPEntry) (now : UInt32) : ARPEntry :=
  { e with polledAtJ := now
           numPollsSinceReply := if e.numPollsSinceReply < 255 then e.numPollsSinceReply + 1 else e.numPollsSinceReply }

def pollIfAllowed (e : ARPEntry) (now : UInt32) : ARPEntry := if e.allowPoll now = true then e.markPoll now else e

end ARPEntry

/-- The entries in the order of their age; the hash table holds the same. The number of entries has no limit, as
by default; `ENTRY_CAPACITY` is left out. -/
structure ARPTable where
  entries : List ARPEntry := []
  packetCount : ℕ := 0
  packetCapacity : ℕ := 2048
  entryPacketCapacity : ℕ := 0
  capacitySlimFactor : ℕ := 2
  timeoutJ : UInt32 := 300000
  deriving DecidableEq, Repr

namespace ARPTable

/-- Kill packets from the front of a queue while there are too many: those left in all, the queue, the killed. -/
def discard (capacity : ℕ) : ℕ → List Packet → ℕ × List Packet × List Packet
  | count, [] => (count,[],[])
  | count, p :: ps =>
    if capacity < count then
      let r := discard capacity (count - 1) ps
      (r.1,r.2.1,p :: r.2.2)
    else (count,p :: ps,[])

/-- From the oldest entry on; there is no entry behind the last one. -/
def discardAll (capacity : ℕ) : ℕ → List ARPEntry → Option (ℕ × List ARPEntry × List Packet)
  | count, [] => if capacity < count then none else some (count,[],[])
  | count, e :: es =>
    if capacity < count then
      let r := discard capacity count e.queue
      (discardAll capacity r.1 es).map (fun rest =>
        (rest.1,{ e with queue := r.2.1, entryPacketCount := e.entryPacketCount - r.2.2.length } :: rest.2.1,
          r.2.2 ++ rest.2.2))
    else some (count,e :: es,[])

/-- What is left with the killed packets. -/
def slim (t : ARPTable) (now : UInt32) : Option (ARPTable × List Packet) :=
  let old := (t.entries.takeWhile (fun e => e.expired now t.timeoutJ)).flatMap ARPEntry.queue
  let entries := t.entries.dropWhile (fun e => e.expired now t.timeoutJ)
  let count := t.packetCount - old.length
  if t.packetCapacity ≠ 0 ∧ t.packetCapacity < count then
    -- the last packet may not have been added yet, so one stays
    (discardAll (max 1 (t.packetCapacity - t.packetCapacity / t.capacitySlimFactor)) count entries).map (fun r =>
      ({ t with entries := r.2.1, packetCount := r.1 },old ++ r.2.2))
  else some ({ t with entries := entries, packetCount := count },old)

/-- The entry of an address between the older and the younger ones. -/
def locate (ip : IPAddress) : List ARPEntry → Option (List ARPEntry × ARPEntry × List ARPEntry)
  | [] => none
  | e :: es => if e.ip = ip then some ([],e,es) else (locate ip es).map (fun r => (e :: r.1,r.2))

def ensure (alloc : Bool) (t : ARPTable) (ip : IPAddress) (now : UInt32) :
    Option (List ARPEntry × ARPEntry × List ARPEntry) :=
  match locate ip t.entries with
  | some r => some r
  | none => if alloc = true then some (t.entries,{ ip := ip, liveAtJ := now, polledAtJ := now - 1000 },[]) else none

def lookup (t : ARPTable) (ip : IPAddress) (now pollTimeoutJ : UInt32) : Option (ARPTable × EtherAddress × Bool) :=
  match locate ip t.entries with
  | none => none
  | some (front,e,back) =>
    if e.isKnown now t.timeoutJ = true then
      if pollTimeoutJ ≠ 0 ∧ clickJiffiesLess now (e.liveAtJ + pollTimeoutJ) = false ∧ e.allowPoll now = true then
        some ({ t with entries := front ++ e.markPoll now :: back },e.eth,true)
      else some (t,e.eth,false)
    else none

/-- The waiting packets come back; without an entry there is no list of them. -/
def insert (alloc : Bool) (t : ARPTable) (ip : IPAddress) (eth : EtherAddress) (now : UInt32) :
    Option (ARPTable × List Packet) :=
  (t.ensure alloc ip now).map (fun (front,e,back) =>
    ({ t with
        entries := front ++ back ++ [{ e with
          eth := eth
          known := decide (eth ≠ EtherAddress.broadcast)
          liveAtJ := now
          numPollsSinceReply := 0
          polledAtJ := now - 1000
          queue := []
          entryPacketCount := 0 }]
        packetCount := t.packetCount - e.entryPacketCount },e.queue))

/-- What becomes of a packet that has to wait: `-EAGAIN`, `-ENOMEM`, or it is stored and others may be killed. -/
inductive Appended
  | again
  | refused (t : ARPTable)
  | stored (t : ARPTable) (killed : List Packet) (poll : Bool)

/-- Keep an entry this side of expiring, in the right place. -/
def keepAlive (t : ARPTable) (now : UInt32) (front : List ARPEntry) (e : ARPEntry) (back : List ARPEntry) :
    List ARPEntry :=
  if t.timeoutJ ≠ 0 ∧ clickJiffiesLess e.liveAtJ (now - t.timeoutJ) = true then
    front ++ back.takeWhile (fun x => clickJiffiesLess x.liveAtJ (now - t.timeoutJ)) ++
      { e with liveAtJ := now - t.timeoutJ } :: back.dropWhile (fun x => clickJiffiesLess x.liveAtJ (now - t.timeoutJ))
  else front ++ e :: back

def makeRoom (t : ARPTable) (now : UInt32) : Option (ARPTable × List Packet) :=
  if t.packetCapacity ≠ 0 ∧ t.packetCapacity < t.packetCount then t.slim now else some (t,[])

def enqueue (p : Packet) (now : UInt32) (e : ARPEntry) : ARPEntry :=
  ARPEntry.pollIfAllowed { e with queue := e.queue ++ [p], entryPacketCount := e.entryPacketCount + 1 } now

/-- The entry must still be there when room has been made. -/
def appendQuery (alloc : Bool) (t : ARPTable) (ip : IPAddress) (p : Packet) (now : UInt32) : Option Appended :=
  match t.ensure alloc ip now with
  | none => some (.refused t)
  | some (front,e,back) =>
    if e.isKnown now t.timeoutJ = true then some .again
    else if t.entryPacketCapacity ≠ 0 ∧ t.entryPacketCapacity ≤ e.entryPacketCount then
      some (.refused { t with entries := t.keepAlive now front e back })
    else
      (makeRoom { t with entries := t.keepAlive now front e back, packetCount := t.packetCount + 1 } now).bind (fun r =>
        (locate ip r.1.entries).map (fun (front,e,back) =>
          .stored { r.1 with entries := front ++ enqueue p now e :: back } r.2 (e.allowPoll now)))

def held (es : List ARPEntry) : List Packet := es.flatMap ARPEntry.queue

section Queues
variable {answers : IPAddress → Option EtherAddress} {ip : IPAddress} {es front back : List ARPEntry} {e : ARPEntry}
  {now : UInt32} {capacity count : ℕ}

@[simp] theorem held_nil : held [] = [] := rfl
@[simp] theorem held_cons : held (e :: es) = e.queue ++ held es := List.flatMap_cons
@[simp] theorem held_append : held (front ++ back) = held front ++ held back := List.flatMap_append

theorem locate_spec {r : List ARPEntry × ARPEntry × List ARPEntry} (h : locate ip es = some r) :
    es = r.1 ++ r.2.1 :: r.2.2 ∧ r.2.1.ip = ip := by
  induction es generalizing r with
  | nil => cases h
  | cons e es ih =>
    rw [locate] at h
    split_ifs at h with hip
    · cases h
      exact ⟨rfl,hip⟩
    · obtain ⟨r',hr,rfl⟩ := Option.map_eq_some_iff.mp h
      obtain ⟨hes,hip'⟩ := ih hr
      exact ⟨congrArg (e :: ·) hes,hip'⟩

theorem locate_eq_none : locate ip es = none ↔ ip ∉ es.map ARPEntry.ip := by
  induction es with
  | nil => simp [locate]
  | cons e es ih =>
    rw [locate]
    by_cases hip : e.ip = ip
    · simp [hip]
    · rw [if_neg hip,Option.map_eq_none_iff,ih,List.map_cons,List.mem_cons]
      exact ⟨fun h hmem => hmem.elim (fun heq => hip heq.symm) h,fun h hmem => h (.inr hmem)⟩

theorem discard_spec (capacity count : ℕ) (ps : List Packet) :
    (discard capacity count ps).2.2 ++ (discard capacity count ps).2.1 = ps ∧
      (discard capacity count ps).1 + (discard capacity count ps).2.2.length = count ∧
      (capacity < (discard capacity count ps).1 → (discard capacity count ps).2.1 = []) := by
  induction ps generalizing count with
  | nil => exact ⟨rfl,rfl,fun _ => rfl⟩
  | cons p ps ih =>
    rw [discard]
    by_cases hfull : capacity < count
    · rw [if_pos hfull]
      obtain ⟨hsplit,hcount,hempty⟩ := ih (count - 1)
      refine ⟨congrArg (p :: ·) hsplit,?_,hempty⟩
      dsimp only
      rw [List.length_cons]
      omega
    · rw [if_neg hfull]
      exact ⟨rfl,rfl,fun h => absurd h hfull⟩

/-- What holds of every entry: its counter is right, its packets go to its address, and a known address is the last
one that was answered. -/
structure EntrySound (answers : IPAddress → Option EtherAddress) (e : ARPEntry) : Prop where
  counts : e.entryPacketCount = e.queue.length
  own : ∀ p ∈ e.queue, p.dstIpAnno = e.ip
  answered : e.known = true → answers e.ip = some e.eth

structure Trimmed (answers : IPAddress → Option EtherAddress) (es es' : List ARPEntry) (killed : List Packet) : Prop where
  same : es'.map ARPEntry.ip = es.map ARPEntry.ip
  packets : ∀ p, killed.count p + (held es').count p = (held es).count p
  sound : (∀ e ∈ es, EntrySound answers e) → ∀ e ∈ es', EntrySound answers e

theorem Trimmed.refl (answers : IPAddress → Option EtherAddress) (es : List ARPEntry) : Trimmed answers es es [] :=
  ⟨rfl,fun p => by rw [List.count_nil,Nat.zero_add],fun h => h⟩

theorem EntrySound.discard (h : EntrySound answers e) {killed kept : List Packet} (hsplit : killed ++ kept = e.queue) :
    EntrySound answers { e with queue := kept, entryPacketCount := e.entryPacketCount - killed.length } where
  counts := by
    change e.entryPacketCount - killed.length = kept.length
    rw [h.counts,← hsplit,List.length_append]
    omega
  own := fun p hp => h.own p (hsplit ▸ List.mem_append_right _ hp)
  answered := h.answered

/-- There are always packets enough to kill, so the walk stays inside the list. -/
theorem discardAll_spec (answers : IPAddress → Option EtherAddress) (hroom : count ≤ (held es).length + capacity) :
    ∃ r, discardAll capacity count es = some r ∧ r.1 ≤ capacity ∧ r.1 + r.2.2.length = count ∧
      Trimmed answers es r.2.1 r.2.2 := by
  induction es generalizing count with
  | nil =>
    rw [held_nil,List.length_nil,Nat.zero_add] at hroom
    rw [discardAll,if_neg (Nat.not_lt.mpr hroom)]
    exact ⟨_,rfl,hroom,rfl,.refl answers []⟩
  | cons e es ih =>
    rw [discardAll]
    by_cases hfull : capacity < count
    · rw [if_pos hfull]
      obtain ⟨hsplit,hcount,hempty⟩ := discard_spec capacity count e.queue
      generalize discard capacity count e.queue = r at hsplit hcount hempty
      obtain ⟨left,kept,killed⟩ := r
      dsimp only at hsplit hcount hempty ⊢
      have hleft : left ≤ (held es).length + capacity := by
        by_cases hmore : capacity < left
        · have hall : killed = e.queue := by rw [← hsplit,hempty hmore,List.append_nil]
          rw [held_cons,List.length_append,← hall] at hroom
          omega
        · omega
      obtain ⟨r',hr,hle,hlen,htrim⟩ := ih hleft
      rw [hr]
      refine ⟨_,rfl,hle,?_,congrArg (e.ip :: ·) htrim.same,fun p => ?_,fun hall => ?_⟩
      · dsimp only
        rw [List.length_append]
        omega
      · have hrest := htrim.packets p
        dsimp only
        rw [held_cons,held_cons,← hsplit]
        simp only [List.count_append]
        omega
      · obtain ⟨he,hes⟩ := List.forall_mem_cons.mp hall
        exact List.forall_mem_cons.mpr ⟨he.discard hsplit,htrim.sound hes⟩
    · rw [if_neg hfull]
      exact ⟨_,rfl,Nat.not_lt.mp hfull,rfl,.refl answers _⟩

end Queues

section Slim
variable {answers : IPAddress → Option EtherAddress} {t : ARPTable} {now : UInt32} {k : ℕ}

/-- Old entries go from the front, packets of the others from the front; the capacity holds. -/
theorem slim_spec (answers : IPAddress → Option EtherAddress) (now : UInt32)
    (hcount : t.packetCount = (held t.entries).length + k) (hk : k ≤ 1) :
    ∃ es count killed, t.slim now = some ({ t with entries := es, packetCount := count },killed) ∧
      count = (held es).length + k ∧ (t.packetCapacity ≠ 0 → count ≤ t.packetCapacity) ∧
      es.map ARPEntry.ip = (t.entries.dropWhile (fun e => e.expired now t.timeoutJ)).map ARPEntry.ip ∧
      ((∀ e ∈ t.entries, EntrySound answers e) → ∀ e ∈ es, EntrySound answers e) ∧
      ∀ p, killed.count p + (held es).count p = (held t.entries).count p := by
  set old := held (t.entries.takeWhile (fun e => e.expired now t.timeoutJ)) with hold
  set young := t.entries.dropWhile (fun e => e.expired now t.timeoutJ) with hyoung
  have hsplit : held t.entries = old ++ held young := by
    rw [hold,hyoung,← held_append,List.takeWhile_append_dropWhile]
  have hsound : (∀ e ∈ t.entries, EntrySound answers e) → ∀ e ∈ young, EntrySound answers e :=
    fun h e he => h e ((List.dropWhile_suffix _).subset he)
  have hlen : t.packetCount - old.length = (held young).length + k := by
    rw [hcount,hsplit,List.length_append]
    omega
  have hslim : t.slim now = if t.packetCapacity ≠ 0 ∧ t.packetCapacity < t.packetCount - old.length then
      (discardAll (max 1 (t.packetCapacity - t.packetCapacity / t.capacitySlimFactor)) (t.packetCount - old.length)
        young).map (fun r => ({ t with entries := r.2.1, packetCount := r.1 },old ++ r.2.2))
      else some ({ t with entries := young, packetCount := t.packetCount - old.length },old) := rfl
  rw [hslim,hlen]
  by_cases hfull : t.packetCapacity ≠ 0 ∧ t.packetCapacity < (held young).length + k
  · rw [if_pos hfull]
    have hroom : (held young).length + k ≤
        (held young).length + max 1 (t.packetCapacity - t.packetCapacity / t.capacitySlimFactor) :=
      Nat.add_le_add_left (le_trans hk (le_max_left ..)) _
    obtain ⟨⟨count,es,killed⟩,hr,hle,hkilled,htrim⟩ := discardAll_spec answers hroom
    rw [hr]
    dsimp only at hle hkilled htrim
    have hpackets : killed.length + (held es).length = (held young).length :=
      (List.perm_iff_count.mpr fun p => (List.count_append ..).trans (htrim.packets p)).length_eq ▸
        (List.length_append ..).symm
    refine ⟨es,count,old ++ killed,rfl,?_,fun _ => ?_,htrim.same,fun h => htrim.sound (hsound h),fun p => ?_⟩
    · omega
    · have hone : 1 ≤ t.packetCapacity := Nat.one_le_iff_ne_zero.mpr hfull.1
      exact le_trans hle (max_le hone (Nat.sub_le ..))
    · have hrest := htrim.packets p
      rw [hsplit,List.count_append,List.count_append]
      omega
  · rw [if_neg hfull]
    refine ⟨young,_,old,rfl,rfl,fun hcap => ?_,rfl,hsound,fun p => ?_⟩
    · by_contra hmore
      exact hfull ⟨hcap,Nat.not_le.mp hmore⟩
    · rw [hsplit,List.count_append]

end Slim

section Table
variable {answers : IPAddress → Option EtherAddress} {t t' : ARPTable} {ip : IPAddress} {alloc : Bool} {now : UInt32}
  {front back : List ARPEntry} {e : ARPEntry} {p : Packet} {limit : ℕ}

structure Sound (answers : IPAddress → Option EtherAddress) (limit : ℕ) (t : ARPTable) : Prop where
  entries : ∀ e ∈ t.entries, EntrySound answers e
  distinct : (t.entries.map ARPEntry.ip).Nodup
  count : t.packetCount = (held t.entries).length
  capacity : t.packetCapacity ≠ 0 → t.packetCount ≤ t.packetCapacity
  configured : t.packetCapacity = limit

theorem sound_slim (h : Sound answers limit t) (now : UInt32) : ∃ t' killed, t.slim now = some (t',killed) ∧
    Sound answers limit t' ∧ ∀ p, killed.count p + (held t'.entries).count p = (held t.entries).count p := by
  obtain ⟨es,count,killed,hslim,hcount,hcap,hsame,hsound,hpackets⟩ := slim_spec answers now (k := 0) h.count (by decide)
  refine ⟨_,killed,hslim,⟨hsound h.entries,?_,hcount,hcap,h.configured⟩,hpackets⟩
  change (es.map ARPEntry.ip).Nodup
  rw [hsame]
  exact h.distinct.sublist ((List.dropWhile_sublist _).map _)

theorem ensure_spec (h : Sound answers limit t) (hensure : t.ensure alloc ip now = some (front,e,back)) :
    (∀ x ∈ front ++ e :: back, EntrySound answers x) ∧ ((front ++ e :: back).map ARPEntry.ip).Nodup ∧
      held (front ++ e :: back) = held t.entries ∧ e.ip = ip := by
  unfold ensure at hensure
  cases hlocate : locate ip t.entries with
  | some r =>
    rw [hlocate] at hensure
    cases hensure
    obtain ⟨hsplit,hip⟩ := locate_spec hlocate
    dsimp only at hsplit hip
    rw [← hsplit]
    exact ⟨h.entries,h.distinct,rfl,hip⟩
  | none =>
    rw [hlocate] at hensure
    dsimp only at hensure
    split_ifs at hensure
    cases hensure
    refine ⟨fun x hx => ?_,?_,by rw [held_append,held_cons]; simp,rfl⟩
    · rcases List.mem_append.mp hx with hx | hx
      · exact h.entries x hx
      · rw [List.mem_singleton.mp hx]
        exact ⟨rfl,fun p hp => absurd hp List.not_mem_nil,fun hknown => absurd hknown Bool.false_ne_true⟩
    · rw [List.map_append,List.nodup_append_comm]
      exact List.nodup_cons.mpr ⟨locate_eq_none.mp hlocate,h.distinct⟩

theorem insert_spec (h : Sound answers limit t) (eth : EtherAddress) {cached : List Packet}
    (hinsert : t.insert alloc ip eth now = some (t',cached)) :
    Sound (Function.update answers ip (some eth)) limit t' ∧
      ∀ p, cached.count p + (held t'.entries).count p = (held t.entries).count p := by
  obtain ⟨⟨front,e,back⟩,hensure,heq⟩ := Option.map_eq_some_iff.mp hinsert
  obtain ⟨rfl,rfl⟩ := Prod.mk.inj heq
  obtain ⟨hentries,hdistinct,hheld,rfl⟩ := ensure_spec h hensure
  have he := hentries e (List.mem_append_right _ List.mem_cons_self)
  have hlen : (held t.entries).length = (held front).length + (e.queue.length + (held back).length) := by
    rw [← hheld,held_append,held_cons,List.length_append,List.length_append]
  have hperm : (front ++ e :: back).Perm (e :: (front ++ back)) := List.perm_middle
  have hnodup := (hperm.map ARPEntry.ip).nodup_iff.mp hdistinct
  rw [List.map_cons] at hnodup
  refine ⟨⟨fun x hx => ?_,?_,?_,fun hcap => le_trans (Nat.sub_le ..) (h.capacity hcap),h.configured⟩,fun p => ?_⟩
  · rcases List.mem_append.mp hx with hx | hx
    · have hx' := hentries x (hperm.mem_iff.mpr (List.mem_cons_of_mem _ hx))
      have hne : x.ip ≠ e.ip := fun heq => (List.nodup_cons.mp hnodup).1 (heq ▸ List.mem_map_of_mem hx)
      exact ⟨hx'.counts,hx'.own,fun hknown => (Function.update_of_ne hne ..).trans (hx'.answered hknown)⟩
    · rw [List.mem_singleton.mp hx]
      exact ⟨rfl,fun p hp => absurd hp List.not_mem_nil,fun _ => Function.update_self ..⟩
  · rw [List.map_append,List.nodup_append_comm]
    exact hnodup
  · change t.packetCount - e.entryPacketCount = (held (front ++ back ++ [_])).length
    rw [h.count,hlen,he.counts,held_append,held_append,held_cons,held_nil]
    simp only [List.length_append,List.length_nil]
    omega
  · rw [← hheld]
    simp only [held_append,held_cons,held_nil,List.count_append,List.count_nil]
    omega

/-- The entry that a packet waits for is not taken for an old one. -/
theorem keepAlive_spec (t : ARPTable) (now : UInt32) (front : List ARPEntry) (e : ARPEntry) (back : List ARPEntry) :
    ∃ f b liveAtJ, t.keepAlive now front e back = f ++ { e with liveAtJ := liveAtJ } :: b ∧ f ++ b = front ++ back ∧
      ARPEntry.expired { e with liveAtJ := liveAtJ } now t.timeoutJ = false := by
  unfold keepAlive
  by_cases hold : t.timeoutJ ≠ 0 ∧ clickJiffiesLess e.liveAtJ (now - t.timeoutJ) = true
  · rw [if_pos hold]
    refine ⟨_,_,_,rfl,by rw [List.append_assoc,List.takeWhile_append_dropWhile],?_⟩
    have hnow : now - t.timeoutJ + t.timeoutJ - now = 0 := by grind
    rw [ARPEntry.expired,clickJiffiesLess,hnow]
    rfl
  · rw [if_neg hold]
    refine ⟨front,back,e.liveAtJ,rfl,rfl,?_⟩
    by_cases htimeout : t.timeoutJ = 0
    · rw [ARPEntry.expired,htimeout]
      simp
    · have hyoung : clickJiffiesLess e.liveAtJ (now - t.timeoutJ) = false :=
        Bool.eq_false_iff.mpr fun hless => hold ⟨htimeout,hless⟩
      have hsame : e.liveAtJ + t.timeoutJ - now = e.liveAtJ - (now - t.timeoutJ) := by grind
      rw [ARPEntry.expired,clickJiffiesLess,hsame]
      rw [clickJiffiesLess] at hyoung
      rw [hyoung]
      rfl

theorem EntrySound.enqueue (he : EntrySound answers e) (hp : p.dstIpAnno = e.ip) (now : UInt32) :
    EntrySound answers (ARPTable.enqueue p now e) := by
  have hown : ∀ x ∈ e.queue ++ [p], x.dstIpAnno = e.ip := by
    intro x hx
    rcases List.mem_append.mp hx with hx | hx
    · exact he.own x hx
    · rw [List.mem_singleton.mp hx]
      exact hp
  have hcounts : e.entryPacketCount + 1 = (e.queue ++ [p]).length := by
    rw [List.length_append,he.counts]
    rfl
  unfold ARPTable.enqueue ARPEntry.pollIfAllowed
  split_ifs
  · exact ⟨hcounts,hown,he.answered⟩
  · exact ⟨hcounts,hown,he.answered⟩

theorem enqueue_ip (p : Packet) (now : UInt32) (e : ARPEntry) : (enqueue p now e).ip = e.ip := by
  unfold enqueue ARPEntry.pollIfAllowed
  split_ifs <;> rfl

theorem enqueue_queue (p : Packet) (now : UInt32) (e : ARPEntry) : (enqueue p now e).queue = e.queue ++ [p] := by
  unfold enqueue ARPEntry.pollIfAllowed
  split_ifs <;> rfl

theorem EntrySound.keepAlive (h : ∀ x ∈ front ++ e :: back, EntrySound answers x) {f b : List ARPEntry} {liveAtJ : UInt32}
    (hsame : f ++ b = front ++ back) : ∀ x ∈ f ++ { e with liveAtJ := liveAtJ } :: b, EntrySound answers x := by
  intro x hx
  rcases List.mem_cons.mp (List.perm_middle.mem_iff.mp hx) with rfl | hx
  · have he := h e (List.mem_append_right _ List.mem_cons_self)
    exact ⟨he.counts,he.own,he.answered⟩
  · rw [hsame] at hx
    exact h x (List.perm_middle.mem_iff.mpr (List.mem_cons_of_mem _ hx))

theorem makeRoom_spec {f b : List ARPEntry} (hentries : ∀ x ∈ f ++ e :: b, EntrySound answers x)
    (hdistinct : ((f ++ e :: b).map ARPEntry.ip).Nodup) (hcount : t.packetCount = (held (f ++ e :: b)).length)
    (hlive : e.expired now t.timeoutJ = false) :
    ∃ es count killed, makeRoom { t with entries := f ++ e :: b, packetCount := t.packetCount + 1 } now =
        some ({ t with entries := es, packetCount := count },killed) ∧
      count = (held es).length + 1 ∧ (t.packetCapacity ≠ 0 → count ≤ t.packetCapacity) ∧
      (∀ x ∈ es, EntrySound answers x) ∧ (es.map ARPEntry.ip).Nodup ∧ e.ip ∈ es.map ARPEntry.ip ∧
      ∀ p, killed.count p + (held es).count p = (held (f ++ e :: b)).count p := by
  unfold makeRoom
  dsimp only
  by_cases hfull : t.packetCapacity ≠ 0 ∧ t.packetCapacity < t.packetCount + 1
  · rw [if_pos hfull]
    obtain ⟨es,count,killed,hslim,hcount',hcap',hsame,hsound,hpackets⟩ := slim_spec answers now (k := 1)
      (t := { t with entries := f ++ e :: b, packetCount := t.packetCount + 1 }) (by rw [hcount]) (le_refl 1)
    refine ⟨es,count,killed,hslim,hcount',hcap',hsound hentries,?_,?_,hpackets⟩
    · rw [hsame]
      exact hdistinct.sublist ((List.dropWhile_sublist _).map _)
    · rw [hsame]
      refine List.mem_map_of_mem ?_
      have hmem : e ∈ (f ++ e :: b).takeWhile (fun x => x.expired now t.timeoutJ) ++
          (f ++ e :: b).dropWhile (fun x => x.expired now t.timeoutJ) := by
        rw [List.takeWhile_append_dropWhile]
        exact List.mem_append_right _ List.mem_cons_self
      rcases List.mem_append.mp hmem with hold | hyoung
      · have hexpired : e.expired now t.timeoutJ = true := List.mem_takeWhile_imp (p := fun x : ARPEntry => x.expired now t.timeoutJ) hold
        rw [hlive] at hexpired
        cases hexpired
      · exact hyoung
  · rw [if_neg hfull]
    refine ⟨f ++ e :: b,t.packetCount + 1,[],rfl,by rw [hcount],fun hne => ?_,hentries,hdistinct,
      List.mem_map_of_mem (List.mem_append_right _ List.mem_cons_self),fun p => by rw [List.count_nil,Nat.zero_add]⟩
    by_contra hmore
    exact hfull ⟨hne,Nat.not_le.mp hmore⟩

theorem asked_unknown {pollTimeoutJ : UInt32} (hunknown : t.lookup ip now pollTimeoutJ = none)
    (hensure : t.ensure alloc ip now = some (front,e,back)) : e.isKnown now t.timeoutJ = false := by
  unfold lookup at hunknown
  unfold ensure at hensure
  cases hlocate : locate ip t.entries with
  | some r =>
    rw [hlocate] at hensure hunknown
    cases hensure
    dsimp only at hunknown
    split_ifs at hunknown with hknown
    exact Bool.eq_false_iff.mpr hknown
  | none =>
    rw [hlocate] at hensure
    dsimp only at hensure
    split_ifs at hensure
    cases hensure
    rfl

/-- A packet that has to wait is refused, or it is stored in an entry that is still there. -/
theorem appendQuery_spec (h : Sound answers limit t) (alloc : Bool) (p : Packet) (now pollTimeoutJ : UInt32)
    (hunknown : t.lookup p.dstIpAnno now pollTimeoutJ = none) :
    (∃ t', t.appendQuery alloc p.dstIpAnno p now = some (.refused t') ∧ Sound answers limit t' ∧
      ∀ x, (held t'.entries).count x = (held t.entries).count x) ∨
    ∃ t' killed poll, t.appendQuery alloc p.dstIpAnno p now = some (.stored t' killed poll) ∧ Sound answers limit t' ∧
      ∀ x, killed.count x + (held t'.entries).count x = (held t.entries).count x + [p].count x := by
  unfold appendQuery
  cases hensure : t.ensure alloc p.dstIpAnno now with
  | none => exact .inl ⟨t,rfl,h,fun _ => rfl⟩
  | some r =>
    obtain ⟨front,e,back⟩ := r
    obtain ⟨hentries,hdistinct,hheld,hip⟩ := ensure_spec h hensure
    have hasked := asked_unknown hunknown hensure
    obtain ⟨f,b,liveAtJ,hkeep,hsame,hlive⟩ := keepAlive_spec t now front e back
    have hentries' : ∀ x ∈ f ++ { e with liveAtJ := liveAtJ } :: b, EntrySound answers x := EntrySound.keepAlive hentries hsame
    have hips : ((f ++ { e with liveAtJ := liveAtJ } :: b).map ARPEntry.ip).Perm ((front ++ e :: back).map ARPEntry.ip) := by
      rw [List.map_append,List.map_append]
      refine List.perm_middle.trans (List.Perm.trans ?_ List.perm_middle.symm)
      rw [← List.map_append,← List.map_append,hsame]
    have hqueues : ∀ x, (held (f ++ { e with liveAtJ := liveAtJ } :: b)).count x = (held t.entries).count x := by
      intro x
      have hrest := congrArg (fun es => (held es).count x) hsame
      rw [← hheld]
      simp only [held_append,held_cons,List.count_append] at hrest ⊢
      omega
    have hlength : t.packetCount = (held (f ++ { e with liveAtJ := liveAtJ } :: b)).length :=
      h.count.trans (List.perm_iff_count.mpr hqueues).length_eq.symm
    dsimp only
    rw [hasked,if_neg Bool.false_ne_true,hkeep]
    by_cases hfull : t.entryPacketCapacity ≠ 0 ∧ t.entryPacketCapacity ≤ e.entryPacketCount
    · rw [if_pos hfull]
      exact .inl ⟨_,rfl,⟨hentries',hips.nodup_iff.mpr hdistinct,hlength,h.capacity,h.configured⟩,hqueues⟩
    · rw [if_neg hfull]
      obtain ⟨es,count,killed,hroom,hcount,hcap,hsound,hnodup,hmem,hpackets⟩ :=
        makeRoom_spec hentries' (hips.nodup_iff.mpr hdistinct) hlength hlive
      rw [hroom,Option.bind_some]
      dsimp only
      cases hlocate : locate p.dstIpAnno es with
      | none => exact absurd (hip ▸ hmem) (locate_eq_none.mp hlocate)
      | some r =>
        obtain ⟨front',e',back'⟩ := r
        obtain ⟨hsplit,hip'⟩ := locate_spec hlocate
        dsimp only at hsplit hip'
        subst hsplit
        refine .inr ⟨_,killed,_,rfl,⟨fun x hx => ?_,?_,?_,hcap,h.configured⟩,fun x => ?_⟩
        · rcases List.mem_cons.mp (List.perm_middle.mem_iff.mp hx) with rfl | hx
          · exact (hsound e' (List.mem_append_right _ List.mem_cons_self)).enqueue hip'.symm now
          · exact hsound x (List.perm_middle.mem_iff.mpr (List.mem_cons_of_mem _ hx))
        · rw [List.map_append,List.map_cons,enqueue_ip,← List.map_cons,← List.map_append]
          exact hnodup
        · rw [hcount]
          simp only [held_append,held_cons,enqueue_queue,List.length_append,List.length_cons,List.length_nil]
          omega
        · have hold := hpackets x
          have hnew := hqueues x
          simp only [held_append,held_cons,enqueue_queue,List.count_append] at hold hnew ⊢
          omega

theorem lookup_spec (h : Sound answers limit t) {pollTimeoutJ : UInt32} {eth : EtherAddress} {poll : Bool}
    (hlookup : t.lookup ip now pollTimeoutJ = some (t',eth,poll)) :
    Sound answers limit t' ∧ held t'.entries = held t.entries ∧ answers ip = some eth := by
  unfold lookup at hlookup
  cases hlocate : locate ip t.entries with
  | none =>
    rw [hlocate] at hlookup
    cases hlookup
  | some r =>
    obtain ⟨front,e,back⟩ := r
    obtain ⟨hsplit,rfl⟩ := locate_spec hlocate
    dsimp only at hsplit
    rw [hlocate] at hlookup
    dsimp only at hlookup
    have hmem : e ∈ t.entries := hsplit ▸ List.mem_append_right _ List.mem_cons_self
    split_ifs at hlookup with hknown hpoll
    · have heth := (h.entries e hmem).answered (Bool.and_eq_true_iff.mp hknown).1
      cases hlookup
      have hheld : held (front ++ e.markPoll now :: back) = held t.entries := by
        rw [hsplit,held_append,held_append,held_cons,held_cons]
        rfl
      refine ⟨⟨fun x hx => ?_,?_,h.count.trans (congrArg List.length hheld).symm,h.capacity,h.configured⟩,hheld,heth⟩
      · rcases List.mem_cons.mp (List.perm_middle.mem_iff.mp hx) with rfl | hx
        · exact ⟨(h.entries e hmem).counts,(h.entries e hmem).own,(h.entries e hmem).answered⟩
        · exact h.entries x (hsplit ▸ List.perm_middle.mem_iff.mpr (List.mem_cons_of_mem _ hx))
      · have hdistinct := h.distinct
        rw [hsplit] at hdistinct
        rw [List.map_append] at hdistinct ⊢
        exact hdistinct
    · have heth := (h.entries e hmem).answered (Bool.and_eq_true_iff.mp hknown).1
      cases hlookup
      exact ⟨h,rfl,heth⟩

end Table
end ARPTable

end ClickMobileIP
