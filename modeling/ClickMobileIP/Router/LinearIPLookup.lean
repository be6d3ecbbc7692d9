import ClickMobileIP.Wire.Packet
import ClickMobileIP.Support.EventRun
import ClickMobileIP.Support.SkipSearch

/-! # Linear route lookup

The routing table of the scripts is a vector of routes. A removed route leaves a dead slot
that the next route fills, each route points at the first later route that it contains, and
the last two lookups are cached. The table is compared with what it is for: a map from
prefixes to next hops, searched for the longest prefix that contains an address.
-/
namespace ClickMobileIP

def makePrefix (prefixLen : ℕ) : IPAddress :=
  htonl (if prefixLen = 0 then 0 else (0xffffffff : UInt32) <<< UInt32.ofNat (32 - prefixLen))

def matchesPrefix (a addr mask : IPAddress) : Bool := decide ((a ^^^ addr) &&& mask = 0)

def maskAsSpecific (m mask : IPAddress) : Bool := decide (m &&& mask = mask)

structure IPRoute where
  addr : IPAddress
  mask : IPAddress
  gw : IPAddress := 0
  port : ℤ
  extra : ℕ := 0
  deriving DecidableEq, Repr

namespace IPRoute

def real (r : IPRoute) : Bool := decide (-2147483648 < r.port)

def kill (r : IPRoute) : IPRoute := { r with addr := 0, mask := 0xffffffff, port := -2147483648 }

def contains (r : IPRoute) (a : IPAddress) : Bool := matchesPrefix a r.addr r.mask

def containsRoute (r s : IPRoute) : Bool := matchesPrefix s.addr r.addr r.mask && maskAsSpecific s.mask r.mask

/-- A negative port stands for any gateway and port. -/
def matchesRoute (r s : IPRoute) : Bool :=
  decide (r.addr = s.addr ∧ r.mask = s.mask ∧ (r.port < 0 ∨ (r.gw = s.gw ∧ r.port = s.port)))

def samePrefix (r s : IPRoute) : Bool := decide (r.addr = s.addr ∧ r.mask = s.mask)

/-- What is left of a slot outside the table. -/
def deadSlot : IPRoute := { addr := 0, mask := 0xffffffff, port := -2147483648 }

end IPRoute

/-- The state of the element, caches included. -/
structure LinearIPLookup where
  t : List IPRoute := []
  zeroRoute : Option ℕ := none
  lastAddr : IPAddress := 0
  lastEntry : Option ℕ := none
  lastAddr2 : IPAddress := 0
  lastEntry2 : Option ℕ := none

namespace LinearIPLookup

def slot (t : List IPRoute) (i : ℕ) : IPRoute := t.getD i IPRoute.deadSlot

def lookupEntry (t : List IPRoute) (a : IPAddress) : Option ℕ :=
  SkipSearch.search (fun i => (slot t i).contains a)
    (fun j found => maskAsSpecific (slot t j).mask (slot t found).mask) (fun i => (slot t i).extra) t.length

/-- The pointer of a route that is put into slot `found`. -/
def nextPointer (t : List IPRoute) (r : IPRoute) (found : ℕ) : ℕ :=
  ((List.range t.length).find? fun i =>
    decide (found < i) && (r.containsRoute (slot t i) && (slot t i).real)).getD 0x7fffffff

/-- A route in slot `found`, which may be the one behind the last, with the pointers patched up. -/
def insertAt (t : List IPRoute) (r : IPRoute) (found : ℕ) : List IPRoute :=
  (t.take found).map (fun e => if e.containsRoute r && decide (found < e.extra) then { e with extra := found } else e) ++
    { r with extra := nextPointer t r found } :: t.drop (found + 1)

/-- The first dead slot, or the one behind the last. -/
def freeSlot (t : List IPRoute) : ℕ := t.findIdx fun e => !e.real

/-- `none` is the error that the route exists. -/
def addRoute (s : LinearIPLookup) (r : IPRoute) (allowReplace : Bool) : Option LinearIPLookup :=
  match s.t.findIdx? fun e => e.real && r.samePrefix e with
  | some i =>
    if allowReplace then some { s with t := s.t.modify i fun e => { e with gw := r.gw, port := r.port } }
    else none
  | none =>
    let found := freeSlot s.t
    some { t := insertAt s.t r found
           zeroRoute := if r.addr = 0 ∧ r.mask = 0xffffffff then some found else s.zeroRoute
           lastAddr := 0, lastEntry := s.lastEntry, lastAddr2 := 0, lastEntry2 := s.lastEntry2 }

/-- `none` is the error that there is no such route. A route for `0.0.0.0/32` behind the new
dead slot is moved in front of all dead slots, which look like it. -/
def removeRoute (s : LinearIPLookup) (r : IPRoute) : Option LinearIPLookup :=
  match s.t.findIdx? r.matchesRoute with
  | none => none
  | some i =>
    let killed := { s with t := s.t.modify i IPRoute.kill }
    let moved : LinearIPLookup :=
      match s.zeroRoute with
      | none => killed
      | some z =>
        if i = z then { killed with zeroRoute := none }
        else if i < z then
          (addRoute { killed with t := killed.t.modify z IPRoute.kill } (slot killed.t z) false).getD killed
        else killed
    some { moved with lastAddr := 0, lastAddr2 := 0 }

/-- The table after the lookup of an address, and the entry found. -/
def cachedEntry (s : LinearIPLookup) (a : IPAddress) : LinearIPLookup × Option ℕ :=
  if a ≠ 0 ∧ a = s.lastAddr then (s,s.lastEntry)
  else if a ≠ 0 ∧ a = s.lastAddr2 then (s,s.lastEntry2)
  else
    match lookupEntry s.t a with
    | none => (s,none)
    | some ei =>
      ({ s with lastAddr2 := s.lastAddr, lastEntry2 := s.lastEntry, lastAddr := a, lastEntry := some ei },some ei)

/-- Packets without a route are dropped; a gateway replaces the destination annotation. -/
def push (s : LinearIPLookup) (p : Packet) : LinearIPLookup × List (ℤ × Packet) :=
  match s.cachedEntry p.dstIpAnno with
  | (u,none) => (u,[])
  | (u,some ei) =>
    let e := slot u.t ei
    (u,[(e.port,if e.gw ≠ 0 then { p with dstIpAnno := e.gw } else p)])

end LinearIPLookup

section Masks
variable {a b m n k : IPAddress}

theorem matchesPrefix_iff : matchesPrefix a b m = true ↔ a &&& m = b &&& m := by
  have hdist : (a ^^^ b) &&& m = (a &&& m) ^^^ (b &&& m) := by
    apply UInt32.toNat_inj.mp
    apply Nat.eq_of_testBit_eq
    intro i
    simp only [UInt32.toNat_and,UInt32.toNat_xor,Nat.testBit_and,Nat.testBit_xor]
    cases a.toNat.testBit i <;> cases b.toNat.testBit i <;> cases m.toNat.testBit i <;> rfl
  rw [matchesPrefix,decide_eq_true_iff,hdist,UInt32.xor_eq_zero_iff]

theorem maskAsSpecific_iff : maskAsSpecific m n = true ↔ m &&& n = n := by
  rw [maskAsSpecific,decide_eq_true_iff]

theorem maskAsSpecific_trans (h : maskAsSpecific m n = true) (h' : maskAsSpecific n k = true) :
    maskAsSpecific m k = true := by
  rw [maskAsSpecific_iff] at h h' ⊢
  rw [← h',← UInt32.and_assoc,h]

theorem maskAsSpecific_antisymm (h : maskAsSpecific m n = true) (h' : maskAsSpecific n m = true) : m = n := by
  rw [maskAsSpecific_iff] at h h'
  rw [← h',UInt32.and_comm,h]

theorem and_of_specific (hm : maskAsSpecific m n = true) (h : a &&& m = b &&& m) : a &&& n = b &&& n := by
  rw [maskAsSpecific_iff] at hm
  rw [← hm,← UInt32.and_assoc,h,UInt32.and_assoc]

theorem makePrefix_anti : ∀ k l : Fin 33, k ≤ l → makePrefix l &&& makePrefix k = makePrefix k := by
  decide +kernel

def IsPrefixMask (m : IPAddress) : Prop := ∃ k : Fin 33, m = makePrefix k

instance (m : IPAddress) : Decidable (IsPrefixMask m) := inferInstanceAs (Decidable (∃ _ : Fin 33, _))

theorem IsPrefixMask.total (hm : IsPrefixMask m) (hn : IsPrefixMask n) :
    maskAsSpecific m n = true ∨ maskAsSpecific n m = true := by
  obtain ⟨k,rfl⟩ := hm
  obtain ⟨l,rfl⟩ := hn
  rw [maskAsSpecific_iff,maskAsSpecific_iff]
  rcases Nat.le_total k.val l.val with h | h
  · exact Or.inr (makePrefix_anti k l h)
  · exact Or.inl (makePrefix_anti l k h)

end Masks

namespace IPRoute

/-- A route for a prefix. The parser makes the address a normal one and the commands check the
port, but the mask may be any dotted one. -/
structure WellFormed (r : IPRoute) : Prop where
  normal : r.addr &&& r.mask = r.addr
  isPrefix : IsPrefixMask r.mask
  port : 0 ≤ r.port

theorem WellFormed.real {r : IPRoute} (h : r.WellFormed) : r.real = true := by
  have hport := h.port
  rw [IPRoute.real,decide_eq_true_iff]
  omega

theorem real_kill (r : IPRoute) : r.kill.real = false := by simp [kill,real]

theorem contains_iff {r : IPRoute} {a : IPAddress} : r.contains a = true ↔ a &&& r.mask = r.addr &&& r.mask :=
  matchesPrefix_iff

theorem containsRoute_iff {r s : IPRoute} : r.containsRoute s = true ↔
    s.addr &&& r.mask = r.addr &&& r.mask ∧ maskAsSpecific s.mask r.mask = true := by
  rw [containsRoute,Bool.and_eq_true,matchesPrefix_iff]

/-- Of two routes that contain an address the one with the shorter mask contains the other. -/
theorem containsRoute_of_contains {r s : IPRoute} {a : IPAddress} (hr : r.contains a = true)
    (hs : s.contains a = true) (h : maskAsSpecific s.mask r.mask = true) : r.containsRoute s = true := by
  rw [contains_iff] at hr hs
  exact containsRoute_iff.mpr ⟨(and_of_specific h hs).symm.trans hr,h⟩

end IPRoute

namespace LinearIPLookup

structure Sound (t : List IPRoute) : Prop where
  wellFormed : ∀ e ∈ t, e.real = true → e.WellFormed
  dead : ∀ e ∈ t, e.real = false → e.addr = 0 ∧ e.mask = 0xffffffff
  nodup : ∀ (i j : ℕ) (e e' : IPRoute), t[i]? = some e → t[j]? = some e' → e.real = true → e'.real = true →
    e.addr = e'.addr → e.mask = e'.mask → i = j
  skipped : ∀ (i j : ℕ) (e e' : IPRoute), t[i]? = some e → t[j]? = some e' → e.real = true → e'.real = true → i < j →
    j < e.extra → e.containsRoute e' = false

theorem slot_eq {t : List IPRoute} {i : ℕ} {e : IPRoute} (h : t[i]? = some e) : slot t i = e := by
  rw [slot,List.getD_eq_getElem?_getD,h]
  rfl

theorem getElem?_slot {t : List IPRoute} {i : ℕ} (h : i < t.length) : t[i]? = some (slot t i) := by
  rw [slot,List.getD_eq_getElem?_getD,List.getElem?_eq_getElem h]
  rfl

section Lookup
variable {t : List IPRoute} {a : IPAddress}

/-- A dead slot contains no address but `0.0.0.0`, so it can only come in the way of this one. -/
def Undisturbed (t : List IPRoute) (a : IPAddress) : Prop := a ≠ 0 ∨ ∀ e ∈ t, e.real = true

theorem Sound.real_of_contains (h : Sound t) (ha : Undisturbed t a) {i : ℕ} (hi : i < t.length)
    (hc : (slot t i).contains a = true) : (slot t i).real = true := by
  by_contra hdead
  rcases ha with ha | hreal
  swap
  · exact hdead (hreal _ (List.mem_of_getElem? (getElem?_slot hi)))
  obtain ⟨haddr,hmask⟩ := h.dead _ (List.mem_of_getElem? (getElem?_slot hi)) (Bool.eq_false_iff.mpr hdead)
  rw [IPRoute.contains_iff,haddr,hmask] at hc
  apply ha
  have hall : a &&& 0xffffffff = a := by
    apply UInt32.toNat_inj.mp
    rw [UInt32.toNat_and]
    exact (Nat.and_two_pow_sub_one_eq_mod a.toNat 32).trans (Nat.mod_eq_of_lt a.toNat_lt)
  rw [← hall,hc]
  rfl

theorem Sound.ordered (h : Sound t) (ha : Undisturbed t a) : SkipSearch.Ordered (fun i => (slot t i).contains a)
    (fun j found => maskAsSpecific (slot t j).mask (slot t found).mask) (fun i => (slot t i).extra) t.length where
  total i hi j hj hci hcj :=
    IsPrefixMask.total (h.wellFormed _ (List.mem_of_getElem? (getElem?_slot hi)) (h.real_of_contains ha hi hci)).isPrefix
      (h.wellFormed _ (List.mem_of_getElem? (getElem?_slot hj)) (h.real_of_contains ha hj hcj)).isPrefix
  trans i j k := maskAsSpecific_trans
  antisymm i hi j hj hci hcj hij hji := by
    have hri := h.real_of_contains ha hi hci
    have hrj := h.real_of_contains ha hj hcj
    have hmask := maskAsSpecific_antisymm hij hji
    rw [IPRoute.contains_iff] at hci hcj
    have hni := (h.wellFormed _ (List.mem_of_getElem? (getElem?_slot hi)) hri).normal
    have hnj := (h.wellFormed _ (List.mem_of_getElem? (getElem?_slot hj)) hrj).normal
    refine h.nodup i j _ _ (getElem?_slot hi) (getElem?_slot hj) hri hrj ?_ hmask
    rw [← hni,← hci,hmask,hcj,hnj]
  skipped i hi j hj hci hcj hlt hskip := by
    by_contra hfine
    have hin := IPRoute.containsRoute_of_contains hci hcj (Bool.not_eq_false _ ▸ hfine)
    rw [h.skipped i j _ _ (getElem?_slot hi) (getElem?_slot hj) (h.real_of_contains ha hi hci)
      (h.real_of_contains ha hj hcj) hlt hskip] at hin
    cases hin

end Lookup

section Insert
variable {t : List IPRoute} {r : IPRoute} {found : ℕ}

theorem freeSlot_le (t : List IPRoute) : freeSlot t ≤ t.length := List.findIdx_le_length

theorem dead_freeSlot {e : IPRoute} (h : t[freeSlot t]? = some e) : e.real = false := by
  obtain ⟨hlt,he⟩ := List.getElem?_eq_some_iff.mp h
  have hdead : (!(t[freeSlot t]).real) = true := List.findIdx_getElem (w := hlt)
  rw [he] at hdead
  simpa using hdead

theorem real_of_lt_freeSlot {i : ℕ} {e : IPRoute} (hi : i < freeSlot t) (h : t[i]? = some e) : e.real = true := by
  obtain ⟨hlt,rfl⟩ := List.getElem?_eq_some_iff.mp h
  have hreal := List.not_of_lt_findIdx hi
  simpa using hreal

/-- An entry in front of a new route points no further than the route if it contains it. -/
def patched (r : IPRoute) (found : ℕ) (e : IPRoute) : IPRoute :=
  if e.containsRoute r && decide (found < e.extra) then { e with extra := found } else e

theorem getElem?_insertAt (h : found ≤ t.length) (i : ℕ) : (insertAt t r found)[i]? =
    if i < found then (t[i]?).map (patched r found)
    else if i = found then some { r with extra := nextPointer t r found } else t[i]? := by
  have hlen : ((t.take found).map (patched r found)).length = found := by
    rw [List.length_map,List.length_take]
    omega
  change ((t.take found).map (patched r found) ++ _ :: t.drop (found + 1))[i]? = _
  by_cases hlow : i < found
  · rw [if_pos hlow,List.getElem?_append_left (by omega),List.getElem?_map,List.getElem?_take_of_lt hlow]
  · rw [if_neg hlow,List.getElem?_append_right (by omega),hlen]
    by_cases heq : i = found
    · rw [if_pos heq,heq,Nat.sub_self]
      rfl
    · have hsplit : i - found = (i - found - 1) + 1 := by omega
      rw [if_neg heq,hsplit,List.getElem?_cons_succ,List.getElem?_drop]
      congr 1
      omega

/-- All but the pointer of an entry. -/
def SameRoute (e e' : IPRoute) : Prop := e'.addr = e.addr ∧ e'.mask = e.mask ∧ e'.gw = e.gw ∧ e'.port = e.port

theorem SameRoute.real {e e' : IPRoute} (h : SameRoute e e') : e'.real = e.real := by
  rw [IPRoute.real,IPRoute.real,h.2.2.2]

theorem SameRoute.containsRoute {e e' d d' : IPRoute} (h : SameRoute e e') (h' : SameRoute d d') :
    e'.containsRoute d' = e.containsRoute d := by
  rw [IPRoute.containsRoute,IPRoute.containsRoute,h.1,h.2.1,h'.1,h'.2.1]

theorem patched_spec (r : IPRoute) (found : ℕ) (e : IPRoute) : SameRoute e (patched r found e) ∧
    (patched r found e).extra ≤ e.extra ∧ (e.containsRoute r = true → (patched r found e).extra ≤ found) := by
  unfold patched
  by_cases h : (e.containsRoute r && decide (found < e.extra)) = true
  · rw [if_pos h]
    have hlt : found < e.extra := of_decide_eq_true ((Bool.and_eq_true _ _).mp h).2
    exact ⟨⟨rfl,rfl,rfl,rfl⟩,hlt.le,fun _ => le_rfl⟩
  · rw [if_neg h]
    refine ⟨⟨rfl,rfl,rfl,rfl⟩,le_rfl,fun hc => ?_⟩
    rw [hc,Bool.true_and,decide_eq_true_iff] at h
    omega

theorem insertAt_cases (h : found ≤ t.length) {i : ℕ} {e : IPRoute} (he : (insertAt t r found)[i]? = some e) :
    (i = found ∧ e = { r with extra := nextPointer t r found }) ∨
      (i ≠ found ∧ ∃ d, t[i]? = some d ∧ SameRoute d e ∧ e.extra ≤ d.extra ∧
        (i < found → d.containsRoute r = true → e.extra ≤ found)) := by
  rw [getElem?_insertAt h] at he
  by_cases hlow : i < found
  · rw [if_pos hlow,Option.map_eq_some_iff] at he
    obtain ⟨d,hd,rfl⟩ := he
    obtain ⟨hsame,hle,hpatch⟩ := patched_spec r found d
    exact Or.inr ⟨by omega,d,hd,hsame,hle,fun _ => hpatch⟩
  · rw [if_neg hlow] at he
    by_cases heq : i = found
    · rw [if_pos heq] at he
      exact Or.inl ⟨heq,(Option.some.inj he).symm⟩
    · rw [if_neg heq] at he
      exact Or.inr ⟨heq,e,he,⟨rfl,rfl,rfl,rfl⟩,le_rfl,fun hlt => absurd hlt hlow⟩

/-- Up to its pointer a new route contains nothing. -/
theorem nextPointer_spec {j : ℕ} {e : IPRoute} (he : t[j]? = some e) (hreal : e.real = true) (hj : found < j)
    (hlt : j < nextPointer t r found) : r.containsRoute e = false := by
  obtain ⟨hlen,-⟩ := List.getElem?_eq_some_iff.mp he
  have hslot := slot_eq he
  unfold nextPointer at hlt
  cases hfind : (List.range t.length).find? fun i =>
      decide (found < i) && (r.containsRoute (slot t i) && (slot t i).real) with
  | none =>
    have hno := List.find?_eq_none.mp hfind j (List.mem_range.mpr hlen)
    simpa [hslot,hreal,hj] using hno
  | some m =>
    rw [hfind,Option.getD_some] at hlt
    have hno := (List.find?_range_eq_some.mp hfind).2.2 j hlt
    simpa [hslot,hreal,hj] using hno

theorem Sound.insertAt (h : Sound t) (hr : r.WellFormed) (hfresh : ∀ e ∈ t, e.real = true → r.samePrefix e = false) :
    Sound (insertAt t r (freeSlot t)) := by
  have hle := freeSlot_le t
  have hmem : ∀ e ∈ LinearIPLookup.insertAt t r (freeSlot t), e.real = true → e.addr = r.addr ∧ e.mask = r.mask ∧
      e.WellFormed ∨ ∃ d ∈ t, SameRoute d e := by
    intro e he hreal
    obtain ⟨i,hi⟩ := List.mem_iff_getElem?.mp he
    rcases insertAt_cases hle hi with ⟨-,rfl⟩ | ⟨-,d,hd,hsame,-⟩
    · exact Or.inl ⟨rfl,rfl,⟨hr.normal,hr.isPrefix,hr.port⟩⟩
    · exact Or.inr ⟨d,List.mem_of_getElem? hd,hsame⟩
  have hother : ∀ d ∈ t, d.real = true → ¬(r.addr = d.addr ∧ r.mask = d.mask) := by
    intro d hd hreal hsame
    have hno := hfresh d hd hreal
    simp [IPRoute.samePrefix,hsame] at hno
  refine ⟨?_,?_,?_,?_⟩
  · intro e he hreal
    rcases hmem e he hreal with ⟨-,-,hwell⟩ | ⟨d,hd,hsame⟩
    · exact hwell
    · have hwell := h.wellFormed d hd (hsame.real.symm.trans hreal)
      obtain ⟨haddr,hmask,-,hport⟩ := hsame
      exact ⟨by rw [haddr,hmask]; exact hwell.normal,hmask ▸ hwell.isPrefix,hport ▸ hwell.port⟩
  · intro e he hdead
    obtain ⟨i,hi⟩ := List.mem_iff_getElem?.mp he
    rcases insertAt_cases hle hi with ⟨-,rfl⟩ | ⟨-,d,hd,hsame,-⟩
    · have hreal : ({ r with extra := nextPointer t r (freeSlot t) } : IPRoute).real = true := hr.real
      rw [hreal] at hdead
      cases hdead
    · obtain ⟨haddr,hmask⟩ := h.dead d (List.mem_of_getElem? hd) (hsame.real.symm.trans hdead)
      exact ⟨hsame.1.trans haddr,hsame.2.1.trans hmask⟩
  · intro i j e e' hi hj hreal hreal' haddr hmask
    rcases insertAt_cases hle hi with ⟨rfl,rfl⟩ | ⟨-,d,hd,hsame,-⟩
    · rcases insertAt_cases hle hj with ⟨rfl,rfl⟩ | ⟨-,d',hd',hsame',-⟩
      · rfl
      · exact absurd ⟨haddr.trans hsame'.1,hmask.trans hsame'.2.1⟩
          (hother d' (List.mem_of_getElem? hd') (hsame'.real.symm.trans hreal'))
    · rcases insertAt_cases hle hj with ⟨rfl,rfl⟩ | ⟨-,d',hd',hsame',-⟩
      · exact absurd ⟨haddr.symm.trans hsame.1,hmask.symm.trans hsame.2.1⟩
          (hother d (List.mem_of_getElem? hd) (hsame.real.symm.trans hreal))
      · exact h.nodup i j d d' hd hd' (hsame.real.symm.trans hreal) (hsame'.real.symm.trans hreal')
          (hsame.1.symm.trans (haddr.trans hsame'.1)) (hsame.2.1.symm.trans (hmask.trans hsame'.2.1))
  · intro i j e e' hi hj hreal hreal' hlt hskip
    rcases insertAt_cases hle hi with ⟨rfl,rfl⟩ | ⟨hne,d,hd,hsame,hextra,hpatch⟩
    · rcases insertAt_cases hle hj with ⟨rfl,rfl⟩ | ⟨-,d',hd',hsame',-⟩
      · omega
      · have hnew : SameRoute r { r with extra := nextPointer t r (freeSlot t) } := ⟨rfl,rfl,rfl,rfl⟩
        rw [SameRoute.containsRoute hnew hsame']
        exact nextPointer_spec hd' (hsame'.real.symm.trans hreal') hlt hskip
    · rcases insertAt_cases hle hj with ⟨rfl,rfl⟩ | ⟨-,d',hd',hsame',-⟩
      · have hnew : SameRoute r { r with extra := nextPointer t r (freeSlot t) } := ⟨rfl,rfl,rfl,rfl⟩
        rw [SameRoute.containsRoute hsame hnew]
        by_contra hc
        have hclose := hpatch hlt (Bool.not_eq_false _ ▸ hc)
        omega
      · rw [SameRoute.containsRoute hsame hsame']
        exact h.skipped i j d d' hd hd' (hsame.real.symm.trans hreal) (hsame'.real.symm.trans hreal') hlt
          (lt_of_lt_of_le hskip hextra)

end Insert

section Modify
variable {t : List IPRoute} {n : ℕ} {f : IPRoute → IPRoute}

theorem modify_cases {i : ℕ} {e : IPRoute} (h : (t.modify n f)[i]? = some e) :
    (i = n ∧ ∃ d, t[i]? = some d ∧ e = f d) ∨ (i ≠ n ∧ t[i]? = some e) := by
  rw [List.getElem?_modify] at h
  obtain ⟨d,hd,rfl⟩ := Option.map_eq_some_iff.mp h
  by_cases hi : n = i
  · rw [if_pos hi]
    exact Or.inl ⟨hi.symm,d,hd,rfl⟩
  · rw [if_neg hi]
    exact Or.inr ⟨fun hn => hi hn.symm,hd⟩

theorem Sound.kill (h : Sound t) (n : ℕ) : Sound (t.modify n IPRoute.kill) := by
  have hreal : ∀ (i : ℕ) (e : IPRoute), (t.modify n IPRoute.kill)[i]? = some e → e.real = true → t[i]? = some e := by
    intro i e he hreal
    rcases modify_cases he with ⟨-,d,-,rfl⟩ | ⟨-,he⟩
    · rw [IPRoute.real_kill] at hreal
      cases hreal
    · exact he
  refine ⟨?_,?_,?_,?_⟩
  · intro e he hr
    obtain ⟨i,hi⟩ := List.mem_iff_getElem?.mp he
    exact h.wellFormed e (List.mem_of_getElem? (hreal i e hi hr)) hr
  · intro e he hr
    obtain ⟨i,hi⟩ := List.mem_iff_getElem?.mp he
    rcases modify_cases hi with ⟨-,d,-,rfl⟩ | ⟨-,hi⟩
    · exact ⟨rfl,rfl⟩
    · exact h.dead e (List.mem_of_getElem? hi) hr
  · intro i j e e' hi hj hr hr'
    exact h.nodup i j e e' (hreal i e hi hr) (hreal j e' hj hr') hr hr'
  · intro i j e e' hi hj hr hr'
    exact h.skipped i j e e' (hreal i e hi hr) (hreal j e' hj hr') hr hr'

theorem Sound.replace (h : Sound t) (n : ℕ) {gw : IPAddress} {port : ℤ} (hport : 0 ≤ port)
    (hn : ∀ e, t[n]? = some e → e.real = true) :
    Sound (t.modify n fun e => { e with gw := gw, port := port }) := by
  have hsame : ∀ (i : ℕ) (e : IPRoute), (t.modify n fun e => { e with gw := gw, port := port })[i]? = some e →
      ∃ d, t[i]? = some d ∧ e.addr = d.addr ∧ e.mask = d.mask ∧ e.extra = d.extra ∧ e.real = d.real ∧
        (0 ≤ d.port → 0 ≤ e.port) := by
    intro i e he
    rcases modify_cases he with ⟨rfl,d,hd,rfl⟩ | ⟨-,he⟩
    · refine ⟨d,hd,rfl,rfl,rfl,?_,fun _ => hport⟩
      rw [hn d hd,IPRoute.real,decide_eq_true_iff]
      change -2147483648 < port
      omega
    · exact ⟨e,he,rfl,rfl,rfl,rfl,id⟩
  refine ⟨?_,?_,?_,?_⟩
  · intro e he hr
    obtain ⟨i,hi⟩ := List.mem_iff_getElem?.mp he
    obtain ⟨d,hd,haddr,hmask,-,hreal,hp⟩ := hsame i e hi
    have hwell := h.wellFormed d (List.mem_of_getElem? hd) (hreal ▸ hr)
    exact ⟨by rw [haddr,hmask]; exact hwell.normal,hmask ▸ hwell.isPrefix,hp hwell.port⟩
  · intro e he hr
    obtain ⟨i,hi⟩ := List.mem_iff_getElem?.mp he
    obtain ⟨d,hd,haddr,hmask,-,hreal,-⟩ := hsame i e hi
    obtain ⟨ha,hm⟩ := h.dead d (List.mem_of_getElem? hd) (hreal ▸ hr)
    exact ⟨haddr.trans ha,hmask.trans hm⟩
  · intro i j e e' hi hj hr hr' ha hm
    obtain ⟨d,hd,haddr,hmask,-,hreal,-⟩ := hsame i e hi
    obtain ⟨d',hd',haddr',hmask',-,hreal',-⟩ := hsame j e' hj
    exact h.nodup i j d d' hd hd' (hreal ▸ hr) (hreal' ▸ hr') (haddr.symm.trans (ha.trans haddr'))
      (hmask.symm.trans (hm.trans hmask'))
  · intro i j e e' hi hj hr hr' hlt hskip
    obtain ⟨d,hd,haddr,hmask,hextra,hreal,-⟩ := hsame i e hi
    obtain ⟨d',hd',haddr',hmask',-,hreal',-⟩ := hsame j e' hj
    rw [IPRoute.containsRoute,haddr,hmask,haddr',hmask']
    exact h.skipped i j d d' hd hd' (hreal ▸ hr) (hreal' ▸ hr') hlt (hextra ▸ hskip)

end Modify

section Content
variable {t : List IPRoute} {k : IPAddress × IPAddress} {hop : IPAddress × ℤ}

def content (t : List IPRoute) (k : IPAddress × IPAddress) : Option (IPAddress × ℤ) :=
  (t.find? fun e => e.real && decide (e.addr = k.1 ∧ e.mask = k.2)).map fun e => (e.gw,e.port)

theorem Sound.content_eq_some (h : Sound t) : content t k = some hop ↔
    ∃ e ∈ t, e.real = true ∧ (e.addr,e.mask) = k ∧ (e.gw,e.port) = hop := by
  unfold content
  constructor
  · intro hc
    obtain ⟨e,he,rfl⟩ := Option.map_eq_some_iff.mp hc
    have hprop := List.find?_some he
    rw [Bool.and_eq_true,decide_eq_true_iff] at hprop
    exact ⟨e,List.mem_of_find?_eq_some he,hprop.1,Prod.ext hprop.2.1 hprop.2.2,rfl⟩
  · rintro ⟨e,he,hreal,rfl,rfl⟩
    cases hfind : t.find? fun d => d.real && decide (d.addr = e.addr ∧ d.mask = e.mask) with
    | none =>
      have hno := List.find?_eq_none.mp hfind e he
      simp [hreal] at hno
    | some d =>
      have hprop := List.find?_some hfind
      rw [Bool.and_eq_true,decide_eq_true_iff] at hprop
      obtain ⟨i,hi⟩ := List.mem_iff_getElem?.mp he
      obtain ⟨j,hj⟩ := List.mem_iff_getElem?.mp (List.mem_of_find?_eq_some hfind)
      have hij := h.nodup j i d e hj hi hprop.1 hreal hprop.2.1 hprop.2.2
      rw [hij,hi] at hj
      cases hj
      rfl

theorem content_ext {t' : List IPRoute} {m : IPAddress × IPAddress → Option (IPAddress × ℤ)} (h : Sound t')
    (hm : ∀ k hop, m k = some hop ↔ ∃ e ∈ t', e.real = true ∧ (e.addr,e.mask) = k ∧ (e.gw,e.port) = hop) :
    content t' = m := by
  funext k
  apply Option.ext
  intro hop
  rw [h.content_eq_some,hm]

theorem content_insertAt {r : IPRoute} (h : Sound t) (hr : r.WellFormed)
    (hfresh : ∀ e ∈ t, e.real = true → r.samePrefix e = false) :
    content (insertAt t r (freeSlot t)) = Function.update (content t) (r.addr,r.mask) (some (r.gw,r.port)) := by
  have hle := freeSlot_le t
  have hold : content t (r.addr,r.mask) = none := by
    cases hc : content t (r.addr,r.mask) with
    | none => rfl
    | some hop =>
      obtain ⟨e,he,hreal,hkey,-⟩ := h.content_eq_some.mp hc
      have hno := hfresh e he hreal
      obtain ⟨haddr,hmask⟩ := Prod.mk.inj hkey
      simp [IPRoute.samePrefix,haddr,hmask] at hno
  apply content_ext (h.insertAt hr hfresh)
  intro k hop
  by_cases hk : k = (r.addr,r.mask)
  · rw [hk,Function.update_self]
    constructor
    · intro hhop
      refine ⟨{ r with extra := nextPointer t r (freeSlot t) },?_,hr.real,rfl,Option.some.inj hhop⟩
      apply List.mem_iff_getElem?.mpr
      refine ⟨freeSlot t,?_⟩
      rw [getElem?_insertAt hle,if_neg (lt_irrefl _),if_pos rfl]
    · rintro ⟨e,he,hreal,hkey,rfl⟩
      obtain ⟨i,hi⟩ := List.mem_iff_getElem?.mp he
      rcases insertAt_cases hle hi with ⟨-,rfl⟩ | ⟨-,d,hd,hsame,-⟩
      · rfl
      · have hfind := h.content_eq_some.mpr
          ⟨d,List.mem_of_getElem? hd,hsame.real.symm.trans hreal,by rw [← hsame.1,← hsame.2.1,hkey],rfl⟩
        rw [hold] at hfind
        cases hfind
  · rw [Function.update_of_ne hk,h.content_eq_some]
    constructor
    · rintro ⟨e,he,hreal,hkey,rfl⟩
      obtain ⟨i,hi⟩ := List.mem_iff_getElem?.mp he
      have hne : i ≠ freeSlot t := by
        rintro rfl
        rw [dead_freeSlot hi] at hreal
        cases hreal
      by_cases hlow : i < freeSlot t
      · have hnew : (insertAt t r (freeSlot t))[i]? = some (patched r (freeSlot t) e) := by
          rw [getElem?_insertAt hle,if_pos hlow,hi,Option.map_some]
        obtain ⟨⟨haddr,hmask,hgw,hport⟩,-⟩ := patched_spec r (freeSlot t) e
        refine ⟨_,List.mem_of_getElem? hnew,?_,by rw [haddr,hmask,hkey],by rw [hgw,hport]⟩
        rw [IPRoute.real,hport]
        exact hreal
      · have hnew : (insertAt t r (freeSlot t))[i]? = some e := by
          rw [getElem?_insertAt hle,if_neg hlow,if_neg hne,hi]
        exact ⟨e,List.mem_of_getElem? hnew,hreal,hkey,rfl⟩
    · rintro ⟨e,he,hreal,hkey,rfl⟩
      obtain ⟨i,hi⟩ := List.mem_iff_getElem?.mp he
      rcases insertAt_cases hle hi with ⟨-,rfl⟩ | ⟨-,d,hd,hsame,-⟩
      · exact absurd hkey.symm hk
      · obtain ⟨haddr,hmask,hgw,hport⟩ := hsame
        refine ⟨d,List.mem_of_getElem? hd,?_,by rw [← haddr,← hmask,hkey],by rw [hgw,hport]⟩
        rw [IPRoute.real,← hport]
        exact hreal

theorem mem_modify_of_ne {f : IPRoute → IPRoute} {n i : ℕ} {d : IPRoute} (hi : t[i]? = some d) (hne : ¬n = i) :
    d ∈ t.modify n f := by
  apply List.mem_iff_getElem?.mpr
  refine ⟨i,?_⟩
  rw [List.getElem?_modify,hi]
  simp [hne]

/-- A real entry that is modified under its prefix changes the next hop of this prefix only. -/
theorem content_modify {f : IPRoute → IPRoute} {n : ℕ} {e : IPRoute} (h : Sound t) (h' : Sound (t.modify n f))
    (he : t[n]? = some e) (hreal : e.real = true)
    (hkey : (f e).real = true → ((f e).addr,(f e).mask) = (e.addr,e.mask)) :
    content (t.modify n f) = Function.update (content t) (e.addr,e.mask)
      (if (f e).real then some ((f e).gw,(f e).port) else none) := by
  have hself : ∀ d, t[n]? = some d → d = e := fun d hd => Option.some.inj (hd.symm.trans he)
  have hnew : (t.modify n f)[n]? = some (f e) := by
    rw [List.getElem?_modify,he]
    simp
  apply content_ext h'
  intro k hop
  by_cases hk : k = (e.addr,e.mask)
  · rw [hk,Function.update_self]
    constructor
    · intro hhop
      split_ifs at hhop with hlive
      exact ⟨f e,List.mem_of_getElem? hnew,hlive,hkey hlive,Option.some.inj hhop⟩
    · rintro ⟨d,hd,hr,hdkey,rfl⟩
      obtain ⟨i,hi⟩ := List.mem_iff_getElem?.mp hd
      rcases modify_cases hi with ⟨rfl,c,hc,rfl⟩ | ⟨hne,hi⟩
      · rw [hself c hc] at hr ⊢
        rw [if_pos hr]
      · obtain ⟨haddr,hmask⟩ := Prod.mk.inj hdkey
        exact absurd (h.nodup i n d e hi he hr hreal haddr hmask) hne
  · rw [Function.update_of_ne hk,h.content_eq_some]
    constructor
    · rintro ⟨d,hd,hr,hdkey,hhop⟩
      obtain ⟨i,hi⟩ := List.mem_iff_getElem?.mp hd
      refine ⟨d,mem_modify_of_ne hi ?_,hr,hdkey,hhop⟩
      rintro rfl
      rw [hself d hi] at hdkey
      exact hk hdkey.symm
    · rintro ⟨d,hd,hr,hdkey,hhop⟩
      obtain ⟨i,hi⟩ := List.mem_iff_getElem?.mp hd
      rcases modify_cases hi with ⟨rfl,c,hc,rfl⟩ | ⟨-,hi⟩
      · rw [hself c hc] at hr hdkey
        exact absurd (hdkey.symm.trans (hkey hr)) hk
      · exact ⟨d,List.mem_of_getElem? hi,hr,hdkey,hhop⟩

theorem content_kill {n : ℕ} {e : IPRoute} (h : Sound t) (he : t[n]? = some e) (hreal : e.real = true) :
    content (t.modify n IPRoute.kill) = Function.update (content t) (e.addr,e.mask) none := by
  have hdead := e.real_kill
  rw [content_modify h (h.kill n) he hreal (fun hr => by rw [hdead] at hr; cases hr),hdead]
  rfl

theorem content_kill_dead {n : ℕ} {e : IPRoute} (h : Sound t) (he : t[n]? = some e) (hdead : e.real = false) :
    content (t.modify n IPRoute.kill) = content t := by
  apply content_ext (h.kill n)
  intro k hop
  rw [h.content_eq_some]
  constructor
  · rintro ⟨d,hd,hr,hkey,hhop⟩
    obtain ⟨i,hi⟩ := List.mem_iff_getElem?.mp hd
    refine ⟨d,mem_modify_of_ne hi ?_,hr,hkey,hhop⟩
    rintro rfl
    rw [he] at hi
    cases hi
    rw [hdead] at hr
    cases hr
  · rintro ⟨d,hd,hr,hkey,hhop⟩
    obtain ⟨i,hi⟩ := List.mem_iff_getElem?.mp hd
    rcases modify_cases hi with ⟨-,c,-,rfl⟩ | ⟨-,hi⟩
    · rw [IPRoute.real_kill] at hr
      cases hr
    · exact ⟨d,List.mem_of_getElem? hi,hr,hkey,hhop⟩

theorem content_replace {n : ℕ} {e : IPRoute} {gw : IPAddress} {port : ℤ} (h : Sound t) (he : t[n]? = some e)
    (hreal : e.real = true) (hport : 0 ≤ port) :
    content (t.modify n fun e => { e with gw := gw, port := port }) =
      Function.update (content t) (e.addr,e.mask) (some (gw,port)) := by
  have hn : ∀ d, t[n]? = some d → d.real = true := by
    intro d hd
    rw [he] at hd
    cases hd
    exact hreal
  have hlive : ({ e with gw := gw, port := port } : IPRoute).real = true := by
    rw [IPRoute.real,decide_eq_true_iff]
    change -2147483648 < port
    omega
  rw [content_modify h (h.replace n hport hn) he hreal (fun _ => rfl),hlive]
  rfl

end Content

end LinearIPLookup
end ClickMobileIP
