import ClickMobileIP.Agent.HomeBindings

/-! # Expiry of a binding

A binding is followed through an arbitrary run that contains no further request for
its home address. Other requests and other expiries do not touch it, so its lifetime
is the requested one, in network byte order, aged by the number of timer ticks.
-/
namespace ClickMobileIP.HomeAgent
open EventRun RegistrationRequestReply

def Event.isTick : Event → Bool
  | .push _ _ => false
  | .runTimer => true

def Event.Concerns (node : IPAddress) : Event → Prop
  | .push _ p => p.IsRequest ∧ p.request.homeAddr = node
  | .runTimer => False

def ticks (es : List Event) : ℕ := es.countP Event.isTick

theorem ticks_cons (e : Event) (es : List Event) :
    ticks (e :: es) = ticks es + if e.isTick then 1 else 0 := List.countP_cons

theorem ticks_replicate (n : ℕ) : ticks (List.replicate n .runTimer) = n := by
  unfold ticks
  rw [List.countP_replicate]
  rfl

theorem step_table {s t : AgentBase} {e : Event} {out : List Emission} {node : IPAddress}
    (hs : Consistent s) (he : ¬e.Concerns node) (h : step s e = some (t,out)) :
    t.table node = if e.isTick then (s.table node).bind expire else s.table node := by
  cases e with
  | push alloc p =>
    simp only [Event.isTick,Bool.false_eq_true,↓reduceIte]
    cases pushed_of_push h with
    | ignored _ => rfl
    | bound hp _ _ _ _ _ =>
      have hne : node ≠ p.request.homeAddr := fun hn => he ⟨hp,hn.symm⟩
      rw [bind_table,if_neg hne]
    | unbound hp _ _ _ _ _ =>
      have hne : node ≠ p.request.homeAddr := fun hn => he ⟨hp,hn.symm⟩
      rw [unbind_table,if_neg hne]
  | runTimer =>
    have h' : runTimer s = some (t,out) := h
    rw [runTimer_eq hs] at h'
    cases h'
    rfl

/-- The entry of `node` after `n` ticks: it is gone once a one-byte lifetime has run
out, and otherwise only its lifetime has changed. -/
def CountedDown (node : IPAddress) (entry : HARegistrationEntry) (L n : ℕ) (s : AgentBase) : Prop :=
  s.table node =
    if L < 256 ∧ L ≤ n then none else some { entry with lifetime := aged n entry.lifetime }

theorem CountedDown.tick {node : IPAddress} {entry : HARegistrationEntry} {L : UInt16} {n : ℕ}
    {s t : AgentBase} (hpos : 0 < L.toNat) (hentry : entry.lifetime = htons L)
    (hs : CountedDown node entry L.toNat n s) (ht : t.table node = (s.table node).bind expire) :
    CountedDown node entry L.toNat (n + 1) t := by
  unfold CountedDown at hs ⊢
  rw [ht,hs]
  by_cases hgone : L.toNat < 256 ∧ L.toNat ≤ n
  · have hlater : L.toNat < 256 ∧ L.toNat ≤ n + 1 := ⟨hgone.1,by omega⟩
    rw [if_pos hgone,if_pos hlater]
    rfl
  · rw [if_neg hgone]
    have hzero : tickDown (aged n entry.lifetime) = 0 ↔ L.toNat < 256 ∧ L.toNat ≤ n + 1 := by
      rw [← aged_succ,hentry,aged_htons_eq_zero]
      constructor
      · rintro ⟨hlt,hmod⟩
        exact ⟨hlt,by omega⟩
      · rintro ⟨hlt,hle⟩
        have heq : n + 1 = L.toNat := by
          by_contra hne
          exact hgone ⟨hlt,by omega⟩
        exact ⟨hlt,by omega⟩
    by_cases hnow : L.toNat < 256 ∧ L.toNat ≤ n + 1
    · rw [if_pos hnow]
      simp only [Option.bind_some,expire,hzero.mpr hnow,↓reduceIte]
    · have hne : tickDown (aged n entry.lifetime) ≠ 0 := fun h => hnow (hzero.mp h)
      rw [if_neg hnow]
      simp only [Option.bind_some,expire,hne,↓reduceIte,aged_succ]

theorem countedDown_run (node : IPAddress) (entry : HARegistrationEntry) (L : UInt16)
    (hpos : 0 < L.toNat) (hentry : entry.lifetime = htons L) (es : List Event)
    (hes : ∀ e ∈ es, ¬e.Concerns node) (n : ℕ) (s : AgentBase) (hs : Consistent s)
    (hn : CountedDown node entry L.toNat n s) :
    ∃ t out, run step s es = some (t,out) ∧ Consistent t ∧
      CountedDown node entry L.toNat (n + ticks es) t := by
  induction es generalizing n s with
  | nil => exact ⟨s,[],rfl,hs,hn⟩
  | cons e es ih =>
    obtain ⟨t,o,he,ht⟩ := step_total e hs
    have htable := step_table hs (hes e List.mem_cons_self) he
    have hrest : ∀ e' ∈ es, ¬e'.Concerns node := fun e' h => hes e' (List.mem_cons_of_mem _ h)
    cases htick : e.isTick with
    | false =>
      have hn' : CountedDown node entry L.toNat n t := by
        unfold CountedDown at hn ⊢
        rw [htable,htick,← hn]
        rfl
      obtain ⟨u,o',hr,hu,hcount⟩ := ih hrest n t ht hn'
      refine ⟨u,o ++ o',run_cons_eq_some.mpr ⟨t,o,o',he,hr,rfl⟩,hu,?_⟩
      rw [ticks_cons,htick]
      simpa using hcount
    | true =>
      have hn' : CountedDown node entry L.toNat (n + 1) t := by
        apply hn.tick hpos hentry
        rw [htable,htick]
        rfl
      obtain ⟨u,o',hr,hu,hcount⟩ := ih hrest (n + 1) t ht hn'
      refine ⟨u,o ++ o',run_cons_eq_some.mpr ⟨t,o,o',he,hr,rfl⟩,hu,?_⟩
      rw [ticks_cons,htick]
      simpa [Nat.add_assoc,Nat.add_comm 1] using hcount

/-- The binding that a request asks for is in both containers. -/
def Bound (s : AgentBase) (format : RegistrationRequestPacketheader) : Prop :=
  format.homeAddr ∈ s.list ∧ ∃ entry, s.table format.homeAddr = some entry ∧
    entry.mobileNodeCoa = format.coAddr ∧ entry.id1 = format.id1 ∧ entry.id2 = format.id2

def Unbound (s : AgentBase) (node : IPAddress) : Prop := node ∉ s.list ∧ s.table node = none

/-- The binding of `p` lasts for its lifetime and no longer, in every run that brings
no other request for the node. -/
def ExpiresOnTime (s : AgentBase) (p : Packet) : Prop :=
  ∀ es : List Event, (∀ e ∈ es, ¬e.Concerns p.request.homeAddr) →
    ∃ t out, run step s (.push true p :: es) = some (t,out) ∧
      (ticks es < (ntohs p.request.lifetime).toNat → Bound t p.request) ∧
      ((ntohs p.request.lifetime).toNat ≤ ticks es → Unbound t p.request.homeAddr)

/-- After an accepted request the node is bound exactly until a one-byte lifetime has
run out. -/
theorem bound_after {s : AgentBase} {p : Packet} (hs : Consistent s) (hp : p.IsRequest)
    (hcode : validatePacket s p = 0) (hlife : p.request.lifetime ≠ 0) (es : List Event)
    (hes : ∀ e ∈ es, ¬e.Concerns p.request.homeAddr) :
    ∃ t out, run step s (.push true p :: es) = some (t,out) ∧
      if (ntohs p.request.lifetime).toNat < 256 ∧ (ntohs p.request.lifetime).toNat ≤ ticks es then
        Unbound t p.request.homeAddr
      else Bound t p.request := by
  have hpos : 0 < (ntohs p.request.lifetime).toNat := by
    rw [Nat.pos_iff_ne_zero]
    intro h
    have hzero : ntohs p.request.lifetime = 0 := UInt16.toNat_inj.mp h
    exact hlife (htons_eq_zero.mp hzero)
  obtain ⟨t,o,hpush,hpushed⟩ := push_pushed true s p
  have ht : t = bind s p.request := by
    cases hpushed with
    | ignored h => exact absurd hcode (h hp rfl)
    | bound _ _ _ _ _ _ => rfl
    | unbound _ _ _ hl _ _ => exact absurd hl hlife
  subst ht
  let entry : HARegistrationEntry :=
    ⟨p.request.homeAddr,p.request.coAddr,p.request.lifetime,p.request.id1,p.request.id2⟩
  have hstart : CountedDown p.request.homeAddr entry (ntohs p.request.lifetime).toNat 0
      (bind s p.request) := by
    unfold CountedDown
    rw [bind_table,if_pos rfl,if_neg (by omega),aged_zero]
  have hentry : entry.lifetime = htons (ntohs p.request.lifetime) := (htons_ntohs _).symm
  obtain ⟨t,o',hrun,ht,hcount⟩ := countedDown_run p.request.homeAddr entry (ntohs p.request.lifetime)
    hpos hentry es hes 0 _ (consistent_push hs hpush) hstart
  refine ⟨t,o ++ o',run_cons_eq_some.mpr ⟨_,o,o',hpush,hrun,rfl⟩,?_⟩
  unfold CountedDown at hcount
  rw [Nat.zero_add] at hcount
  split
  · rename_i h
    rw [if_pos h] at hcount
    refine ⟨fun hm => ?_,hcount⟩
    obtain ⟨entry,he⟩ := (ht.mem_list _).mp hm
    rw [hcount] at he
    cases he
  · rename_i h
    rw [if_neg h] at hcount
    exact ⟨(ht.mem_list _).mpr ⟨_,hcount⟩,_,hcount,rfl,rfl,rfl⟩

/-- From every reachable state, an accepted request is honoured for exactly its
lifetime if and only if the lifetime is at most 255 seconds. -/
theorem expiresOnTime_iff {s : AgentBase} (hs : Reachable s) {p : Packet} (hp : p.IsRequest)
    (hcode : validatePacket s p = 0) (hlife : p.request.lifetime ≠ 0) :
    ExpiresOnTime s p ↔ (ntohs p.request.lifetime).toNat ≤ 255 := by
  constructor
  · intro h
    by_contra hbig
    obtain ⟨t,out,hr,-,hgone⟩ := h (List.replicate (ntohs p.request.lifetime).toNat .runTimer)
      (fun e he => by rw [(List.mem_replicate.mp he).2]; exact id)
    obtain ⟨t',out',hr',hbound⟩ := bound_after hs.consistent hp hcode hlife
      (List.replicate (ntohs p.request.lifetime).toNat .runTimer)
      (fun e he => by rw [(List.mem_replicate.mp he).2]; exact id)
    rw [hr] at hr'
    cases hr'
    rw [if_neg (by omega)] at hbound
    exact (hgone (ticks_replicate _).ge).1 hbound.1
  · intro hsmall es hes
    obtain ⟨t,out,hr,hbound⟩ := bound_after hs.consistent hp hcode hlife es hes
    refine ⟨t,out,hr,?_,?_⟩
    · intro h
      rwa [if_neg (by omega)] at hbound
    · intro h
      rwa [if_pos (by omega)] at hbound

def sampleRequest (lifetime : UInt16) : Packet where
  data := udpPacket { ipV := 4, ipHl := 5, ipLen := htons 52, ipP := 17, ipSrc := 7, ipDst := 1 }
    { uhSport := htons 1001, uhDport := htons 434, uhUlen := htons 32 }
    (RegistrationRequestPacketheader.layout.write
      { type := 1, lifetime := htons lifetime, homeAddr := 9, homeAgent := 1, coAddr := 7, id1 := 3, id2 := 4 })
    32

theorem reachable_configure (publicAddr privateAddr : IPAddress) (lifetimeReg : ℤ) :
    Reachable (AgentBase.configure publicAddr privateAddr lifetimeReg) :=
  ⟨publicAddr,privateAddr,lifetimeReg,[],[],rfl⟩

theorem expiresOnTime_sample : ExpiresOnTime (AgentBase.configure 1 2 25) (sampleRequest 25) :=
  (expiresOnTime_iff (reachable_configure 1 2 25) (by decide +kernel) (by decide +kernel)
    (by decide +kernel)).mpr (by decide +kernel)

/-- A lifetime of 256 seconds is stored with a zero high byte and never runs out. -/
theorem binding_of_256_seconds_stays :
    ¬ExpiresOnTime (AgentBase.configure 1 2 256) (sampleRequest 256) := by
  intro h
  have hticks : ∀ e ∈ List.replicate 256 Event.runTimer, ¬e.Concerns (sampleRequest 256).request.homeAddr :=
    fun e he => by rw [(List.mem_replicate.mp he).2]; exact id
  have hL : (ntohs (sampleRequest 256).request.lifetime).toNat = 256 := by decide +kernel
  obtain ⟨t,out,hr,-,hgone⟩ := h _ hticks
  obtain ⟨t',out',hr',hbound⟩ := bound_after (consistent_configure 1 2 256) (by decide +kernel)
    (by decide +kernel) (by decide +kernel) _ hticks
  rw [hr] at hr'
  cases hr'
  rw [if_neg (by rw [hL]; omega)] at hbound
  exact (hgone (by rw [hL,ticks_replicate])).1 hbound.1

end ClickMobileIP.HomeAgent
