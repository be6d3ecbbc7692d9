import ClickMobileIP.Agent.Forwarding
import ClickMobileIP.Agent.RegistrationRequestReply
import ClickMobileIP.Support.EventRun
import Mathlib.Data.List.Nodup

/-! # Bindings of the home agent

`table` and `list` are updated by three pieces of code. `Consistent` is the
relation between them; under it the timer loop is a pointwise map over the table,
and both steps of the element keep it.
-/
namespace ClickMobileIP.HomeAgent
open EraseSweep EventRun RegistrationRequestReply

structure Consistent (s : AgentBase) : Prop where
  nodup : s.list.Nodup
  mem_list : ∀ addr, addr ∈ s.list ↔ ∃ entry, s.table addr = some entry
  key : ∀ addr entry, s.table addr = some entry → entry.mobileNodeHomadress = addr
  alive : ∀ addr entry, s.table addr = some entry → entry.lifetime ≠ 0

/-- One second in the life of a binding. -/
def expire (entry : HARegistrationEntry) : Option HARegistrationEntry :=
  if tickDown entry.lifetime = 0 then none
  else some { entry with lifetime := tickDown entry.lifetime }

/-- The abstract timer: every binding ages on its own. -/
def expireTable (table : RegistrationTable) : RegistrationTable := fun addr => (table addr).bind expire

theorem expire_eq_some {entry entry' : HARegistrationEntry} (h : expire entry = some entry') :
    entry'.lifetime ≠ 0 ∧ entry' = { entry with lifetime := tickDown entry.lifetime } := by
  unfold expire at h
  split at h
  · cases h
  · rename_i hne
    cases h
    exact ⟨hne,rfl⟩

theorem expireVisit_eq {table : RegistrationTable} {addr : IPAddress} {entry : HARegistrationEntry}
    (h : table addr = some entry) : expireVisit table addr =
      some (Function.update table addr (expire entry),(expire entry).map (fun _ => addr)) := by
  have hf : table.findPair addr = some entry := h
  simp only [expireVisit,hf,expire]
  split
  · simp [HashMap.erase,HashMap.insert]
  · simp [HashMap.insert]

/-- Without duplicates the loop ages each listed binding once and forgets the
addresses whose binding is gone. -/
theorem sweep_expireVisit (table : RegistrationTable) (v : List IPAddress) (hv : v.Nodup)
    (hmem : ∀ addr ∈ v, ∃ entry, table addr = some entry) :
    sweep expireVisit table v =
      some (fun addr => if addr ∈ v then expireTable table addr else table addr,
        v.filter (fun addr => (expireTable table addr).isSome)) := by
  induction v generalizing table with
  | nil => simp [sweep]
  | cons a v ih =>
    obtain ⟨ha,hnd⟩ := List.nodup_cons.mp hv
    obtain ⟨entry,he⟩ := hmem a List.mem_cons_self
    have hother : ∀ b, b ≠ a → Function.update table a (expire entry) b = table b :=
      fun b hb => Function.update_of_ne hb _ _
    have hrest : ∀ b ∈ v, ∃ e, Function.update table a (expire entry) b = some e := by
      intro b hb
      rw [hother b (fun h => ha (h ▸ hb))]
      exact hmem b (List.mem_cons_of_mem _ hb)
    have hhead : expireTable table a = expire entry := by simp [expireTable,he]
    have htail : ∀ b ∈ v, expireTable (Function.update table a (expire entry)) b = expireTable table b := by
      intro b hb
      simp only [expireTable,hother b (fun h => ha (h ▸ hb))]
    rw [sweep,expireVisit_eq he]
    simp only [ih _ hnd hrest,Option.map_some,Option.some.injEq,Prod.mk.injEq]
    constructor
    · funext b
      by_cases hb : b = a
      · subst hb
        simp [ha,hhead]
      · by_cases hbv : b ∈ v
        · simp [hb,hbv,htail b hbv]
        · simp [hb,hbv]
    · have hfilter : v.filter (fun b =>
          (expireTable (Function.update table a (expire entry)) b).isSome) =
          v.filter (fun b => (expireTable table b).isSome) :=
        List.filter_congr (fun b hb => by rw [htail b hb])
      rw [hfilter]
      cases hx : expire entry with
      | none => simp [hhead,hx]
      | some entry' => simp [hhead,hx]

/-- The timer element on a consistent base. -/
theorem runTimer_eq {s : AgentBase} (hs : Consistent s) :
    runTimer s = some ({ s with
      table := expireTable s.table
      list := s.list.filter (fun addr => (expireTable s.table addr).isSome) },[]) := by
  have htable : (fun addr => if addr ∈ s.list then expireTable s.table addr else s.table addr) =
      expireTable s.table := by
    funext addr
    by_cases h : addr ∈ s.list
    · simp [h]
    · have hnone : s.table addr = none := by
        cases ht : s.table addr with
        | none => rfl
        | some entry => exact absurd ((hs.mem_list addr).mpr ⟨entry,ht⟩) h
      simp [h,expireTable,hnone]
  rw [runTimer,sweepForward_eq,sweep_expireVisit _ _ hs.nodup (fun a ha => (hs.mem_list a).mp ha)]
  simp only [Option.map_some,htable]

theorem consistent_runTimer {s t : AgentBase} {out : List Emission} (hs : Consistent s)
    (h : RegistrationRequestReply.runTimer s = some (t,out)) : Consistent t := by
  rw [runTimer_eq hs] at h
  cases h
  have hsome : ∀ addr entry, expireTable s.table addr = some entry →
      ∃ old, s.table addr = some old ∧ expire old = some entry := fun addr entry h =>
    Option.bind_eq_some_iff.mp h
  constructor
  · exact hs.nodup.filter _
  · intro addr
    dsimp only
    rw [List.mem_filter,Option.isSome_iff_exists]
    constructor
    · exact fun h => h.2
    · rintro ⟨entry,he⟩
      obtain ⟨old,hold,-⟩ := hsome addr entry he
      exact ⟨(hs.mem_list addr).mpr ⟨old,hold⟩,entry,he⟩
  · intro addr entry he
    obtain ⟨old,hold,hx⟩ := hsome addr entry he
    rw [(expire_eq_some hx).2]
    exact hs.key addr old hold
  · intro addr entry he
    obtain ⟨old,-,hx⟩ := hsome addr entry he
    exact (expire_eq_some hx).1

theorem consistent_bind {s : AgentBase} (hs : Consistent s)
    (format : RegistrationRequestPacketheader) (hl : format.lifetime ≠ 0) :
    Consistent (bind s format) := by
  constructor
  · rw [bind_list]
    split
    · exact hs.nodup
    · rename_i h
      rw [List.nodup_append]
      refine ⟨hs.nodup,List.nodup_singleton _,?_⟩
      intro a ha b hb
      rw [List.mem_singleton.mp hb]
      exact fun hab => h (hab ▸ ha)
  · intro addr
    rw [mem_bind_list,bind_table]
    by_cases h : addr = format.homeAddr
    · simp [h]
    · simp [h,hs.mem_list]
  · intro addr entry he
    rw [bind_table] at he
    split at he
    · rename_i h
      cases he
      exact h.symm
    · exact hs.key addr entry he
  · intro addr entry he
    rw [bind_table] at he
    split at he
    · cases he
      exact hl
    · exact hs.alive addr entry he

theorem consistent_unbind {s : AgentBase} (hs : Consistent s)
    (format : RegistrationRequestPacketheader) : Consistent (unbind s format) := by
  constructor
  · unfold unbind
    split
    · exact hs.nodup.erase _
    · exact hs.nodup
  · intro addr
    rw [unbind_table]
    by_cases hb : s.isHome format.homeAddr = false
    · simp only [unbind,hb,↓reduceIte]
      rw [hs.nodup.mem_erase_iff]
      by_cases h : addr = format.homeAddr
      · simp [h]
      · simp [h,hs.mem_list]
    · rw [unbind,if_neg hb,hs.mem_list]
      by_cases h : addr = format.homeAddr
      · subst h
        simp only [↓reduceIte,reduceCtorEq,exists_false,iff_false]
        exact fun he => hb (AgentBase.isHome_eq_false.mpr he)
      · simp [h]
  · intro addr entry he
    rw [unbind_table] at he
    split at he
    · cases he
    · exact hs.key addr entry he
  · intro addr entry he
    rw [unbind_table] at he
    split at he
    · cases he
    · exact hs.alive addr entry he

theorem consistent_push {alloc : Bool} {s t : AgentBase} {p : Packet} {out : List Emission}
    (hs : Consistent s) (h : RegistrationRequestReply.push alloc s p = some (t,out)) :
    Consistent t := by
  cases pushed_of_push h with
  | ignored _ => exact hs
  | bound _ _ _ hl _ _ => exact consistent_bind hs p.request hl
  | unbound _ _ _ _ _ _ => exact consistent_unbind hs p.request

theorem consistent_configure (publicAddr privateAddr : IPAddress) (lifetimeReg : ℤ) :
    Consistent (AgentBase.configure publicAddr privateAddr lifetimeReg) := by
  constructor <;> simp [AgentBase.configure]

inductive Event
  | push (alloc : Bool) (p : Packet)
  | runTimer

def step (s : AgentBase) : Event → Option (AgentBase × List Emission)
  | .push alloc p => RegistrationRequestReply.push alloc s p
  | .runTimer => RegistrationRequestReply.runTimer s

theorem step_total {s : AgentBase} (e : Event) (hs : Consistent s) :
    ∃ t out, step s e = some (t,out) ∧ Consistent t := by
  cases e with
  | push alloc p =>
    obtain ⟨t,out,h,-⟩ := push_pushed alloc s p
    exact ⟨t,out,h,consistent_push hs h⟩
  | runTimer => exact ⟨_,_,runTimer_eq hs,consistent_runTimer hs (runTimer_eq hs)⟩

def Reachable (s : AgentBase) : Prop :=
  ∃ publicAddr privateAddr lifetimeReg es out,
    run step (AgentBase.configure publicAddr privateAddr lifetimeReg) es = some (s,out)

theorem Reachable.consistent {s : AgentBase} (h : Reachable s) : Consistent s := by
  obtain ⟨publicAddr,privateAddr,lifetimeReg,es,out,hr⟩ := h
  refine run_preserves ?_ (consistent_configure publicAddr privateAddr lifetimeReg) hr
  intro s e t out hs he
  obtain ⟨t',out',he',ht⟩ := step_total e hs
  rw [he] at he'
  cases he'
  exact ht

/-- Every run from a fresh agent completes, whatever packets arrive and however the
timer is interleaved. In the state it ends in, the list has no duplicates and lists
exactly the keys of the table, every entry sits under its own home address with a
lifetime left, and the next timer tick, the next request and every lookup of a care-of
address find the entries they dereference. -/
theorem every_run_consistent (publicAddr privateAddr : IPAddress) (lifetimeReg : ℤ)
    (es : List Event) :
    ∃ s out, run step (AgentBase.configure publicAddr privateAddr lifetimeReg) es = some (s,out) ∧
      s.list.Nodup ∧
      (∀ addr, addr ∈ s.list ↔ ∃ entry, s.table addr = some entry) ∧
      (∀ addr entry, s.table addr = some entry → entry.mobileNodeHomadress = addr) ∧
      (∀ addr entry, s.table addr = some entry → entry.lifetime ≠ 0) ∧
      runTimer s ≠ none ∧
      (∀ alloc p, push alloc s p ≠ none) ∧
      (∀ addr, s.isHome addr = false → IpEncapsulation.getDesitination s addr ≠ none) := by
  obtain ⟨s,out,hr,hs⟩ := run_total (fun s e hs => step_total e hs)
    (consistent_configure publicAddr privateAddr lifetimeReg) es
  refine ⟨s,out,hr,hs.nodup,hs.mem_list,hs.key,hs.alive,?_,?_,?_⟩
  · rw [runTimer_eq hs]
    exact Option.some_ne_none _
  · intro alloc p
    obtain ⟨t,o,h,-⟩ := push_pushed alloc s p
    rw [h]
    exact Option.some_ne_none _
  · intro addr haddr
    obtain ⟨entry,-,h⟩ := IpEncapsulation.getDesitination_isSome haddr
    rw [h]
    exact Option.some_ne_none _

end ClickMobileIP.HomeAgent
