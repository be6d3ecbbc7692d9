import ClickMobileIP.Node.AdvertisementsHandler
import ClickMobileIP.Support.EventRun

/-! # The agents a mobile node knows

The entry of an agent is refreshed only by an advertisement whose sequence number has
started again. The results say exactly when one advertisement leaves an entry with
its values, and that an agent whose advertisements do so in time is never forgotten.
-/
namespace ClickMobileIP.AdvertisementsHandler
open EraseSweep RegistrationRequestSource

section Lists
variable {a : Advertisement}

/-- What the loop writes back for one known agent. -/
def touch (a it : Advertisement) : Advertisement :=
  if sameAgent a it ∧ restarted a it then
    { it with lifetime := a.lifetime, regLifetime := a.regLifetime, sequenceNum := a.sequenceNum }
  else it

def ofAgent (privateAddr coa : IPAddress) (it : Advertisement) : Bool :=
  it.privateAddr == privateAddr && it.coa == coa

theorem ofAgent_touch (privateAddr coa : IPAddress) (a it : Advertisement) :
    ofAgent privateAddr coa (touch a it) = ofAgent privateAddr coa it := by
  unfold touch
  split <;> rfl

theorem refresh_eq (draws : ℕ → Draw) (a : Advertisement) (x : Activation) (known : List Advertisement) :
    (refresh draws a x known).2 = known.map (touch a) := by
  induction known generalizing x with
  | nil => rfl
  | cons it rest ih =>
    rw [refresh]
    by_cases h : sameAgent a it ∧ restarted a it
    · simp only [h,and_self,↓reduceIte,ih,List.map_cons,touch]
    · simp only [h,↓reduceIte,ih,List.map_cons,touch]

@[simp] theorem currentAdvertisements_makePacket (d : Draw) (s : MobileNode) (a : Advertisement) :
    (makePacket d s a).1.currentAdvertisements = s.currentAdvertisements := by
  obtain ⟨coa,addr,time,records,h⟩ := makePacket_frame d s a
  rw [h]

@[simp] theorem connected_makePacket (d : Draw) (s : MobileNode) (a : Advertisement) :
    (makePacket d s a).1.connected = s.connected := by
  obtain ⟨coa,addr,time,records,h⟩ := makePacket_frame d s a
  rw [h]

theorem currentAdvertisements_register (draws : ℕ → Draw) (x : Activation) (a : Advertisement)
    (address : IPAddress) :
    (register draws x a address).node.currentAdvertisements = x.node.currentAdvertisements := by
  have hsend : ∀ y : Activation,
      (y.makePacket draws a).node.currentAdvertisements = y.node.currentAdvertisements :=
    fun y => currentAdvertisements_makePacket _ _ _
  unfold register
  dsimp only
  split_ifs <;> simp only [hsend]

/-- The list of known agents after an advertisement that is neither discarded nor busy
nor from the home network. -/
theorem currentAdvertisements_push {draws : ℕ → Draw} {s : MobileNode} {p : Packet}
    (hdiscard : ¬discarded p) (hbusy : ¬busy p) (haddr : p.advertisement.address ≠ s.homePrivateAddr) :
    (push draws s p).node.currentAdvertisements =
      if s.currentAdvertisements.any (sameAgent (decode p)) then
        s.currentAdvertisements.map (touch (decode p))
      else s.currentAdvertisements ++ [decode p] := by
  have hmap : s.currentAdvertisements.any (sameAgent (decode p)) = false →
      s.currentAdvertisements.map (touch (decode p)) = s.currentAdvertisements := by
    intro hnone
    have hself : ∀ it ∈ s.currentAdvertisements, touch (decode p) it = it := by
      intro it hit
      exact if_neg (fun h => List.any_eq_false.mp hnone it hit h.1)
    rw [List.map_congr_left hself,List.map_id']
  simp only [push,hdiscard,hbusy,haddr,↓reduceIte,ne_eq,not_false_eq_true,currentAdvertisements_register,
    learn,refresh_eq]
  split
  · rfl
  · rename_i h
    rw [hmap (by simpa using h)]

def entriesOf (s : MobileNode) (privateAddr coa : IPAddress) : List Advertisement :=
  s.currentAdvertisements.filter (ofAgent privateAddr coa)

def Shows (it a : Advertisement) : Prop :=
  it.lifetime = a.lifetime ∧ it.regLifetime = a.regLifetime ∧ it.sequenceNum = a.sequenceNum

def Known (s : MobileNode) (a : Advertisement) : Prop :=
  ∃ it, entriesOf s a.privateAddr a.coa = [it] ∧ Shows it a

/-- The agent is new, or has one entry that will be refreshed or already shows the
advertisement. -/
def Refreshable (s : MobileNode) (a : Advertisement) : Prop :=
  entriesOf s a.privateAddr a.coa = [] ∨
    ∃ it, entriesOf s a.privateAddr a.coa = [it] ∧ (restarted a it ∨ Shows it a)

theorem filter_map_touch (privateAddr coa : IPAddress) (a : Advertisement) (known : List Advertisement) :
    (known.map (touch a)).filter (ofAgent privateAddr coa) =
      (known.filter (ofAgent privateAddr coa)).map (touch a) := by
  rw [List.filter_map]
  congr 2
  funext it
  exact ofAgent_touch privateAddr coa a it

theorem shows_touch {it : Advertisement} (hit : sameAgent a it = true) :
    Shows (touch a it) a ↔ restarted a it ∨ Shows it a := by
  unfold touch
  by_cases h : restarted a it
  · simp [hit,h,Shows]
  · simp [hit,h]

theorem entriesOf_push {draws : ℕ → Draw} {s : MobileNode} {p : Packet}
    (hdiscard : ¬discarded p) (hbusy : ¬busy p) (haddr : p.advertisement.address ≠ s.homePrivateAddr) :
    entriesOf (push draws s p).node (decode p).privateAddr (decode p).coa =
      if entriesOf s (decode p).privateAddr (decode p).coa = [] then [decode p]
      else (entriesOf s (decode p).privateAddr (decode p).coa).map (touch (decode p)) := by
  have hany : s.currentAdvertisements.any (sameAgent (decode p)) = false ↔
      entriesOf s (decode p).privateAddr (decode p).coa = [] := by
    rw [List.any_eq_false,entriesOf,List.filter_eq_nil_iff]
    rfl
  rw [entriesOf,currentAdvertisements_push hdiscard hbusy haddr]
  by_cases hempty : entriesOf s (decode p).privateAddr (decode p).coa = []
  · rw [if_pos hempty,hany.mpr hempty,if_neg Bool.false_ne_true,List.filter_append]
    change entriesOf s _ _ ++ _ = _
    rw [hempty]
    simp [ofAgent]
  · have htrue : s.currentAdvertisements.any (sameAgent (decode p)) = true := by
      rw [← Bool.not_eq_false]
      exact fun h => hempty (hany.mp h)
    rw [if_neg hempty,htrue,if_pos rfl,filter_map_touch]
    rfl

theorem known_push_iff (draws : ℕ → Draw) {s : MobileNode} {p : Packet}
    (hdiscard : ¬discarded p) (hbusy : ¬busy p) (haddr : p.advertisement.address ≠ s.homePrivateAddr) :
    Known (push draws s p).node (decode p) ↔ Refreshable s (decode p) := by
  unfold Known Refreshable
  rw [entriesOf_push hdiscard hbusy haddr]
  have hsame : ∀ it ∈ entriesOf s (decode p).privateAddr (decode p).coa, sameAgent (decode p) it = true :=
    fun it hit => (List.mem_filter.mp hit).2
  rcases hentries : entriesOf s (decode p).privateAddr (decode p).coa with _ | ⟨it,rest⟩
  · simp only [↓reduceIte,true_or,iff_true]
    exact ⟨decode p,rfl,rfl,rfl,rfl⟩
  · rw [hentries] at hsame
    have hit := shows_touch (hsame it List.mem_cons_self)
    rw [if_neg (List.cons_ne_nil _ _)]
    constructor
    · rintro ⟨e,he,hshows⟩
      rw [List.map_cons,List.cons_eq_cons,List.map_eq_nil_iff] at he
      obtain ⟨rfl,rfl⟩ := he
      exact Or.inr ⟨it,rfl,hit.mp hshows⟩
    · rintro (hnil | ⟨e,he,hor⟩)
      · cases hnil
      · obtain ⟨rfl,rfl⟩ := List.cons_eq_cons.mp he
        exact ⟨touch (decode p) it,rfl,hit.mpr hor⟩

end Lists

section Timer

def ageAdvertisement (it : Advertisement) : Option Advertisement :=
  if it.lifetime = 0 then none else some { it with lifetime := tickDown it.lifetime }

/-- The host the node is connected to has an entry that ran out. -/
def lostHost (wasConnected : Bool) (host : IPAddress) (known : List Advertisement) : Bool :=
  wasConnected && known.any (fun it => it.lifetime == 0 && it.privateAddr == host)

theorem sweep_advertisementVisit (wasConnected : Bool) (host : IPAddress) (c : Bool × Bool)
    (known : List Advertisement) :
    sweep (advertisementVisit wasConnected host) c known =
      some (if lostHost wasConnected host known then (false,true) else c,known.filterMap ageAdvertisement) := by
  induction known generalizing c with
  | nil => simp [sweep,lostHost]
  | cons it rest ih =>
    rw [sweep,advertisementVisit]
    by_cases hzero : it.lifetime = 0
    · have hage : ageAdvertisement it = none := if_pos hzero
      by_cases hhost : wasConnected = true ∧ it.privateAddr = host
      · have hlost : lostHost wasConnected host (it :: rest) = true := by simp [lostHost,hzero,hhost]
        rw [if_pos hzero,if_pos hhost,hlost,if_pos rfl]
        simp only [ih,ite_self,Option.map_some,List.filterMap_cons,hage,Option.toList_none,List.nil_append]
      · have hlost : lostHost wasConnected host (it :: rest) = lostHost wasConnected host rest := by
          cases wasConnected with
          | false => rfl
          | true =>
            have hother : it.privateAddr ≠ host := fun h => hhost ⟨rfl,h⟩
            simp [lostHost,hother]
        simp only [hzero,hhost,↓reduceIte,ih,Option.map_some,hlost,List.filterMap_cons,hage,
          Option.toList_none,List.nil_append]
    · have hage : ageAdvertisement it = some { it with lifetime := tickDown it.lifetime } := if_neg hzero
      have hlost : lostHost wasConnected host (it :: rest) = lostHost wasConnected host rest := by
        simp [lostHost,beq_false_of_ne hzero]
      simp only [hzero,↓reduceIte,ih,Option.map_some,hlost,List.filterMap_cons,hage,Option.toList_some,
        List.singleton_append]

/-- What the timer does: the entries age, and a node that has lost its host turns to the
first agent that is left. -/
inductive Aged (d : Draw) (s : MobileNode) : MobileNode → List Emission → Prop
  | forgotten (known : List Advertisement) (hknown : known = s.currentAdvertisements.filterMap ageAdvertisement) :
      Aged d s (forget s (s.connected && !lostHost s.connected s.currPrivateAddr s.currentAdvertisements) known) []
  | fellBack (hlost : lostHost s.connected s.currPrivateAddr s.currentAdvertisements = true)
      (it : Advertisement) (rest : List Advertisement)
      (hknown : it :: rest = s.currentAdvertisements.filterMap ageAdvertisement) :
      Aged d s (makePacket d (forget s false (it :: rest)) it).1 (makePacket d (forget s false (it :: rest)) it).2

theorem runTimer_aged (d : Draw) (s : MobileNode) : ∃ t out, runTimer d s = some (t,out) ∧ Aged d s t out := by
  unfold runTimer
  rw [sweepForward_eq,sweep_advertisementVisit]
  cases hlost : lostHost s.connected s.currPrivateAddr s.currentAdvertisements with
  | false =>
    have haged := Aged.forgotten (d := d) (s := s) _ rfl
    rw [hlost,Bool.not_false,Bool.and_true] at haged
    exact ⟨_,_,rfl,haged⟩
  | true =>
    cases hknown : s.currentAdvertisements.filterMap ageAdvertisement with
    | nil =>
      have haged := Aged.forgotten (d := d) (s := s) _ hknown.symm
      rw [hlost,Bool.not_true,Bool.and_false] at haged
      exact ⟨_,_,rfl,haged⟩
    | cons it rest => exact ⟨_,_,rfl,.fellBack hlost it rest hknown.symm⟩

/-- The timer ages the entries one by one and clears `connected` only for a lost host. -/
theorem Aged.spec {d : Draw} {s t : MobileNode} {out : List Emission} (h : Aged d s t out) :
    t.currentAdvertisements = s.currentAdvertisements.filterMap ageAdvertisement ∧
      t.connected = (s.connected && !lostHost s.connected s.currPrivateAddr s.currentAdvertisements) := by
  cases h with
  | forgotten known hknown => exact ⟨hknown,rfl⟩
  | fellBack hlost it rest hknown =>
    rw [currentAdvertisements_makePacket,connected_makePacket,hlost]
    exact ⟨hknown,(Bool.and_false _).symm⟩

theorem entriesOf_filterMap (privateAddr coa : IPAddress) (known : List Advertisement) :
    (known.filterMap ageAdvertisement).filter (ofAgent privateAddr coa) =
      (known.filter (ofAgent privateAddr coa)).filterMap ageAdvertisement := by
  induction known with
  | nil => rfl
  | cons it rest ih =>
    by_cases hzero : it.lifetime = 0
    · have hage : ageAdvertisement it = none := if_pos hzero
      cases hit : ofAgent privateAddr coa it <;> simp [hage,hit,ih]
    · have hage : ageAdvertisement it = some { it with lifetime := tickDown it.lifetime } := if_neg hzero
      have hkey : ofAgent privateAddr coa { it with lifetime := tickDown it.lifetime } =
        ofAgent privateAddr coa it := rfl
      cases hit : ofAgent privateAddr coa it <;> simp [hage,hit,hkey,ih]

end Timer
end ClickMobileIP.AdvertisementsHandler

namespace ClickMobileIP.MobileNode
open EventRun AdvertisementsHandler
open RegistrationRequestSource (accept Ticked2)

/-- The steps of the mobile node: packets that reach its filter or its source, and its
three timers. -/
inductive Event
  | advertisement (draws : ℕ → Draw) (p : Packet)
  | reply (p : Packet)
  | handlerTimer (d : Draw)
  | sourceTimer
  | sourceTimer2 (d : Draw)

def step (s : MobileNode) : Event → Option (MobileNode × List Emission)
  | .advertisement draws p =>
    if AdvFilter.push p = [⟨1,p⟩] then
      some ((AdvertisementsHandler.push draws s p).node,(AdvertisementsHandler.push draws s p).sent)
    else some (s,[])
  | .reply p => some (RegistrationRequestSource.push s p,[])
  | .handlerTimer d => AdvertisementsHandler.runTimer d s
  | .sourceTimer => (RegistrationRequestSource.runTimer s).map (fun t => (t,[]))
  | .sourceTimer2 d =>
    if s.timer2Scheduled then some (RegistrationRequestSource.runTimer2 d s) else some (s,[])

inductive Stepped (s : MobileNode) : Event → MobileNode → List Emission → Prop
  | heard (draws : ℕ → Draw) (p : Packet) (hfilter : AdvFilter.push p = [⟨1,p⟩]) :
      Stepped s (.advertisement draws p) (AdvertisementsHandler.push draws s p).node
        (AdvertisementsHandler.push draws s p).sent
  | unheard (draws : ℕ → Draw) (p : Packet) (hfilter : AdvFilter.push p ≠ [⟨1,p⟩]) :
      Stepped s (.advertisement draws p) s []
  | answered (p : Packet) : Stepped s (.reply p) (RegistrationRequestSource.push s p) []
  | handled (d : Draw) (t : MobileNode) (out : List Emission) (h : Aged d s t out) :
      Stepped s (.handlerTimer d) t out
  | recordsAged : Stepped s .sourceTimer
      { s with currentRequests := s.currentRequests.filterMap RegistrationRequestSource.ageRequest } []
  | ticked2 (d : Draw) (t : MobileNode) (out : List Emission) (h : Ticked2 d s t out) :
      Stepped s (.sourceTimer2 d) t out
  | unscheduled (d : Draw) (h : s.timer2Scheduled = false) : Stepped s (.sourceTimer2 d) s []

theorem step_stepped (s : MobileNode) (e : Event) : ∃ t out, step s e = some (t,out) ∧ Stepped s e t out := by
  cases e with
  | advertisement draws p =>
    by_cases hfilter : AdvFilter.push p = [⟨1,p⟩]
    · exact ⟨_,_,if_pos hfilter,.heard draws p hfilter⟩
    · exact ⟨_,_,if_neg hfilter,.unheard draws p hfilter⟩
  | reply p => exact ⟨_,_,rfl,.answered p⟩
  | handlerTimer d =>
    obtain ⟨t,out,hrun,h⟩ := runTimer_aged d s
    exact ⟨t,out,hrun,.handled d t out h⟩
  | sourceTimer => exact ⟨_,_,by rw [step,RegistrationRequestSource.runTimer_eq,Option.map_some],.recordsAged⟩
  | sourceTimer2 d =>
    cases hscheduled : s.timer2Scheduled with
    | true => exact ⟨_,_,if_pos hscheduled,.ticked2 d _ _ (RegistrationRequestSource.runTimer2_ticked2 d s)⟩
    | false => exact ⟨_,_,if_neg (by simp [hscheduled]),.unscheduled d hscheduled⟩

theorem stepped_of_step {s t : MobileNode} {e : Event} {out : List Emission} (h : step s e = some (t,out)) :
    Stepped s e t out := by
  obtain ⟨t',out',h',hstepped⟩ := step_stepped s e
  rw [h] at h'
  cases h'
  exact hstepped

theorem step_isSome (s : MobileNode) (e : Event) : ∃ t out, step s e = some (t,out) := by
  obtain ⟨t,out,h,-⟩ := step_stepped s e
  exact ⟨t,out,h⟩

def Event.Announces (privateAddr coa : IPAddress) : Event → Prop
  | .advertisement _ p =>
    AdvFilter.push p = [⟨1,p⟩] ∧ (decode p).privateAddr = privateAddr ∧ (decode p).coa = coa
  | _ => False

section Quiet
variable {privateAddr coa : IPAddress} {s t : MobileNode}

theorem currentAdvertisements_source (s : MobileNode) (p : Packet) :
    (RegistrationRequestSource.push s p).currentAdvertisements = s.currentAdvertisements := by
  refine RegistrationRequestSource.push_preserves
    (P := fun t => t.currentAdvertisements = s.currentAdvertisements) ?_ rfl
  intro t it ht
  unfold accept
  split <;> exact ht

theorem currentAdvertisements_ticked2 {d : Draw} {out : List Emission} (h : Ticked2 d s t out) :
    t.currentAdvertisements = s.currentAdvertisements := by
  cases h with
  | lapsed _ => rfl
  | renewed => rw [currentAdvertisements_makePacket]
  | counted _ _ => rfl

theorem filter_eraseP {α : Type} {f g : α → Bool} (hdisjoint : ∀ a, f a = true → g a = false)
    (l : List α) : (l.eraseP g).filter f = l.filter f := by
  induction l with
  | nil => rfl
  | cons a l ih =>
    cases hg : g a with
    | false => rw [List.eraseP_cons_of_neg (by simp [hg]),List.filter_cons,List.filter_cons,ih]
    | true =>
      have hf : f a = false := by
        rw [← Bool.not_eq_true]
        exact fun h => Bool.false_ne_true ((hdisjoint a h).symm.trans hg)
      rw [List.eraseP_cons_of_pos hg,List.filter_cons_of_neg (by simp [hf])]

theorem entriesOf_push_other {p : Packet} (draws : ℕ → Draw)
    (hother : ¬((decode p).privateAddr = privateAddr ∧ (decode p).coa = coa)) :
    entriesOf (AdvertisementsHandler.push draws s p).node privateAddr coa = entriesOf s privateAddr coa := by
  have hdisjoint : ∀ it, ofAgent privateAddr coa it = true → sameAgent (decode p) it = false := by
    intro it hit
    simp only [ofAgent,Bool.and_eq_true,beq_iff_eq] at hit
    rw [← Bool.not_eq_true,sameAgent,Bool.and_eq_true,beq_iff_eq,beq_iff_eq,hit.1,hit.2]
    exact fun h => hother ⟨h.1.symm,h.2.symm⟩
  by_cases hdiscard : discarded p
  · rw [AdvertisementsHandler.push,if_pos hdiscard]
  by_cases hbusy : busy p
  · rw [AdvertisementsHandler.push,if_neg hdiscard,if_pos hbusy]
    exact filter_eraseP hdisjoint s.currentAdvertisements
  by_cases haddr : p.advertisement.address = s.homePrivateAddr
  · simp only [AdvertisementsHandler.push,hdiscard,hbusy,haddr,↓reduceIte,ne_eq,not_true_eq_false,entriesOf,
      currentAdvertisements_register]
  · rw [entriesOf,currentAdvertisements_push hdiscard hbusy haddr]
    split
    · have hself : ∀ it ∈ entriesOf s privateAddr coa, touch (decode p) it = it := by
        intro it hit
        have hfalse := hdisjoint it (List.mem_filter.mp hit).2
        exact if_neg (fun h => Bool.false_ne_true (hfalse.symm.trans h.1))
      rw [filter_map_touch]
      exact (List.map_congr_left hself).trans (List.map_id' _)
    · have hnew : ofAgent privateAddr coa (decode p) = false := by
        rw [← Bool.not_eq_true,ofAgent,Bool.and_eq_true,beq_iff_eq,beq_iff_eq]
        exact hother
      rw [List.filter_append,List.filter_singleton,hnew]
      exact List.append_nil _

theorem step_entriesOf {e : Event} {out : List Emission} (he : ¬e.Announces privateAddr coa)
    (htimer : ∀ d, e ≠ .handlerTimer d) (hstep : step s e = some (t,out)) :
    entriesOf t privateAddr coa = entriesOf s privateAddr coa := by
  cases stepped_of_step hstep with
  | heard draws p hfilter => exact entriesOf_push_other draws (fun h => he ⟨hfilter,h⟩)
  | unheard draws p hfilter => rfl
  | answered p => rw [entriesOf,currentAdvertisements_source,entriesOf]
  | handled d t out h => exact absurd rfl (htimer d)
  | recordsAged => rfl
  | ticked2 d t out h => rw [entriesOf,currentAdvertisements_ticked2 h,entriesOf]
  | unscheduled d h => rfl

end Quiet

section Alive
variable {privateAddr coa : IPAddress} {T : UInt16}

/-- One entry of the agent, last refreshed `n` ticks ago. -/
def Heard (privateAddr coa : IPAddress) (T : UInt16) (n : ℕ) (s : MobileNode) : Prop :=
  ∃ it, entriesOf s privateAddr coa = [it] ∧ it.lifetime = aged n (htons T)

/-- The agent is heard at least once in every `T` ticks; `n` ticks have passed. -/
def Fed (privateAddr coa : IPAddress) (T : ℕ) : ℕ → List Event → Prop
  | _, [] => True
  | n, e :: es =>
    (e.Announces privateAddr coa → Fed privateAddr coa T 0 es) ∧
    (¬e.Announces privateAddr coa → ∀ d, e = .handlerTimer d → n < T ∧ Fed privateAddr coa T (n + 1) es) ∧
    (¬e.Announces privateAddr coa → (∀ d, e ≠ .handlerTimer d) → Fed privateAddr coa T n es)

/-- Every advertisement of the agent in the run is live, has lifetime `T` and meets an
entry that it refreshes. -/
def Refreshing (privateAddr coa : IPAddress) (T : UInt16) (s : MobileNode) (es : List Event) : Prop :=
  ∀ pre draws p post t out, es = pre ++ .advertisement draws p :: post →
    (Event.advertisement draws p).Announces privateAddr coa → run step s pre = some (t,out) →
    ¬discarded p ∧ ¬busy p ∧ p.advertisement.address ≠ t.homePrivateAddr ∧
      (decode p).lifetime = htons T ∧ Refreshable t (decode p)

theorem Refreshing.tail {s t : MobileNode} {e : Event} {es : List Event} {out : List Emission}
    (h : Refreshing privateAddr coa T s (e :: es)) (hstep : step s e = some (t,out)) :
    Refreshing privateAddr coa T t es := by
  intro pre draws p post u out' hes hannounce hr
  exact h (e :: pre) draws p post u (out ++ out') (by rw [hes]; rfl) hannounce
    (run_cons_eq_some.mpr ⟨t,out,out',hstep,hr,rfl⟩)

theorem heard_refreshed {s t : MobileNode} {e : Event} {es : List Event} {out : List Emission}
    (h : Refreshing privateAddr coa T s (e :: es)) (he : e.Announces privateAddr coa)
    (hstep : step s e = some (t,out)) : Heard privateAddr coa T 0 t := by
  cases e with
  | advertisement draws p =>
    obtain ⟨hdiscard,hbusy,haddr,hlife,hrefresh⟩ := h [] draws p es s [] rfl he rfl
    obtain ⟨hfilter,hprivate,hcoa⟩ := he
    rw [step,if_pos hfilter] at hstep
    obtain ⟨it,hentries,hit,-⟩ := (known_push_iff draws hdiscard hbusy haddr).mpr hrefresh
    rw [hprivate,hcoa,(Prod.mk.inj (Option.some.inj hstep)).1] at hentries
    exact ⟨it,hentries,hit.trans hlife⟩
  | reply _ => exact he.elim
  | handlerTimer _ => exact he.elim
  | sourceTimer => exact he.elim
  | sourceTimer2 _ => exact he.elim

/-- A tick before the lifetime has run out keeps the entry and clears `connected`, if
at all, for another agent. -/
theorem heard_tick {s : MobileNode} {n : ℕ} (d : Draw) (hs : Heard privateAddr coa T n s) (hn : n < T.toNat) :
    ∃ t out, step s (.handlerTimer d) = some (t,out) ∧ Heard privateAddr coa T (n + 1) t ∧
      (s.connected = true → t.connected = false → ∃ it ∈ s.currentAdvertisements,
        ofAgent privateAddr coa it = false ∧ it.lifetime = 0 ∧ it.privateAddr = s.currPrivateAddr) := by
  obtain ⟨it,hentries,hlife⟩ := hs
  obtain ⟨t,out,hstep,haged⟩ := runTimer_aged d s
  obtain ⟨hknown,hconnected⟩ := haged.spec
  have halive : it.lifetime ≠ 0 := by
    rw [hlife,ne_eq,aged_htons_eq_zero]
    omega
  refine ⟨t,out,hstep,⟨{ it with lifetime := tickDown it.lifetime },?_,?_⟩,?_⟩
  · have hage : ageAdvertisement it = some { it with lifetime := tickDown it.lifetime } := if_neg halive
    have hlist : s.currentAdvertisements.filter (ofAgent privateAddr coa) = [it] := hentries
    rw [entriesOf,hknown,entriesOf_filterMap,hlist]
    simp [hage]
  · rw [aged_succ,← hlife]
  · intro hwas hnow
    rw [hconnected,hwas,Bool.true_and,Bool.not_eq_false',lostHost,Bool.true_and,List.any_eq_true] at hnow
    obtain ⟨other,hother,hlost⟩ := hnow
    rw [Bool.and_eq_true,beq_iff_eq,beq_iff_eq] at hlost
    refine ⟨other,hother,?_,hlost⟩
    rw [← Bool.not_eq_true]
    intro hagent
    have hmem : other ∈ entriesOf s privateAddr coa := List.mem_filter.mpr ⟨hother,hagent⟩
    rw [hentries,List.mem_singleton] at hmem
    exact halive (hmem ▸ hlost.1)

/-- What a node remembers of an agent that is heard in time, at every tick of a run. -/
theorem heard_along {s : MobileNode} {n : ℕ} {es : List Event} (hs : Heard privateAddr coa T n s)
    (hfed : Fed privateAddr coa T.toNat n es) (hrefresh : Refreshing privateAddr coa T s es)
    (pre post : List Event) (d : Draw) (hes : es = pre ++ .handlerTimer d :: post) :
    ∃ t out u out', run step s pre = some (t,out) ∧ step t (.handlerTimer d) = some (u,out') ∧
      entriesOf u privateAddr coa ≠ [] ∧
      (t.connected = true → u.connected = false → ∃ it ∈ t.currentAdvertisements,
        ofAgent privateAddr coa it = false ∧ it.lifetime = 0 ∧ it.privateAddr = t.currPrivateAddr) := by
  induction pre generalizing s n es with
  | nil =>
    subst hes
    obtain ⟨hn,-⟩ := hfed.2.1 id d rfl
    obtain ⟨u,out,hstep,⟨it,hu,-⟩,hlost⟩ := heard_tick d hs hn
    exact ⟨s,[],u,out,rfl,hstep,by rw [hu]; exact List.cons_ne_nil _ _,hlost⟩
  | cons e pre ih =>
    subst hes
    obtain ⟨t,o,hstep⟩ := step_isSome s e
    have hnext : ∃ n', Heard privateAddr coa T n' t ∧
        Fed privateAddr coa T.toNat n' (pre ++ .handlerTimer d :: post) := by
      by_cases hannounce : e.Announces privateAddr coa
      · exact ⟨0,heard_refreshed hrefresh hannounce hstep,hfed.1 hannounce⟩
      by_cases htick : ∃ d', e = .handlerTimer d'
      · obtain ⟨d',rfl⟩ := htick
        obtain ⟨hn,hlater⟩ := hfed.2.1 hannounce d' rfl
        obtain ⟨t',o',hstep',ht',-⟩ := heard_tick d' hs hn
        rw [hstep] at hstep'
        cases hstep'
        exact ⟨n + 1,ht',hlater⟩
      · have hne : ∀ d', e ≠ .handlerTimer d' := fun d' h => htick ⟨d',h⟩
        refine ⟨n,?_,hfed.2.2 hannounce hne⟩
        unfold Heard at hs ⊢
        rwa [step_entriesOf hannounce hne hstep]
    obtain ⟨n',ht,hlater⟩ := hnext
    obtain ⟨v,out,u,out',hrun,hrest⟩ := ih ht hlater (hrefresh.tail hstep) rfl
    exact ⟨v,o ++ out,u,out',run_cons_eq_some.mpr ⟨t,o,out,hstep,hrun,rfl⟩,hrest⟩

/-- An advertisement leaves exactly one entry with its values if and only if it found
the agent refreshable; and from there on, as long as the agent is heard in time and
its advertisements find it refreshable, no tick erases its entry or clears `connected`
for it. -/
theorem live_agent_stays_known (draws : ℕ → Draw) (s : MobileNode) (p : Packet)
    (hdiscard : ¬discarded p) (hbusy : ¬busy p) (haddr : p.advertisement.address ≠ s.homePrivateAddr) :
    (Known (AdvertisementsHandler.push draws s p).node (decode p) ↔ Refreshable s (decode p)) ∧
    (Refreshable s (decode p) → ∀ es,
      Fed (decode p).privateAddr (decode p).coa (ntohs (decode p).lifetime).toNat 0 es →
      Refreshing (decode p).privateAddr (decode p).coa (ntohs (decode p).lifetime)
        (AdvertisementsHandler.push draws s p).node es →
      ∀ pre d post, es = pre ++ .handlerTimer d :: post →
        ∃ t out u out', run step (AdvertisementsHandler.push draws s p).node pre = some (t,out) ∧
          step t (.handlerTimer d) = some (u,out') ∧
          entriesOf u (decode p).privateAddr (decode p).coa ≠ [] ∧
          (t.connected = true → u.connected = false → ∃ it ∈ t.currentAdvertisements,
            ofAgent (decode p).privateAddr (decode p).coa it = false ∧ it.lifetime = 0 ∧
              it.privateAddr = t.currPrivateAddr)) := by
  have hiff := known_push_iff draws hdiscard hbusy haddr
  refine ⟨hiff,fun hrefreshable es hfed hrefreshing pre d post hes => ?_⟩
  obtain ⟨it,hentries,hit,-⟩ := hiff.mpr hrefreshable
  have hheard : Heard (decode p).privateAddr (decode p).coa (ntohs (decode p).lifetime) 0
      (AdvertisementsHandler.push draws s p).node := ⟨it,hentries,by rw [hit,aged_zero,htons_ntohs]⟩
  exact heard_along hheard hfed hrefreshing pre post d hes

/-- An agent that is both home and foreign agent, with advertisements that last for
thirty seconds. -/
def sampleAdvertiser (seq : UInt16) : AgentAdvertiser := ⟨true,true,30,4000,seq⟩

def sampleAgent : AgentBase := AgentBase.configure 5 6 25

def sampleNode : MobileNode := MobileNode.configure 9 2 1

def sampleDraws : ℕ → Draw := fun n => ⟨true,n,n,n⟩

def firstAdvertisement : Packet := (sampleAdvertiser 0).advertisementPacket sampleAgent

def secondAdvertisement : Packet := (sampleAdvertiser (htons 1)).advertisementPacket sampleAgent

theorem live_agent_stays_known_sample :
    ∃ t out u out', run step (AdvertisementsHandler.push sampleDraws sampleNode firstAdvertisement).node [] =
        some (t,out) ∧
      step t (.handlerTimer (sampleDraws 0)) = some (u,out') ∧
      entriesOf u (decode firstAdvertisement).privateAddr (decode firstAdvertisement).coa ≠ [] := by
  have hrefreshable : Refreshable sampleNode (decode firstAdvertisement) := Or.inl rfl
  obtain ⟨t,out,u,out',hrun,hstep,hknown,-⟩ :=
    (live_agent_stays_known sampleDraws sampleNode firstAdvertisement (by decide +kernel) (by decide +kernel)
      (by decide +kernel)).2 hrefreshable [.handlerTimer (sampleDraws 0)]
      ⟨False.elim,fun _ _ _ => ⟨by decide +kernel,trivial⟩,fun _ h => absurd rfl (h (sampleDraws 0))⟩
      (fun pre draws p post t out hes => by
        have hmem : Event.advertisement draws p ∈ [Event.handlerTimer (sampleDraws 0)] := by rw [hes]; simp
        simp at hmem)
      [] (sampleDraws 0) [] rfl
  exact ⟨t,out,u,out',hrun,hstep,hknown⟩

/-- The second advertisement of an agent does not refresh the entry of the first. -/
theorem second_advertisement_not_shown :
    ((sampleAdvertiser 0).createPacket true sampleAgent).1 = some firstAdvertisement ∧
    (((sampleAdvertiser 0).createPacket true sampleAgent).2.createPacket true sampleAgent).1 =
      some secondAdvertisement ∧
    ¬discarded secondAdvertisement ∧ ¬busy secondAdvertisement ∧
    secondAdvertisement.advertisement.address ≠
      (AdvertisementsHandler.push sampleDraws sampleNode firstAdvertisement).node.homePrivateAddr ∧
    ¬Known (AdvertisementsHandler.push sampleDraws
        (AdvertisementsHandler.push sampleDraws sampleNode firstAdvertisement).node secondAdvertisement).node
      (decode secondAdvertisement) := by
  have hdiscard : ¬discarded secondAdvertisement := by decide +kernel
  have hbusy : ¬busy secondAdvertisement := by decide +kernel
  have haddr : secondAdvertisement.advertisement.address ≠
      (AdvertisementsHandler.push sampleDraws sampleNode firstAdvertisement).node.homePrivateAddr := by
    decide +kernel
  refine ⟨rfl,rfl,hdiscard,hbusy,haddr,?_⟩
  rw [known_push_iff sampleDraws hdiscard hbusy haddr]
  have hentries : entriesOf (AdvertisementsHandler.push sampleDraws sampleNode firstAdvertisement).node
      (decode secondAdvertisement).privateAddr (decode secondAdvertisement).coa =
        [decode firstAdvertisement] := by decide +kernel
  rintro (hnone | ⟨it,hit,hor⟩)
  · rw [hentries] at hnone
    cases hnone
  · rw [hentries] at hit
    obtain ⟨rfl,-⟩ := List.cons_eq_cons.mp hit
    rcases hor with hrestarted | ⟨-,-,hseq⟩
    · exact absurd hrestarted (by decide +kernel)
    · exact absurd hseq (by decide +kernel)

end Alive
end ClickMobileIP.MobileNode
