import ClickMobileIP.Node.KnownAgents

/-! # Invariant of the mobile node

The addresses of an agent travel from an advertisement to the list of agents, to the
record of a request and to the current addresses of the node, and are always copied
together. `Sound` states where the addresses in all three places come from, beside what
the connection time and the second timer promise, and every event keeps it.
-/
namespace ClickMobileIP.MobileNode
open EventRun AdvertisementsHandler RegistrationRequestSource EraseSweep

/-- No two entries are of one agent, and the agents have been heard. -/
structure AgentsSound (heard : IPAddress → IPAddress → Prop) (known : List Advertisement) : Prop where
  distinct : known.Pairwise (fun a b => ¬(a.privateAddr = b.privateAddr ∧ a.coa = b.coa))
  origin : ∀ it ∈ known, heard it.privateAddr it.coa

/-- What the node holds beside the list of agents; `initial` are the addresses it was
configured with. -/
structure FieldsSound (heard : IPAddress → IPAddress → Prop) (initial : IPAddress × IPAddress)
    (s : MobileNode) : Prop where
  records : ∀ it ∈ s.currentRequests, heard it.ipDst it.coa
  current : (s.currPrivateAddr,s.currCoa) = initial ∨ heard s.currPrivateAddr s.currCoa
  atHome : s.home = true → s.remainingConnectionTime = 0
  watched : s.connected = true → s.timer2Scheduled = true

def Sound (heard : IPAddress → IPAddress → Prop) (initial : IPAddress × IPAddress) (s : MobileNode) : Prop :=
  AgentsSound heard s.currentAdvertisements ∧ FieldsSound heard initial s

section Operations
variable {heard : IPAddress → IPAddress → Prop} {initial : IPAddress × IPAddress} {s : MobileNode}

theorem FieldsSound.makePacket {a : Advertisement} (hs : FieldsSound heard initial s) (d : Draw)
    (ha : heard a.privateAddr a.coa) : FieldsSound heard initial (makePacket d s a).1 := by
  have hrecords : ∀ it ∈ s.currentRequests ++ [newReq d a], heard it.ipDst it.coa := by
    intro it hit
    rcases List.mem_append.mp hit with hit | hit
    · exact hs.records it hit
    · cases List.mem_singleton.mp hit
      exact ha
  unfold RegistrationRequestSource.makePacket
  dsimp only
  split_ifs with halloc hhome
  · exact hs
  · exact ⟨hrecords,Or.inr (hhome ▸ ha),fun _ => rfl,hs.watched⟩
  · exact ⟨hrecords,hs.current,hs.atHome,hs.watched⟩

theorem FieldsSound.accept {it : Request} {t : MobileNode} (ht : FieldsSound heard initial t) (p : Packet)
    (hit : heard it.ipDst it.coa) : FieldsSound heard initial (accept p t it) := by
  unfold RegistrationRequestSource.accept
  split_ifs
  · exact ⟨ht.records,Or.inr hit,fun _ => rfl,ht.watched⟩
  · refine ⟨ht.records,Or.inr hit,?_,fun _ => rfl⟩
    intro hhome
    cases hhome

theorem FieldsSound.reply (hs : FieldsSound heard initial s) (p : Packet) :
    FieldsSound heard initial (RegistrationRequestSource.push s p) :=
  push_preserves_mem (fun _ it hit ht => ht.accept p (hs.records it hit)) hs

theorem sameAgent_iff {a it : Advertisement} :
    sameAgent a it = true ↔ it.privateAddr = a.privateAddr ∧ it.coa = a.coa := by
  simp [sameAgent]

theorem AgentsSound.touch {known : List Advertisement} (hs : AgentsSound heard known) (a : Advertisement) :
    AgentsSound heard (known.map (touch a)) := by
  have hkey : ∀ it, (AdvertisementsHandler.touch a it).privateAddr = it.privateAddr ∧
      (AdvertisementsHandler.touch a it).coa = it.coa := by
    intro it
    unfold AdvertisementsHandler.touch
    split
    · exact ⟨rfl,rfl⟩
    · exact ⟨rfl,rfl⟩
  constructor
  · apply List.pairwise_map.mpr
    apply hs.distinct.imp
    intro x y hne
    rwa [(hkey x).1,(hkey x).2,(hkey y).1,(hkey y).2]
  · intro it hit
    obtain ⟨old,hold,rfl⟩ := List.mem_map.mp hit
    rw [(hkey old).1,(hkey old).2]
    exact hs.origin old hold

theorem AgentsSound.append {known : List Advertisement} (hs : AgentsSound heard known) {a : Advertisement}
    (ha : heard a.privateAddr a.coa) (hnew : known.any (sameAgent a) = false) :
    AgentsSound heard (known ++ [a]) := by
  constructor
  · apply List.pairwise_append.mpr
    refine ⟨hs.distinct,List.pairwise_singleton _ _,?_⟩
    intro it hit b hb hsame
    cases List.mem_singleton.mp hb
    exact List.any_eq_false.mp hnew it hit (sameAgent_iff.mpr hsame)
  · intro it hit
    rcases List.mem_append.mp hit with hit | hit
    · exact hs.origin it hit
    · cases List.mem_singleton.mp hit
      exact ha

theorem AgentsSound.sublist {known kept : List Advertisement} (hs : AgentsSound heard known)
    (h : List.Sublist kept known) : AgentsSound heard kept :=
  ⟨hs.distinct.sublist h,fun it hit => hs.origin it (h.subset hit)⟩

theorem AgentsSound.age {known : List Advertisement} (hs : AgentsSound heard known) :
    AgentsSound heard (known.filterMap ageAdvertisement) := by
  have hkey : ∀ it it', ageAdvertisement it = some it' → it'.privateAddr = it.privateAddr ∧ it'.coa = it.coa := by
    intro it it' h
    unfold ageAdvertisement at h
    split at h
    · cases h
    · cases h
      exact ⟨rfl,rfl⟩
  constructor
  · apply List.Pairwise.filterMap ageAdvertisement ?_ hs.distinct
    intro x y hne x' hx y' hy
    rwa [(hkey x x' hx).1,(hkey x x' hx).2,(hkey y y' hy).1,(hkey y y' hy).2]
  · intro it hit
    obtain ⟨old,hold,h⟩ := List.mem_filterMap.mp hit
    rw [(hkey old it h).1,(hkey old it h).2]
    exact hs.origin old hold

theorem AgentsSound.push (hs : AgentsSound heard s.currentAdvertisements) (draws : ℕ → Draw) {p : Packet}
    (hp : heard (decode p).privateAddr (decode p).coa) :
    AgentsSound heard (AdvertisementsHandler.push draws s p).node.currentAdvertisements := by
  by_cases hdiscard : discarded p
  · rw [AdvertisementsHandler.push,if_pos hdiscard]
    exact hs
  by_cases hbusy : busy p
  · rw [AdvertisementsHandler.push,if_neg hdiscard,if_pos hbusy]
    exact hs.sublist List.eraseP_sublist
  by_cases haddr : p.advertisement.address = s.homePrivateAddr
  · simpa only [AdvertisementsHandler.push,hdiscard,hbusy,haddr,↓reduceIte,ne_eq,not_true_eq_false,
      currentAdvertisements_register] using hs
  · rw [currentAdvertisements_push hdiscard hbusy haddr]
    split
    · exact hs.touch _
    · rename_i hnew
      exact hs.append hp (by simpa using hnew)

theorem FieldsSound.aged {d : Draw} {t : MobileNode} {out : List Emission}
    (hagents : AgentsSound heard s.currentAdvertisements)
    (hs : FieldsSound heard initial s) (h : Aged d s t out) : FieldsSound heard initial t := by
  cases h with
  | forgotten known hknown =>
    refine ⟨hs.records,hs.current,hs.atHome,fun hconnected => hs.watched ?_⟩
    exact (Bool.and_eq_true_iff.mp hconnected).1
  | fellBack hlost it rest hknown =>
    have hforget : FieldsSound heard initial (forget s false (it :: rest)) :=
      ⟨hs.records,hs.current,hs.atHome,fun h => absurd h Bool.false_ne_true⟩
    have hit : it ∈ s.currentAdvertisements.filterMap ageAdvertisement := by
      rw [← hknown]
      exact List.mem_cons_self
    exact hforget.makePacket d (hagents.age.origin it hit)

theorem FieldsSound.ticked2 {d : Draw} {t : MobileNode} {out : List Emission}
    (hagents : AgentsSound heard s.currentAdvertisements) (hs : FieldsSound heard initial s)
    (h : Ticked2 d s t out) : FieldsSound heard initial t := by
  -- The countdown runs on a node that is not at home only.
  have hticked : s.remainingConnectionTime ≠ 0 → FieldsSound heard initial
      { s with remainingConnectionTime := tickDown s.remainingConnectionTime } :=
    fun hleft => ⟨hs.records,hs.current,fun hhome => absurd (hs.atHome hhome) hleft,hs.watched⟩
  cases h with
  | lapsed _ => exact ⟨hs.records,hs.current,hs.atHome,fun h => absurd h Bool.false_ne_true⟩
  | renewed hleft _ _ _ it hmem _ _ => exact (hticked hleft).makePacket d (hagents.origin it hmem)
  | counted hleft _ => exact hticked hleft

end Operations

section Runs
variable {heard : IPAddress → IPAddress → Prop} {initial : IPAddress × IPAddress} {s t : MobileNode}

/-- Every event keeps the invariant when the agent of an advertisement counts as heard. -/
theorem step_sound {e : Event} {out : List Emission}
    (he : ∀ draws p, e = .advertisement draws p → AdvFilter.push p = [⟨1,p⟩] →
      heard (decode p).privateAddr (decode p).coa)
    (hs : Sound heard initial s) (hstep : step s e = some (t,out)) : Sound heard initial t := by
  obtain ⟨hagents,hfields⟩ := hs
  cases stepped_of_step hstep with
  | heard draws p hfilter =>
    have hp := he draws p rfl hfilter
    refine ⟨hagents.push draws hp,?_⟩
    exact push_preserves (P := fun x => FieldsSound heard initial x.node) (fun x hx => hx.makePacket _ hp)
      (fun x known hx => ⟨hx.records,hx.current,hx.atHome,hx.watched⟩) hfields
  | unheard draws p hfilter => exact ⟨hagents,hfields⟩
  | answered p =>
    refine ⟨?_,hfields.reply p⟩
    rw [currentAdvertisements_source]
    exact hagents
  | handled d t out h =>
    refine ⟨?_,hfields.aged hagents h⟩
    rw [h.spec.1]
    exact hagents.age
  | recordsAged =>
    refine ⟨hagents,?_,hfields.current,hfields.atHome,hfields.watched⟩
    intro it hit
    obtain ⟨old,hold,hage⟩ := List.mem_filterMap.mp hit
    unfold ageRequest at hage
    split at hage
    · cases hage
    · cases hage
      exact hfields.records old hold
  | ticked2 d t out h =>
    refine ⟨?_,hfields.ticked2 hagents h⟩
    rw [currentAdvertisements_ticked2 h]
    exact hagents
  | unscheduled d h => exact ⟨hagents,hfields⟩

theorem sound_configure (myAddress homePrivateAddr homePublicAddr : IPAddress) :
    Sound heard (homePrivateAddr,homePublicAddr) (configure myAddress homePrivateAddr homePublicAddr) := by
  refine ⟨⟨List.Pairwise.nil,?_⟩,?_,Or.inl rfl,fun _ => rfl,?_⟩
  · intro it hit
    cases hit
  · intro it hit
    cases hit
  · intro h
    cases h

def HeardIn (es : List Event) (privateAddr coa : IPAddress) : Prop :=
  ∃ draws p, .advertisement draws p ∈ es ∧ AdvFilter.push p = [⟨1,p⟩] ∧
    privateAddr = p.ip.ipSrc ∧ coa = p.advertisement.addressEx

theorem run_sound {myAddress homePrivateAddr homePublicAddr : IPAddress} {es : List Event}
    {out : List Emission} (hr : run step (configure myAddress homePrivateAddr homePublicAddr) es = some (s,out)) :
    Sound (HeardIn es) (homePrivateAddr,homePublicAddr) s := by
  refine run_preserves_mem ?_ (sound_configure myAddress homePrivateAddr homePublicAddr) hr
  intro e he u v out' hu hstep
  refine step_sound ?_ hu hstep
  rintro draws p rfl hfilter
  exact ⟨draws,p,he,hfilter,rfl,rfl⟩

theorem runTimer2_idle {d : Draw} (h : s.remainingConnectionTime = 0) :
    runTimer2 d s = ({ s with connected := false },[]) := if_pos h

/-- Every run goes through, and in the state it ends in: the agents known are distinct;
the current addresses are the configured ones or those of one received advertisement; a
node at home has no connection time, so that its timer sends no request; and a connected
node has its timer scheduled, so that the next firing notices a connection time of zero. -/
theorem node_invariant (myAddress homePrivateAddr homePublicAddr : IPAddress) (es : List Event) :
    ∃ s out, run step (configure myAddress homePrivateAddr homePublicAddr) es = some (s,out) ∧
      s.currentAdvertisements.Pairwise (fun a b => ¬(a.privateAddr = b.privateAddr ∧ a.coa = b.coa)) ∧
      ((s.currPrivateAddr = homePrivateAddr ∧ s.currCoa = homePublicAddr) ∨
        HeardIn es s.currPrivateAddr s.currCoa) ∧
      (s.home = true → s.remainingConnectionTime = 0 ∧ ∀ d, (runTimer2 d s).2 = []) ∧
      (s.connected = true → s.timer2Scheduled = true ∧ (s.remainingConnectionTime = 0 →
        ∀ d, ∃ t, step s (.sourceTimer2 d) = some (t,[]) ∧ t.connected = false)) := by
  obtain ⟨s,out,hr⟩ := run_defined step_isSome (configure myAddress homePrivateAddr homePublicAddr) es
  obtain ⟨hagents,hfields⟩ := run_sound hr
  refine ⟨s,out,hr,hagents.distinct,?_,?_,?_⟩
  · rcases hfields.current with hinitial | hheard
    · exact Or.inl (Prod.mk.inj hinitial)
    · exact Or.inr hheard
  · intro hhome
    have hzero := hfields.atHome hhome
    exact ⟨hzero,fun d => congrArg Prod.snd (runTimer2_idle hzero)⟩
  · intro hconnected
    have hscheduled := hfields.watched hconnected
    refine ⟨hscheduled,fun hzero d => ?_⟩
    refine ⟨{ s with connected := false },?_,rfl⟩
    rw [step,if_pos hscheduled,runTimer2_idle hzero]

end Runs

section Requests
variable {s t u : MobileNode}

structure SameAddresses (s t : MobileNode) : Prop where
  myAddress : t.myAddress = s.myAddress
  homePrivateAddr : t.homePrivateAddr = s.homePrivateAddr
  homePublicAddr : t.homePublicAddr = s.homePublicAddr

def Requested (s : MobileNode) (p : Packet) : Prop :=
  ∃ d a u, SameAddresses s u ∧ p = requestPacket d u a

def Sends (s t : MobileNode) (out : List Emission) : Prop :=
  SameAddresses s t ∧ ∀ e ∈ out, Requested s e.packet

theorem Sends.makePacket {out : List Emission} (hu : Sends s u out) (d : Draw) (a : Advertisement) :
    Sends s (makePacket d u a).1 (out ++ (makePacket d u a).2) := by
  obtain ⟨haddr,hout⟩ := hu
  constructor
  · obtain ⟨coa,addr,time,records,h⟩ := makePacket_frame d u a
    rw [h]
    exact ⟨haddr.myAddress,haddr.homePrivateAddr,haddr.homePublicAddr⟩
  · intro e he
    rcases List.mem_append.mp he with he | he
    · exact hout e he
    · unfold RegistrationRequestSource.makePacket at he
      split at he
      · cases he
      · cases List.mem_singleton.mp he
        exact ⟨d,a,u,haddr,rfl⟩

theorem sends_nil (haddr : SameAddresses s t) : Sends s t [] := ⟨haddr,fun _ he => absurd he List.not_mem_nil⟩

theorem sends_makePacket (hu : SameAddresses s u) (d : Draw) (a : Advertisement) :
    Sends s (makePacket d u a).1 (makePacket d u a).2 := (sends_nil hu).makePacket d a

theorem step_sends {e : Event} {r : MobileNode × List Emission} (hstep : step s e = some r) :
    Sends s r.1 r.2 := by
  have hself : SameAddresses s s := ⟨rfl,rfl,rfl⟩
  obtain ⟨t,out⟩ := r
  cases stepped_of_step hstep with
  | heard draws p hfilter =>
    exact push_preserves (P := fun x => Sends s x.node x.sent) (fun x hx => hx.makePacket _ _)
      (fun x known hx => ⟨⟨hx.1.myAddress,hx.1.homePrivateAddr,hx.1.homePublicAddr⟩,hx.2⟩) (sends_nil hself)
  | unheard draws p hfilter => exact sends_nil hself
  | answered p =>
    refine sends_nil (RegistrationRequestSource.push_preserves ?_ hself)
    intro t it ht
    unfold accept
    split
    · exact ⟨ht.myAddress,ht.homePrivateAddr,ht.homePublicAddr⟩
    · exact ⟨ht.myAddress,ht.homePrivateAddr,ht.homePublicAddr⟩
  | handled d t out h =>
    cases h with
    | forgotten known hknown => exact sends_nil ⟨rfl,rfl,rfl⟩
    | fellBack hlost it rest hknown =>
      apply sends_makePacket
      exact ⟨rfl,rfl,rfl⟩
  | recordsAged => exact sends_nil ⟨rfl,rfl,rfl⟩
  | ticked2 d t out h =>
    cases h with
    | lapsed _ => exact sends_nil ⟨rfl,rfl,rfl⟩
    | renewed =>
      apply sends_makePacket
      exact ⟨rfl,rfl,rfl⟩
    | counted _ _ => exact sends_nil ⟨rfl,rfl,rfl⟩
  | unscheduled d h => exact sends_nil hself

end Requests
end ClickMobileIP.MobileNode
