import ClickMobileIP.Node.NodeInvariant

/-! # Detection of a rebooted agent

An agent numbers its advertisements 0, 1, ..., 65535, 256, 257, ... and starts again at 0
when it reboots. The node tests the number in network byte order, where a number below
256 is a multiple of 256, against the number it stored when the entry was made or last
rewritten. Runs interleave the advertisements of one agent, all of which arrive, with any
other events of the node.
-/
namespace ClickMobileIP.RebootDetection
open EventRun AdvertisementsHandler MobileNode

/-- The first 256 numbers are used once after a start. -/
def nextNumber (n : ℕ) : ℕ := if n = 65535 then 256 else n + 1

def advertise (a : AgentAdvertiser) (agent : AgentBase) (n : ℕ) : Packet :=
  AgentAdvertiser.advertisementPacket { a with sequenceNum := htons (UInt16.ofNat n) } agent

/-- `last` is the number of the agent's latest advertisement, and `met` tells whether the
node has received it. -/
structure World where
  node : MobileNode
  last : ℕ
  met : Bool

inductive Event (agent : AgentBase)
  | restart (draws : ℕ → Draw)
  | next (draws : ℕ → Draw)
  | other (e : MobileNode.Event) (h : ¬e.Announces agent.privateAddr agent.publicAddr)

def Event.number {agent : AgentBase} (w : World) : Event agent → Option ℕ
  | .restart _ => some 0
  | .next _ => some (nextNumber w.last)
  | .other _ _ => none

def hear (a : AgentAdvertiser) (agent : AgentBase) (w : World) (draws : ℕ → Draw) (n : ℕ) :
    Option (World × List Emission) :=
  (MobileNode.step w.node (.advertisement draws (advertise a agent n))).map (fun r => (⟨r.1,n,true⟩,r.2))

def step (a : AgentAdvertiser) (agent : AgentBase) (w : World) : Event agent → Option (World × List Emission)
  | .restart draws => hear a agent w draws 0
  | .next draws => hear a agent w draws (nextNumber w.last)
  | .other e _ => (MobileNode.step w.node e).map (fun r => ({ w with node := r.1 },r.2))

/-- A fresh node; the agent may have advertised before the node came. -/
def start (myAddress homePrivateAddr homePublicAddr : IPAddress) (last : UInt16) : World :=
  ⟨MobileNode.configure myAddress homePrivateAddr homePublicAddr,last.toNat,false⟩

/-- The handler enters its branch for a reset router. -/
def TakesReset (s : MobileNode) (p : Packet) : Prop :=
  ¬discarded p ∧ ¬busy p ∧ p.advertisement.address ≠ s.homePrivateAddr ∧
    ∃ it ∈ s.currentAdvertisements, sameAgent (decode p) it = true ∧ restarted (decode p) it

instance (s : MobileNode) (p : Packet) : Decidable (TakesReset s p) := inferInstanceAs (Decidable (_ ∧ _))

section Numbers
variable {a : AgentAdvertiser} {agent : AgentBase} {n : ℕ}

theorem nextNumber_pos (n : ℕ) : 0 < nextNumber n := by
  unfold nextNumber
  split_ifs <;> omega

theorem nextNumber_le (h : n ≤ 65535) : nextNumber n ≤ 65535 := by
  unfold nextNumber
  split_ifs <;> omega

/-- A number is below 256 and not above its predecessor only after a start. -/
theorem not_low_nextNumber (m : ℕ) : ¬(nextNumber m < 256 ∧ nextNumber m ≤ m) := by
  unfold nextNumber
  split_ifs <;> omega

theorem decode_advertise : decode (advertise a agent n) =
    { lifetime := htons (toUInt16 a.lifetimeAdv), regLifetime := htons (toUInt16 agent.lifetimeReg),
      sequenceNum := htons (UInt16.ofNat n), coa := agent.publicAddr, privateAddr := agent.privateAddr,
      ha := a.ha, fa := false } := decode_advertisementPacket _ _

theorem filter_advertise : AdvFilter.push (advertise a agent n) = [⟨1,advertise a agent n⟩] :=
  AdvFilter.push_advertisementPacket _ _

theorem discarded_advertise : discarded (advertise a agent n) ↔ a.ha = false := by
  simp only [discarded,decode_advertise,and_true]

theorem not_busy_advertise : ¬busy (advertise a agent n) := not_busy_advertisementPacket _ _

theorem restarted_advertise (hn : n ≤ 65535) (it : Advertisement) :
    restarted (decode (advertise a agent n)) it ↔ n % 256 = 0 ∧ n / 256 ≤ it.sequenceNum.toNat := by
  have hswap : (htons (UInt16.ofNat n)).toNat = n % 256 * 256 + n / 256 := by
    have hnat : (UInt16.ofNat n).toNat = n := by
      rw [UInt16.toNat_ofNat']
      omega
    rw [htons_toNat,hnat]
  rw [restarted,decode_advertise,UInt16.lt_iff_toNat_lt,UInt16.le_iff_toNat_le,hswap]
  change n % 256 * 256 + n / 256 < 256 ∧ _ ↔ _
  omega

end Numbers

section Invariant
variable {a : AgentAdvertiser} {agent : AgentBase}

theorem entriesOf_other {s t : MobileNode} {e : MobileNode.Event} {out : List Emission}
    (he : ¬e.Announces agent.privateAddr agent.publicAddr) (hstep : MobileNode.step s e = some (t,out))
    (hknown : entriesOf t agent.privateAddr agent.publicAddr ≠ []) :
    entriesOf s agent.privateAddr agent.publicAddr ≠ [] := by
  by_cases htimer : ∃ d, e = .handlerTimer d
  · obtain ⟨d,rfl⟩ := htimer
    cases stepped_of_step hstep with
    | handled _ _ _ haged =>
      intro hnone
      apply hknown
      rw [entriesOf,haged.spec.1,entriesOf_filterMap]
      change (entriesOf s agent.privateAddr agent.publicAddr).filterMap ageAdvertisement = []
      rw [hnone]
      rfl
  · rwa [step_entriesOf he (fun d h => htimer ⟨d,h⟩) hstep] at hknown

/-- The node learns of the agent only if it is a home agent of another network. -/
theorem entriesOf_advertise {s : MobileNode} (draws : ℕ → Draw) (n : ℕ)
    (hhidden : ¬(a.ha = true ∧ agent.publicAddr ≠ s.homePrivateAddr)) :
    (AdvertisementsHandler.push draws s (advertise a agent n)).node.currentAdvertisements =
      s.currentAdvertisements := by
  by_cases hha : a.ha = false
  · rw [AdvertisementsHandler.push,if_pos (discarded_advertise.mpr hha)]
  · have hlive : ¬discarded (advertise a agent n) := fun h => hha (discarded_advertise.mp h)
    have haddr : (advertise a agent n).advertisement.address = s.homePrivateAddr := by
      by_contra hne
      exact hhidden ⟨by simpa using hha,fun h => hne ((address_advertisementPacket _ _).trans h)⟩
    simp only [AdvertisementsHandler.push,hlive,not_busy_advertise,haddr,↓reduceIte,ne_eq,not_true_eq_false,
      currentAdvertisements_register]

structure Inv (a : AgentAdvertiser) (agent : AgentBase) (initial : IPAddress × IPAddress) (w : World) : Prop where
  range : w.last ≤ 65535
  sound : Sound (fun _ _ => True) initial w.node
  known : entriesOf w.node agent.privateAddr agent.publicAddr ≠ [] →
    w.met = true ∧ a.ha = true ∧ agent.publicAddr ≠ w.node.homePrivateAddr

theorem inv_hear {initial : IPAddress × IPAddress} {w v : World} {draws : ℕ → Draw} {n : ℕ}
    {out : List Emission} (hw : Inv a agent initial w) (hn : n ≤ 65535)
    (h : hear a agent w draws n = some (v,out)) : Inv a agent initial v := by
  obtain ⟨r,hstep,hv⟩ := Option.map_eq_some_iff.mp h
  cases hv
  have hsends := step_sends hstep
  refine ⟨hn,step_sound (fun _ _ _ _ => trivial) hw.sound hstep,?_⟩
  intro hknown
  refine ⟨rfl,?_⟩
  dsimp only at hknown ⊢
  rw [hsends.1.homePrivateAddr]
  by_contra hhidden
  rw [MobileNode.step,if_pos filter_advertise] at hstep
  cases hstep
  rw [entriesOf,entriesOf_advertise draws n hhidden] at hknown
  exact hhidden (hw.known hknown).2

theorem step_inv {initial : IPAddress × IPAddress} {w v : World} {e : Event agent} {out : List Emission}
    (hw : Inv a agent initial w) (h : step a agent w e = some (v,out)) : Inv a agent initial v := by
  cases e with
  | restart draws => exact inv_hear hw (Nat.zero_le _) h
  | next draws => exact inv_hear hw (nextNumber_le hw.range) h
  | other e he =>
    obtain ⟨r,hstep,hv⟩ := Option.map_eq_some_iff.mp h
    cases hv
    refine ⟨hw.range,step_sound (fun _ _ _ _ => trivial) hw.sound hstep,?_⟩
    intro hknown
    dsimp only at hknown ⊢
    rw [(step_sends hstep).1.homePrivateAddr]
    exact hw.known (entriesOf_other he hstep hknown)

theorem inv_start (myAddress homePrivateAddr homePublicAddr : IPAddress) (last : UInt16) :
    Inv a agent (homePrivateAddr,homePublicAddr) (start myAddress homePrivateAddr homePublicAddr last) := by
  refine ⟨?_,sound_configure _ _ _,fun h => absurd rfl h⟩
  have hlast := last.toNat_lt
  simp only [start]
  omega

theorem entriesOf_eq_singleton {s : MobileNode} {privateAddr coa : IPAddress} {heard : IPAddress → IPAddress → Prop}
    (hs : AgentsSound heard s.currentAdvertisements) (hknown : entriesOf s privateAddr coa ≠ []) :
    ∃ it, entriesOf s privateAddr coa = [it] := by
  have hdistinct := hs.distinct.filter (ofAgent privateAddr coa)
  have hkey : ∀ it ∈ entriesOf s privateAddr coa, it.privateAddr = privateAddr ∧ it.coa = coa := by
    intro it hit
    simpa [ofAgent] using (List.mem_filter.mp hit).2
  change (entriesOf s privateAddr coa).Pairwise _ at hdistinct
  rcases hentries : entriesOf s privateAddr coa with _ | ⟨it,_ | ⟨it',rest⟩⟩
  · exact absurd hentries hknown
  · exact ⟨it,rfl⟩
  · rw [hentries] at hdistinct hkey
    obtain ⟨hprivate,hcoa⟩ := hkey it (by simp)
    obtain ⟨hprivate',hcoa'⟩ := hkey it' (by simp)
    have hne := (List.pairwise_cons.mp hdistinct).1 it' (by simp)
    exact absurd ⟨hprivate.trans hprivate'.symm,hcoa.trans hcoa'.symm⟩ hne

theorem sameAgent_advertise (n : ℕ) (it : Advertisement) :
    sameAgent (decode (advertise a agent n)) it = ofAgent agent.privateAddr agent.publicAddr it := by
  rw [decode_advertise]
  rfl

theorem looksUp_advertise {s : MobileNode} (hlive : a.ha = true ∧ agent.publicAddr ≠ s.homePrivateAddr) (n : ℕ) :
    ¬discarded (advertise a agent n) ∧ ¬busy (advertise a agent n) ∧
      (advertise a agent n).advertisement.address ≠ s.homePrivateAddr := by
  refine ⟨?_,not_busy_advertise,?_⟩
  · rw [discarded_advertise,hlive.1]
    exact Bool.noConfusion
  · rw [advertise,address_advertisementPacket]
    exact hlive.2

theorem takesReset_iff {s : MobileNode} {it : Advertisement} {n : ℕ}
    (hlive : a.ha = true ∧ agent.publicAddr ≠ s.homePrivateAddr)
    (hit : entriesOf s agent.privateAddr agent.publicAddr = [it]) :
    TakesReset s (advertise a agent n) ↔ restarted (decode (advertise a agent n)) it := by
  have hmem : ∀ other, other ∈ s.currentAdvertisements ∧
      ofAgent agent.privateAddr agent.publicAddr other = true ↔ other = it := by
    intro other
    have hin : other ∈ entriesOf s agent.privateAddr agent.publicAddr ↔ other = it := by
      rw [hit,List.mem_singleton]
    rwa [entriesOf,List.mem_filter] at hin
  obtain ⟨hdiscard,hbusy,haddr⟩ := looksUp_advertise hlive n
  constructor
  · rintro ⟨-,-,-,other,hother,hsame,hrestarted⟩
    rw [sameAgent_advertise] at hsame
    exact (hmem other).mp ⟨hother,hsame⟩ ▸ hrestarted
  · intro hrestarted
    obtain ⟨hin,hsame⟩ := (hmem it).mpr rfl
    exact ⟨hdiscard,hbusy,haddr,it,hin,(sameAgent_advertise n it).trans hsame,hrestarted⟩

end Invariant

section Detection
variable {a : AgentAdvertiser} {agent : AgentBase}

theorem number_cases {w : World} {e : Event agent} {n : ℕ} (hlast : w.last ≤ 65535) (he : e.number w = some n) :
    n ≤ 65535 ∧ (n < 256 ∧ n ≤ w.last ↔ n = 0) ∧ (n = 0 ↔ ∃ draws, e = .restart draws) := by
  cases e with
  | restart draws =>
    cases he
    exact ⟨by omega,by omega,iff_of_true rfl ⟨draws,rfl⟩⟩
  | next draws =>
    cases he
    have hpos : nextNumber w.last ≠ 0 := (nextNumber_pos w.last).ne'
    refine ⟨nextNumber_le hlast,iff_of_false (not_low_nextNumber w.last) hpos,iff_of_false hpos ?_⟩
    rintro ⟨_,h⟩
    cases h
  | other _ _ => cases he

/-- After any run, at the next advertisement of a known agent: its number is below 256 and
not above the previous one exactly when the agent restarted, and the node takes the branch
for a reset router exactly then, unless the number is a multiple of 256 other than zero
whose quotient does not exceed the number stored in the entry. -/
theorem takesReset_iff_restart (myAddress homePrivateAddr homePublicAddr : IPAddress) (first : UInt16)
    (es : List (Event agent)) {w : World} {out : List Emission}
    (hr : run (step a agent) (start myAddress homePrivateAddr homePublicAddr first) es = some (w,out))
    {e : Event agent} {n : ℕ} (he : e.number w = some n)
    (hknown : entriesOf w.node agent.privateAddr agent.publicAddr ≠ []) :
    w.met = true ∧ (n < 256 ∧ n ≤ w.last ↔ ∃ draws, e = .restart draws) ∧
      ∃ it, entriesOf w.node agent.privateAddr agent.publicAddr = [it] ∧
        ((TakesReset w.node (advertise a agent n) ↔ n < 256 ∧ n ≤ w.last) ↔
          ¬(n ≠ 0 ∧ n % 256 = 0 ∧ n / 256 ≤ it.sequenceNum.toNat)) := by
  have hw : Inv a agent (homePrivateAddr,homePublicAddr) w :=
    run_preserves (fun _ _ _ _ => step_inv) (inv_start _ _ _ _) hr
  obtain ⟨it,hit⟩ := entriesOf_eq_singleton hw.sound.1 hknown
  obtain ⟨hmet,hlive⟩ := hw.known hknown
  obtain ⟨hn,hzero,hrestart⟩ := number_cases hw.range he
  refine ⟨hmet,hzero.trans hrestart,it,hit,?_⟩
  rw [takesReset_iff hlive hit,restarted_advertise hn,hzero]
  omega

def sampleAdvertiser : AgentAdvertiser := ⟨true,false,30,4000,0⟩

def sampleAgent : AgentBase := AgentBase.configure 1 2 25

def sampleNext : Event sampleAgent := .next (fun _ => ⟨true,0,0,0⟩)

theorem takesReset_sample :
    ∃ w out, run (step sampleAdvertiser sampleAgent) (start 9 5 6 6) [sampleNext] = some (w,out) ∧
      (TakesReset w.node (advertise sampleAdvertiser sampleAgent 8) ↔ 8 < 256 ∧ 8 ≤ w.last) := by
  have hrun : (run (step sampleAdvertiser sampleAgent) (start 9 5 6 6) [sampleNext]).any
      (fun r => decide (sampleNext.number r.1 = some 8 ∧
        entriesOf r.1.node sampleAgent.privateAddr sampleAgent.publicAddr ≠ [])) = true := by decide +kernel
  obtain ⟨⟨w,out⟩,hr,hw⟩ := (Option.any_eq_true _ _).mp hrun
  obtain ⟨hnumber,hknown⟩ := of_decide_eq_true hw
  obtain ⟨-,-,it,-,hiff⟩ := takesReset_iff_restart 9 5 6 6 _ hr hnumber hknown
  exact ⟨w,out,hr,hiff.mpr (by omega)⟩

/-- The node meets the agent at number 255, and the next one, 256, is taken for a reset. -/
theorem number_256_taken_for_restart :
    ∃ w out, run (step sampleAdvertiser sampleAgent) (start 9 5 6 254) [sampleNext] = some (w,out) ∧
      entriesOf w.node sampleAgent.privateAddr sampleAgent.publicAddr ≠ [] ∧
      w.last = 255 ∧ sampleNext.number w = some 256 ∧
      ¬(TakesReset w.node (advertise sampleAdvertiser sampleAgent 256) ↔ 256 < 256 ∧ 256 ≤ w.last) := by
  have hrun : (run (step sampleAdvertiser sampleAgent) (start 9 5 6 254) [sampleNext]).any
      (fun r => decide (entriesOf r.1.node sampleAgent.privateAddr sampleAgent.publicAddr ≠ [] ∧
        r.1.last = 255 ∧ sampleNext.number r.1 = some 256 ∧
        TakesReset r.1.node (advertise sampleAdvertiser sampleAgent 256))) = true := by decide +kernel
  obtain ⟨⟨w,out⟩,hr,hw⟩ := (Option.any_eq_true _ _).mp hrun
  obtain ⟨hknown,hlast,hnumber,hreset⟩ := of_decide_eq_true hw
  exact ⟨w,out,hr,hknown,hlast,hnumber,fun h => absurd (h.mp hreset).1 (by omega)⟩

end Detection
end ClickMobileIP.RebootDetection
