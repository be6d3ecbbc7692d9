import ClickMobileIP.Agent.AgentAdvertiser
import ClickMobileIP.Node.RegistrationRequestSource

/-! # The advertisement handler of the mobile node

The handler decodes an advertisement, keeps the list of agents it has heard of, and
calls the registration source when the node should register. One activation can call
`makePacket` several times; `draws` gives each call its own random values.
-/
namespace ClickMobileIP.AdvertisementsHandler
open ByteLayout EraseSweep RegistrationRequestSource

/-- The foreign agent test shifts the flags to the left before it masks them. -/
def decode (p : Packet) : Advertisement :=
  let advh := p.advertisement
  let flags := advh.flagsReserved
  { lifetime := advh.lifetime
    regLifetime := advh.lifetimeEx
    sequenceNum := advh.sequenceNum
    coa := advh.addressEx
    privateAddr := p.ip.ipSrc
    ha := decide ((flags >>> 5) &&& 1 ≠ 0)
    fa := decide ((flags >>> 7) &&& 1 ≠ 0 ∧ (flags.toUInt32 <<< 4) &&& 1 ≠ 0) }

def discarded (p : Packet) : Prop := (decode p).ha = false ∧ (decode p).fa = false

instance (p : Packet) : Decidable (discarded p) := inferInstanceAs (Decidable (_ ∧ _))

def busy (p : Packet) : Prop := (p.advertisement.flagsReserved >>> 6) &&& 1 = 1

instance (p : Packet) : Decidable (busy p) := inferInstanceAs (Decidable (_ = _))

/-- The node, what it has sent, and how often `makePacket` was called. -/
structure Activation where
  node : MobileNode
  sent : List Emission := []
  calls : ℕ := 0
  deriving DecidableEq, Repr

def Activation.makePacket (draws : ℕ → Draw) (x : Activation) (a : Advertisement) : Activation :=
  let r := RegistrationRequestSource.makePacket (draws x.calls) x.node a
  ⟨r.1,x.sent ++ r.2,x.calls + 1⟩

def sameAgent (a it : Advertisement) : Bool := it.privateAddr == a.privateAddr && it.coa == a.coa

def restarted (a it : Advertisement) : Prop := a.sequenceNum < 256 ∧ a.sequenceNum ≤ it.sequenceNum

instance (a it : Advertisement) : Decidable (restarted a it) := inferInstanceAs (Decidable (_ ∧ _))

/-- The loop over the known agents. -/
def refresh (draws : ℕ → Draw) (a : Advertisement) : Activation → List Advertisement →
    Activation × List Advertisement
  | x, [] => (x,[])
  | x, it :: rest =>
    if sameAgent a it ∧ restarted a it then
      let y := if x.node.currPrivateAddr = it.privateAddr then x.makePacket draws a else x
      let r := refresh draws a y rest
      (r.1,{ it with lifetime := a.lifetime, regLifetime := a.regLifetime,
                     sequenceNum := a.sequenceNum } :: r.2)
    else
      let r := refresh draws a x rest
      (r.1,it :: r.2)

/-- The list of agents after an advertisement of an agent other than the home agent. -/
def learn (draws : ℕ → Draw) (s : MobileNode) (a : Advertisement) : Activation :=
  let r := refresh draws a ⟨s,[],0⟩ s.currentAdvertisements
  let known := if s.currentAdvertisements.any (sameAgent a) then r.2 else r.2 ++ [a]
  { r.1 with node := { r.1.node with currentAdvertisements := known } }

def register (draws : ℕ → Draw) (x : Activation) (a : Advertisement) (address : IPAddress) : Activation :=
  let fromHome := address = x.node.homePublicAddr
  let y :=
    if x.node.home = false ∧ x.node.connected = false ∧ ¬fromHome then x.makePacket draws a else x
  if y.node.home = true ∧ ¬fromHome then y.makePacket draws a
  else if y.node.home = false ∧ fromHome then y.makePacket draws a
  else y

def push (draws : ℕ → Draw) (s : MobileNode) (p : Packet) : Activation :=
  let a := decode p
  let address := p.advertisement.address
  if discarded p then ⟨s,[],0⟩
  else if busy p then
    ⟨{ s with currentAdvertisements := s.currentAdvertisements.eraseP (sameAgent a) },[],0⟩
  else
    let x := if address ≠ s.homePrivateAddr then learn draws s a else ⟨s,[],0⟩
    register draws x a address

/-- The state of the loop is the flag `connected` and whether the host was lost. -/
def advertisementVisit (wasConnected : Bool) (host : IPAddress) (c : Bool × Bool) (it : Advertisement) :
    Option ((Bool × Bool) × Option Advertisement) :=
  if it.lifetime = 0 then
    if wasConnected = true ∧ it.privateAddr = host then some ((false,true),none) else some (c,none)
  else some (c,some { it with lifetime := tickDown it.lifetime })

def forget (s : MobileNode) (connected : Bool) (known : List Advertisement) : MobileNode :=
  { s with
    connected := connected
    currentAdvertisements := known
    advertisementReady := if known = [] then false else s.advertisementReady }

def runTimer (d : Draw) (s : MobileNode) : Option (MobileNode × List Emission) :=
  match sweepForward (advertisementVisit s.connected s.currPrivateAddr) s.currentAdvertisements.length
      (s.connected,false) s.currentAdvertisements 0 with
  | none => none
  | some ((connected,lost),known) =>
    match lost,known with
    | true, it :: _ => some (makePacket d (forget s connected known) it)
    | _, _ => some (forget s connected known,[])

section Activations
variable {draws : ℕ → Draw} {s : MobileNode} {p : Packet}

/-- What every call of `makePacket` and every change of the list of agents preserves,
an advertisement preserves. -/
theorem push_preserves {P : Activation → Prop}
    (hsend : ∀ x, P x → P (x.makePacket draws (decode p)))
    (hlist : ∀ x known, P x → P { x with node := { x.node with currentAdvertisements := known } })
    (hs : P ⟨s,[],0⟩) : P (push draws s p) := by
  have hrefresh : ∀ (known : List Advertisement) (x : Activation), P x →
      P (refresh draws (decode p) x known).1 := by
    intro known
    induction known with
    | nil => exact fun x hx => hx
    | cons it rest ih =>
      intro x hx
      rw [refresh]
      by_cases h : sameAgent (decode p) it ∧ restarted (decode p) it
      · rw [if_pos h]
        dsimp only
        split
        · exact ih _ (hsend x hx)
        · exact ih x hx
      · rw [if_neg h]
        exact ih x hx
  have hlearn : P (learn draws s (decode p)) := hlist _ _ (hrefresh _ _ hs)
  have hregister : ∀ x, P x → P (register draws x (decode p) p.advertisement.address) := by
    intro x hx
    unfold register
    dsimp only
    split_ifs
    · exact hsend _ (hsend x hx)
    · exact hsend _ (hsend x hx)
    · exact hsend x hx
    · exact hsend x hx
    · exact hsend x hx
    · exact hx
  unfold push
  dsimp only
  split_ifs
  · exact hs
  · exact hlist _ _ hs
  · exact hregister _ hlearn
  · exact hregister _ hs

theorem learn_elsewhere (draws : ℕ → Draw) {a : Advertisement} (h : s.currPrivateAddr ≠ a.privateAddr) :
    ∃ known, learn draws s a = ⟨{ s with currentAdvertisements := known },[],0⟩ := by
  have hrefresh : ∀ known, (refresh draws a ⟨s,[],0⟩ known).1 = ⟨s,[],0⟩ := by
    intro known
    induction known with
    | nil => rfl
    | cons it rest ih =>
      rw [refresh]
      by_cases hit : sameAgent a it ∧ restarted a it
      · have hkey : it.privateAddr = a.privateAddr := by
          have hsame := hit.1
          rw [sameAgent,Bool.and_eq_true,beq_iff_eq] at hsame
          exact hsame.1
        have hother : ¬s.currPrivateAddr = it.privateAddr := fun heq => h (heq.trans hkey)
        rw [if_pos hit]
        dsimp only
        rw [if_neg hother,ih]
      · rw [if_neg hit]
        exact ih
  exact ⟨_,by rw [learn,hrefresh]⟩

theorem register_moves (draws : ℕ → Draw) {x : Activation} {a : Advertisement} {address : IPAddress}
    (hmove : x.node.home = true ∧ address ≠ x.node.homePublicAddr ∨
      x.node.home = false ∧ x.node.connected = true ∧ address = x.node.homePublicAddr) :
    register draws x a address = x.makePacket draws a := by
  have hfirst : ¬(x.node.home = false ∧ x.node.connected = false ∧ ¬address = x.node.homePublicAddr) := by
    rcases hmove with ⟨hhome,-⟩ | ⟨-,hconnected,-⟩
    · exact fun h => absurd (hhome.symm.trans h.1) (by decide)
    · exact fun h => absurd (hconnected.symm.trans h.2.1) (by decide)
  unfold register
  dsimp only
  simp only [hfirst,↓reduceIte]
  rcases hmove with hout | ⟨haway,-,hback⟩
  · rw [if_pos hout]
  · rw [if_neg (fun h => h.2 hback),if_pos ⟨haway,hback⟩]

end Activations

section Decoding
variable (a : AgentAdvertiser) (agent : AgentBase)

theorem toNat_toUInt16 {n : ℤ} (hn : 0 ≤ n ∧ n ≤ 65535) : ((toUInt16 n).toNat : ℤ) = n := by
  rw [toUInt16_toNat]
  omega

/-- Every field of an advertisement arrives, but the foreign agent flag never does:
the bit it is taken from has been shifted out. -/
theorem decode_advertisementPacket : decode (a.advertisementPacket agent) =
    { lifetime := htons (toUInt16 a.lifetimeAdv), regLifetime := htons (toUInt16 agent.lifetimeReg),
      sequenceNum := a.sequenceNum, coa := agent.publicAddr, privateAddr := agent.privateAddr,
      ha := a.ha, fa := false } := by
  have hflags : (a.flagsReserved >>> 5) &&& 1 ≠ 0 ↔ a.ha = true := by
    rw [AgentAdvertiser.flagsReserved]
    cases a.ha <;> cases a.fa <;> decide
  have hfa : ¬((a.flagsReserved >>> 7) &&& 1 ≠ 0 ∧ (a.flagsReserved.toUInt32 <<< 4) &&& 1 ≠ 0) := by
    rw [AgentAdvertiser.flagsReserved]
    cases a.ha <;> cases a.fa <;> decide
  simp only [decode,AgentAdvertiser.advertisement_advertisementPacket,AgentAdvertiser.ip_advertisementPacket,
    AgentAdvertiser.sealAdvertisement,AgentAdvertiser.advertisementHeader,
    AgentAdvertiser.sealAdvertisementIp,AgentAdvertiser.advertisementIp,hflags,hfa,decide_false,
    Bool.decide_eq_true]

theorem not_busy_advertisementPacket : ¬busy (a.advertisementPacket agent) := by
  have hbit : ¬(a.flagsReserved >>> 6) &&& 1 = 1 := by
    rw [AgentAdvertiser.flagsReserved]
    cases a.ha <;> cases a.fa <;> decide
  simpa only [busy,AgentAdvertiser.advertisement_advertisementPacket,AgentAdvertiser.sealAdvertisement,
    AgentAdvertiser.advertisementHeader] using hbit

@[simp] theorem address_advertisementPacket :
    (a.advertisementPacket agent).advertisement.address = agent.publicAddr := by
  rw [AgentAdvertiser.advertisement_advertisementPacket]
  rfl

/-- The packet passes the filter, is decoded to what was advertised and is not
discarded. -/
def Understood : Prop :=
  ∃ p, (a.createPacket true agent).1 = some p ∧ AdvFilter.push p = [⟨1,p⟩] ∧
    (decode p).ha = a.ha ∧ (decode p).fa = a.fa ∧
    (decode p).lifetime = htons (toUInt16 a.lifetimeAdv) ∧
    ((ntohs (decode p).regLifetime).toNat : ℤ) = agent.lifetimeReg ∧
    (decode p).sequenceNum = a.sequenceNum ∧
    (decode p).coa = agent.publicAddr ∧ (decode p).privateAddr = agent.privateAddr ∧ ¬discarded p

variable {a agent}

theorem fa_eq_false_of_understood (h : Understood a agent) : a.fa = false := by
  obtain ⟨p,hp,-,-,hfa,-⟩ := h
  have hpacket : a.advertisementPacket agent = p := Option.some.inj hp
  rw [← hfa,← hpacket,decode_advertisementPacket]

/-- Whatever configuration is accepted, and at every sequence number, the node
understands the advertisement if and only if the agent is not a foreign agent. -/
theorem understood_iff {fa ha : Bool} {lifetimeAdv interval : ℤ} (seq : UInt16)
    (hconf : AgentAdvertiser.configure fa ha lifetimeAdv interval = some a)
    (hreg : 0 ≤ agent.lifetimeReg ∧ agent.lifetimeReg ≤ 65535) :
    Understood { a with sequenceNum := seq } agent ↔ fa = false := by
  have hfields : a.fa = fa ∧ a.ha = ha ∧ ¬(ha = false ∧ fa = false) := by
    unfold AgentAdvertiser.configure at hconf
    split_ifs at hconf with hinterval hroles
    cases hconf
    exact ⟨rfl,rfl,hroles⟩
  obtain ⟨hfa,hha,hroles⟩ := hfields
  constructor
  · intro h
    have hfalse : ({ a with sequenceNum := seq } : AgentAdvertiser).fa = false := fa_eq_false_of_understood h
    exact hfa.symm.trans hfalse
  · intro h
    have hhome : ha = true := by simpa [h] using hroles
    refine ⟨_,rfl,AdvFilter.push_advertisementPacket _ _,?_⟩
    simp only [discarded,decode_advertisementPacket,ntohs_htons,toNat_toUInt16 hreg,hfa,hha,h,hhome,
      Bool.true_eq_false,false_and,not_false_eq_true,and_self]

theorem understood_sample :
    Understood ⟨true,false,30,4000,htons 7⟩ (AgentBase.configure 1 2 25) := by
  have hconf : AgentAdvertiser.configure false true 30 4000 = some ⟨true,false,30,4000,0⟩ := by decide
  exact (understood_iff (htons 7) hconf ⟨by decide,by decide⟩).mpr rfl

/-- An agent that is only a foreign agent is discarded by every node. -/
theorem foreign_agent_not_understood :
    AgentAdvertiser.configure true false 30 4000 = some ⟨false,true,30,4000,0⟩ ∧
      ¬Understood ⟨false,true,30,4000,0⟩ (AgentBase.configure 1 2 25) ∧
      discarded ((⟨false,true,30,4000,0⟩ : AgentAdvertiser).advertisementPacket (AgentBase.configure 1 2 25)) := by
  refine ⟨by decide,fun h => ?_,?_⟩
  · cases fa_eq_false_of_understood h
  · rw [discarded,decode_advertisementPacket]
    exact ⟨rfl,rfl⟩

end Decoding
end ClickMobileIP.AdvertisementsHandler
