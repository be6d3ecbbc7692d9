import ClickMobileIP.Agent.AdvertiserTimer
import ClickMobileIP.Agent.ForeignAgentReplyProcess
import ClickMobileIP.Agent.Forwarding
import ClickMobileIP.Agent.HomeExpiry
import ClickMobileIP.Node.AdvertisementsHandler
import ClickMobileIP.Support.Ownership

/-! # What each element does with its packets

The `push` of every element as the trace of its packet operations: one definition for
each body, with the branches of the source. A handle is a packet pointer. `uniqueify`
returns the pointer it was called on when the data is not shared or belongs to another
packet, and a new pointer when the packet has been cloned; the old one is then gone.
-/
namespace ClickMobileIP.PacketConservation
open Ownership ByteLayout
open AdvertisementsHandler (decode discarded busy)

inductive Handle
  | input
  | copy
  | made (k : ℕ)
  deriving DecidableEq, Repr

/-- The data of the packet is its own, or that of a packet it is a clone of, or has been
lent to clones. -/
inductive Sharing
  | unshared
  | clone
  | cloned
  deriving DecidableEq, Repr

/-- What a call finds: the sharing of its input, whether data can be copied and packets
made, and the bytes behind the data, which an unchecked read may reach. -/
structure Memory where
  sharing : Sharing
  copies : Bool
  makes : Bool
  beyond : List UInt8

/-- The result of `uniqueify`. A copy that cannot be made frees the packet and gives null. -/
def Memory.successor (m : Memory) : Option Handle :=
  match m.sharing with
  | .unshared => some .input
  | .clone => if m.copies then some .input else none
  | .cloned => if m.copies then some .copy else none

/-- A body that starts with `uniqueify` and uses the result without a test for null. -/
def withUnique (m : Memory) (body : Handle → List (Op Handle)) : List (Op Handle) :=
  match m.successor with
  | some q => .exchange .input q :: .use q :: body q
  | none => [.kill .input,.fault]

def readBeyond {α : Type} (L : Layout α) (m : Memory) (p : Packet) (off : ℕ) : α :=
  L.read ((p.data ++ m.beyond).drop off)

def advFilter (p : Packet) : List (Op Handle) :=
  if p.length = 48 then
    if p.ip.ipP = 1 ∧ p.ip.ipDst = 0xffffffff then
      let ah := p.advertisement
      if ah.typeEx = 16 ∧ ah.type = 9 ∧ ah.code = 0 then [.push 1 .input] else [.kill .input]
    else [.push 0 .input]
  else [.push 0 .input]

def solicitationFilter (p : Packet) : List (Op Handle) :=
  if p.length = 28 then
    let sh := p.solicitation
    if p.ip.ipP = 1 ∧ p.ip.ipDst = 0xffffffff then
      if sh.type = 10 ∧ sh.code = 0 ∧ p.ip.ipDst = 0xffffffff then [.push 1 .input] else [.kill .input]
    else [.push 0 .input]
  else [.push 0 .input]

def requests (draws : ℕ → Draw) (calls : ℕ) : List (Op Handle) :=
  (List.range calls).flatMap
    (fun k => if (draws k).alloc then [.make (.made k),.push 0 (.made k)] else [])

/-- The advertisement itself is neither killed nor passed on. -/
def advertisementsHandler (m : Memory) (draws : ℕ → Draw) (s : MobileNode) (p : Packet) : List (Op Handle) :=
  requests draws (AdvertisementsHandler.push draws s { p with data := p.data ++ m.beyond }).calls

def mobileIPFilter (m : Memory) (s : AgentBase) (p : Packet) : List (Op Handle) :=
  if readBeyond Layout.u8 m p 28 = 3 then [.push 1 .input]
  else if readBeyond Layout.u8 m p 28 = 1 then
    if readBeyond Layout.u32 m p 36 = s.publicAddr then [.push 2 .input] else [.push 3 .input]
  else [.push 0 .input]

def ipEncapsulation (m : Memory) (s : AgentBase) (p : Packet) : List (Op Handle) :=
  if s.isHome (readBeyond Layout.u32 m p 16) then [.push 0 .input]
  else if m.makes = false then []
  else [.make (.made 0),.use .input,.kill .input,.push 1 (.made 0)]

def ipDecap (m : Memory) (s : AgentBase) (p : Packet) : List (Op Handle) :=
  if readBeyond Layout.u8 m p 9 = 4 ∧ s.inMapNode (readBeyond Layout.u32 m p 36) then
    withUnique m (fun q => [.push 1 q])
  else [.push 0 .input]

/-- A packet of another type is killed through the pointer that `uniqueify` was given. -/
def foreignAgentReqProcess (m : Memory) (s : AgentBase) (p : Packet) : List (Op Handle) :=
  if p.length < 52 then [.kill .input]
  else withUnique m (fun q =>
    if p.request.type ≠ 1 then [.kill .input]
    else if (ForeignAgentReqProcess.validatePacket s p).2 = 1 then [.push 1 q]
    else if m.makes = false then []
    else [.make (.made 0),.push 0 (.made 0)])

def foreignAgentReplyProcess (m : Memory) (p : Packet) : List (Op Handle) :=
  if p.length < 48 then [.kill .input]
  else withUnique m (fun q => if p.reply.type ≠ 3 then [.kill q] else [.push 0 q])

def registrationRequestReply (m : Memory) (s : AgentBase) (p : Packet) : List (Op Handle) :=
  if p.length < 52 then [.kill .input]
  else if p.request.type ≠ 1 then [.kill .input]
  else
    let code := RegistrationRequestReply.validatePacket s p
    match RegistrationRequestReply.findDuplicate s p.request with
    | none => [.fault]
    | some _ =>
      if m.makes = false then []
      else .make (.made 0) :: (if code = 0 ∨ code = 1 then
        if 0 < p.request.lifetime then [.push 0 (.made 0)] else [.push 1 (.made 0)]
        else [])

def registrationRequestSource (p : Packet) : List (Op Handle) :=
  if p.length < 48 then [.kill .input] else [.use .input,.kill .input]

def agentAdvertiser (m : Memory) : List (Op Handle) :=
  (if m.makes then [.make (.made 0),.push 0 (.made 0)] else []) ++ [.kill .input]

def agentSolicitation : List (Op Handle) := [.push 0 .input]

def setGateway : List (Op Handle) := [.use .input,.push 0 .input]

inductive Element
  | advFilter
  | solicitationFilter
  | advertisementsHandler (draws : ℕ → Draw) (s : MobileNode)
  | mobileIPFilter (s : AgentBase)
  | ipEncapsulation (s : AgentBase)
  | ipDecap (s : AgentBase)
  | foreignAgentReqProcess (s : AgentBase)
  | foreignAgentReplyProcess (uninit : UInt16) (s : AgentBase)
  | registrationRequestReply (s : AgentBase)
  | registrationRequestSource (s : MobileNode)
  | agentAdvertiser (agent : AgentBase) (w : AgentAdvertiser.Running) (time rand : ℕ)
  | agentSolicitation
  | setGateway (s : MobileNode)

def trace (m : Memory) (p : Packet) : Element → List (Op Handle)
  | .advFilter => advFilter p
  | .solicitationFilter => solicitationFilter p
  | .advertisementsHandler draws s => advertisementsHandler m draws s p
  | .mobileIPFilter s => mobileIPFilter m s p
  | .ipEncapsulation s => ipEncapsulation m s p
  | .ipDecap s => ipDecap m s p
  | .foreignAgentReqProcess s => foreignAgentReqProcess m s p
  | .foreignAgentReplyProcess _ _ => foreignAgentReplyProcess m p
  | .registrationRequestReply s => registrationRequestReply m s p
  | .registrationRequestSource _ => registrationRequestSource p
  | .agentAdvertiser _ _ _ _ => agentAdvertiser m
  | .agentSolicitation => agentSolicitation
  | .setGateway _ => setGateway

section Conservation
variable {m : Memory} {p : Packet}

def Admissible (s : AgentBase) (p : Packet) : Prop :=
  ¬s.lifetimeReg < (ntohs p.request.lifetime).toNat ∧
    ¬(p.request.flags &&& 1 ≠ 0 ∨ (p.request.flags >>> 2) &&& 1 ≠ 0) ∧
    ¬((p.request.flags >>> 3) &&& 1 ≠ 0 ∨ (p.request.flags >>> 4) &&& 1 ≠ 0) ∧
    (s.registrationReq.length : ℤ) ≠ s.maxRequests

/-- The calls that release what they hold. -/
def Releases (m : Memory) (p : Packet) : Element → Prop
  | .advertisementsHandler _ _ => False
  | .ipEncapsulation s => s.isHome (readBeyond Layout.u32 m p 16) = true ∨ m.makes = true
  | .ipDecap s =>
    readBeyond Layout.u8 m p 9 = 4 ∧ s.inMapNode (readBeyond Layout.u32 m p 36) = true →
      m.sharing = .unshared ∨ m.copies = true
  | .foreignAgentReqProcess s =>
    p.length < 52 ∨ (m.sharing = .unshared ∨ m.copies = true) ∧
      (p.request.type ≠ 1 ∧ m.sharing ≠ .cloned ∨ p.request.type = 1 ∧ Admissible s p)
  | .foreignAgentReplyProcess _ _ => p.length < 48 ∨ m.sharing = .unshared ∨ m.copies = true
  | .registrationRequestReply _ => p.length < 52 ∨ p.request.type ≠ 1
  | _ => True

theorem validatePacket_eq_one (s : AgentBase) (p : Packet) :
    (ForeignAgentReqProcess.validatePacket s p).2 = 1 ↔ Admissible s p := by
  unfold ForeignAgentReqProcess.validatePacket Admissible
  dsimp only
  split_ifs with hlife hflags hbits hfull hroom
  · exact iff_of_false (fun h => absurd h (by dsimp only; decide)) (fun h => h.1 hlife)
  · exact iff_of_false (fun h => absurd h (by dsimp only; decide)) (fun h => h.2.1 hflags)
  · exact iff_of_false (fun h => absurd h (by dsimp only; decide)) (fun h => h.2.2.1 hbits)
  · exact iff_of_false (fun h => absurd h (by dsimp only; decide)) (fun h => h.2.2.2 hfull)
  · exact iff_of_true rfl ⟨hlife,hflags,hbits,hfull⟩
  · exact iff_of_true rfl ⟨hlife,hflags,hbits,hfull⟩

theorem successor_isSome : (∃ q, m.successor = some q) ↔ m.sharing = .unshared ∨ m.copies = true := by
  unfold Memory.successor
  cases m.sharing <;> cases m.copies <;> simp

theorem successor_eq_input {q : Handle} (h : m.successor = some q) : q = .input ↔ m.sharing ≠ .cloned := by
  unfold Memory.successor at h
  cases hs : m.sharing with
  | unshared =>
    rw [hs] at h
    cases h
    simp
  | clone =>
    simp only [hs] at h
    split at h
    · cases h
      simp
    · cases h
  | cloned =>
    simp only [hs] at h
    split at h
    · cases h
      simp
    · cases h

theorem conserved_withUnique (body : Handle → List (Op Handle)) :
    Conserved [.input] (withUnique m body) ↔ ∃ q, m.successor = some q ∧ Conserved [q] (body q) := by
  unfold withUnique
  cases h : m.successor with
  | none =>
    simp only [reduceCtorEq,false_and,exists_false,iff_false]
    decide
  | some q => simp [Conserved,settle,Op.perform]

theorem conserved_push (port : ℕ) (q : Handle) : Conserved [q] [.push port q] := by
  simp [Conserved,settle,Op.perform]

theorem conserved_kill (q : Handle) : Conserved [q] [.kill q] := by
  simp [Conserved,settle,Op.perform]

theorem input_requests (draws : ℕ → Draw) (calls : ℕ) :
    released .input (requests draws calls) = 0 ∧ gained .input (requests draws calls) = 0 := by
  have hops : ∀ op ∈ requests draws calls, op.released .input = 0 ∧ op.gained .input = 0 := by
    intro op hop
    obtain ⟨k,-,hk⟩ := List.mem_flatMap.mp hop
    split at hk
    · rcases List.mem_cons.mp hk with rfl | hk
      · exact ⟨rfl,rfl⟩
      · cases List.mem_singleton.mp hk
        exact ⟨rfl,rfl⟩
    · cases hk
  constructor
  · apply List.sum_eq_zero_iff_forall_eq_nat.mpr
    intro n hn
    obtain ⟨op,hop,rfl⟩ := List.mem_map.mp hn
    exact (hops op hop).1
  · apply List.sum_eq_zero_iff_forall_eq_nat.mpr
    intro n hn
    obtain ⟨op,hop,rfl⟩ := List.mem_map.mp hn
    exact (hops op hop).2

theorem not_conserved_advertisementsHandler (draws : ℕ → Draw) (s : MobileNode) :
    ¬Conserved [.input] (advertisementsHandler m draws s p) := by
  obtain ⟨hreleased,hgained⟩ := input_requests draws
    (AdvertisementsHandler.push draws s { p with data := p.data ++ m.beyond }).calls
  exact not_conserved_of_leak (List.mem_singleton_self _) (hreleased.trans hgained.symm)

/-- A reply that is made and sent, or not made at all, does not release the request. -/
theorem not_conserved_reply (q : Handle) (port : ℕ) :
    ¬Conserved [q] [] ∧ ¬Conserved [q] [.make (.made 0)] ∧
      ¬Conserved [q] [.make (.made 0),.push port (.made 0)] := by
  refine ⟨?_,?_,?_⟩
  · exact not_conserved_of_leak (List.mem_singleton_self q) rfl
  · simp only [Conserved,settle,Op.perform]
    split <;> simp
  · apply not_conserved_of_leak (List.mem_singleton_self q)
    simp [released,gained,Op.released,Op.gained]

theorem eq_input_of_conserved_kill {q : Handle} (h : Conserved [q] [.kill .input]) : q = .input := by
  by_contra hne
  apply not_conserved_of_leak (List.mem_singleton_self q) ?_ h
  simp [released,gained,Op.released,Op.gained,Ne.symm hne]

theorem conserved_foreignAgentReqProcess (s : AgentBase) :
    Conserved [.input] (foreignAgentReqProcess m s p) ↔ Releases m p (.foreignAgentReqProcess s) := by
  unfold foreignAgentReqProcess Releases
  by_cases hlen : p.length < 52
  · simp only [hlen,↓reduceIte,true_or,iff_true]
    exact conserved_kill .input
  simp only [hlen,↓reduceIte,false_or,conserved_withUnique,← successor_isSome]
  by_cases htype : p.request.type = 1
  · by_cases hok : Admissible s p
    · simp only [htype,ne_eq,not_true_eq_false,(validatePacket_eq_one s p).mpr hok,↓reduceIte,conserved_push,
        hok,and_self,and_true,or_true]
    · have hcode : ¬(ForeignAgentReqProcess.validatePacket s p).2 = 1 :=
        fun h => hok ((validatePacket_eq_one s p).mp h)
      simp only [htype,ne_eq,not_true_eq_false,hcode,↓reduceIte,hok,and_false,false_and,or_self,iff_false]
      rintro ⟨q,-,hbody⟩
      obtain ⟨hnone,-,hsent⟩ := not_conserved_reply q 0
      split at hbody
      · exact hnone hbody
      · exact hsent hbody
  · simp only [htype,ne_eq,not_false_eq_true,↓reduceIte,true_and,false_and,or_false]
    constructor
    · rintro ⟨q,hq,hbody⟩
      exact ⟨⟨q,hq⟩,(successor_eq_input hq).mp (eq_input_of_conserved_kill hbody)⟩
    · rintro ⟨⟨q,hq⟩,hclone⟩
      have hinput := (successor_eq_input hq).mpr hclone
      subst hinput
      exact ⟨.input,hq,conserved_kill .input⟩

theorem conserved_ipEncapsulation (s : AgentBase) :
    Conserved [.input] (ipEncapsulation m s p) ↔ Releases m p (.ipEncapsulation s) := by
  unfold ipEncapsulation Releases
  split_ifs with hhome hmakes
  · exact iff_of_true (by decide) (Or.inl hhome)
  · exact iff_of_false (by decide) (by simp [hhome,hmakes])
  · exact iff_of_true (by decide) (Or.inr (by simpa using hmakes))

theorem conserved_ipDecap (s : AgentBase) :
    Conserved [.input] (ipDecap m s p) ↔ Releases m p (.ipDecap s) := by
  unfold ipDecap Releases
  split_ifs with hvisitor
  · simp only [conserved_withUnique,conserved_push,and_true,successor_isSome,hvisitor,and_self,forall_const]
  · exact iff_of_true (by decide) (fun h => absurd h hvisitor)

theorem conserved_foreignAgentReplyProcess (uninit : UInt16) (s : AgentBase) :
    Conserved [.input] (foreignAgentReplyProcess m p) ↔ Releases m p (.foreignAgentReplyProcess uninit s) := by
  unfold foreignAgentReplyProcess Releases
  split_ifs with hlen
  · exact iff_of_true (by decide) (Or.inl hlen)
  · simp only [conserved_withUnique,conserved_kill,and_true,successor_isSome,hlen,false_or]
  · simp only [conserved_withUnique,conserved_push,and_true,successor_isSome,hlen,false_or]

theorem not_conserved_registrationRequestReply {s : AgentBase} (hlen : ¬p.length < 52)
    (htype : p.request.type = 1) : ¬Conserved [.input] (registrationRequestReply m s p) := by
  obtain ⟨duplicate,hdup⟩ := RegistrationRequestReply.findDuplicate_isSome s p.request
  obtain ⟨hnone,hmade,-⟩ := not_conserved_reply .input 0
  unfold registrationRequestReply
  simp only [hlen,htype,hdup,ne_eq,not_true_eq_false,↓reduceIte]
  split_ifs
  · exact hnone
  · exact (not_conserved_reply .input 0).2.2
  · exact (not_conserved_reply .input 1).2.2
  · exact hmade

theorem conserved_registrationRequestReply (s : AgentBase) :
    Conserved [.input] (registrationRequestReply m s p) ↔ Releases m p (.registrationRequestReply s) := by
  by_cases hlen : p.length < 52
  · refine iff_of_true ?_ (Or.inl hlen)
    simp only [registrationRequestReply,hlen,↓reduceIte]
    exact conserved_kill .input
  by_cases htype : p.request.type = 1
  · exact iff_of_false (not_conserved_registrationRequestReply hlen htype) (by simp [Releases,hlen,htype])
  · refine iff_of_true ?_ (Or.inr htype)
    simp only [registrationRequestReply,hlen,htype,ne_eq,not_false_eq_true,↓reduceIte]
    exact conserved_kill .input

/-- Exactly these calls consume their packet once, and every packet they make. -/
theorem conserved_iff (m : Memory) (p : Packet) (element : Element) :
    Conserved [.input] (trace m p element) ↔ Releases m p element := by
  cases element with
  | advFilter =>
    refine iff_of_true ?_ trivial
    unfold trace advFilter
    dsimp only
    split_ifs <;> decide
  | solicitationFilter =>
    refine iff_of_true ?_ trivial
    unfold trace solicitationFilter
    dsimp only
    split_ifs <;> decide
  | advertisementsHandler draws s => exact iff_of_false (not_conserved_advertisementsHandler draws s) id
  | mobileIPFilter s =>
    refine iff_of_true ?_ trivial
    unfold trace mobileIPFilter
    dsimp only
    split_ifs <;> decide
  | ipEncapsulation s => exact conserved_ipEncapsulation s
  | ipDecap s => exact conserved_ipDecap s
  | foreignAgentReqProcess s => exact conserved_foreignAgentReqProcess s
  | foreignAgentReplyProcess uninit s => exact conserved_foreignAgentReplyProcess uninit s
  | registrationRequestReply s => exact conserved_registrationRequestReply s
  | registrationRequestSource s =>
    refine iff_of_true ?_ trivial
    unfold trace registrationRequestSource
    dsimp only
    split_ifs <;> decide
  | agentAdvertiser agent w time rand =>
    refine iff_of_true ?_ trivial
    unfold trace agentAdvertiser
    dsimp only
    split_ifs <;> decide
  | agentSolicitation => exact iff_of_true (conserved_push 0 .input) trivial
  | setGateway s =>
    refine iff_of_true ?_ trivial
    change Conserved [.input] setGateway
    decide

def roomy : Memory := ⟨.unshared,true,true,[]⟩

/-- Every advertisement leaks; so does a request that the home agent accepts, and one that
the foreign agent denies for its lifetime. -/
theorem packets_leak :
    ¬Conserved [.input] (trace roomy
      ((⟨true,true,60,15000,0⟩ : AgentAdvertiser).advertisementPacket (AgentBase.configure 1 2 25))
      (.advertisementsHandler (fun _ => ⟨true,0,0,0⟩) (MobileNode.configure 9 5 6))) ∧
    ¬Conserved [.input] (trace roomy (HomeAgent.sampleRequest 25)
      (.registrationRequestReply (AgentBase.configure 1 2 25))) ∧
    ¬Conserved [.input] (trace roomy (HomeAgent.sampleRequest 30)
      (.foreignAgentReqProcess (AgentBase.configure 3 4 25))) := by
  refine ⟨?_,?_,?_⟩ <;> decide +kernel

end Conservation

section Ports
variable {m : Memory} {p : Packet}

/-- What the model of each element sends; `none` where it reads outside the packet. -/
def emits (m : Memory) (p : Packet) : Element → Option (List Emission)
  | .advFilter => some (AdvFilter.push p)
  | .solicitationFilter => some (SolicitationFilter.push p)
  | .advertisementsHandler draws s =>
    if 48 ≤ p.length then some (AdvertisementsHandler.push draws s p).sent else none
  | .mobileIPFilter s => MobileIPFilter.push s p
  | .ipEncapsulation s => IpEncapsulation.push m.makes s p
  | .ipDecap s => IpDecap.push s p
  | .foreignAgentReqProcess s => some (ForeignAgentReqProcess.push m.makes s p).2
  | .foreignAgentReplyProcess uninit s => (ForeignAgentReplyProcess.push uninit s p).map Prod.snd
  | .registrationRequestReply s => (RegistrationRequestReply.push m.makes s p).map Prod.snd
  | .registrationRequestSource _ => some []
  | .agentAdvertiser agent w time rand =>
    some ((AgentAdvertiser.push agent w time rand m.makes).2.map (fun x => ⟨0,x.2⟩))
  | .agentSolicitation => some (AgentSolicitation.push p)
  | .setGateway s => some (SetGateway.push s p)

theorem readBeyond_of_load {α : Type} {L : Layout α} {off : ℕ} {v : α} (h : L.load p.data off = some v) :
    readBeyond L m p off = v := by
  unfold Layout.load at h
  split at h
  · rename_i hlen
    cases h
    rw [readBeyond,List.drop_append_of_le_length (by omega),
      L.read_append (by rw [List.length_drop]; omega)]
  · cases h

theorem push_append (draws : ℕ → Draw) (s : MobileNode) (rest : List UInt8) (hlen : 48 ≤ p.length) :
    AdvertisementsHandler.push draws s { p with data := p.data ++ rest } = AdvertisementsHandler.push draws s p := by
  have hdata : 48 ≤ p.data.length := hlen
  have hip : ({ p with data := p.data ++ rest } : Packet).ip = p.ip :=
    Layout.read_append ClickIp.layout (le_trans (by decide) hdata)
  have hadv : ({ p with data := p.data ++ rest } : Packet).advertisement = p.advertisement := by
    unfold Packet.advertisement
    rw [List.drop_append_of_le_length (by omega),Layout.read_append _ (by rw [List.length_drop,size_advertisement]; omega)]
  have hdecode : decode { p with data := p.data ++ rest } = decode p := by
    simp only [decode,hip,hadv]
  have hdiscarded : discarded { p with data := p.data ++ rest } ↔ discarded p := by
    simp only [discarded,hdecode]
  have hbusy : busy { p with data := p.data ++ rest } ↔ busy p := by
    simp only [busy,hadv]
  simp only [AdvertisementsHandler.push,hdecode,hadv,hdiscarded,hbusy]

theorem ports_requests (draws : ℕ → Draw) (calls : ℕ) :
    ports (requests draws calls) = (List.range calls).flatMap (fun k => if (draws k).alloc then [0] else []) := by
  unfold ports requests
  rw [List.filterMap_flatMap]
  congr 1
  funext k
  cases (draws k).alloc <;> rfl

theorem ports_sent (draws : ℕ → Draw) (s : MobileNode) (p : Packet) :
    (AdvertisementsHandler.push draws s p).sent.map Emission.port =
      ports (requests draws (AdvertisementsHandler.push draws s p).calls) := by
  refine AdvertisementsHandler.push_preserves
    (P := fun x => x.sent.map Emission.port = ports (requests draws x.calls)) ?_ (fun _ _ h => h) rfl
  intro x hx
  have hport : (RegistrationRequestSource.makePacket (draws x.calls) x.node (decode p)).2.map Emission.port =
      if (draws x.calls).alloc then [0] else [] := by
    unfold RegistrationRequestSource.makePacket
    cases (draws x.calls).alloc <;> rfl
  simp only [AdvertisementsHandler.Activation.makePacket,List.map_append,hport,hx,ports_requests,List.range_succ,
    List.flatMap_append,List.flatMap_singleton]

theorem ports_mobileIPFilter {s : AgentBase} {out : List Emission} (h : MobileIPFilter.push s p = some out) :
    ports (mobileIPFilter m s p) = out.map Emission.port := by
  unfold MobileIPFilter.push at h
  split at h
  · cases h
  · rename_i type htype
    rw [mobileIPFilter,readBeyond_of_load htype]
    split_ifs at h with hreply hrequest
    · cases h
      simp only [hreply,↓reduceIte]
      rfl
    · split at h
      · cases h
      · rename_i homeAgent hagent
        rw [readBeyond_of_load hagent,if_neg hreply,if_pos hrequest]
        split_ifs at h ⊢
        · cases h
          rfl
        · cases h
          rfl
    · cases h
      simp only [hreply,hrequest,↓reduceIte]
      rfl

theorem ports_ipEncapsulation {s : AgentBase} {out : List Emission}
    (h : IpEncapsulation.push m.makes s p = some out) :
    ports (ipEncapsulation m s p) = out.map Emission.port := by
  unfold IpEncapsulation.push at h
  split at h
  · cases h
  · rename_i dst hdst
    rw [ipEncapsulation,readBeyond_of_load hdst]
    split_ifs at h ⊢ with hhome hmakes
    · cases h
      rfl
    · split at h
      · cases h
      · cases h
        rfl
    · split at h
      · cases h
      · cases h
        rfl

theorem ports_withUnique {q : Handle} (hq : m.successor = some q) (body : Handle → List (Op Handle)) :
    ports (withUnique m body) = ports (body q) := by
  simp only [withUnique,hq]
  rfl

theorem ports_ipDecap {s : AgentBase} {out : List Emission} {q : Handle} (hq : m.successor = some q)
    (h : IpDecap.push s p = some out) : ports (ipDecap m s p) = out.map Emission.port := by
  unfold IpDecap.push at h
  split at h
  · cases h
  · rename_i proto hproto
    rw [ipDecap,readBeyond_of_load hproto]
    split_ifs at h with htunnel
    · split at h
      · cases h
      · rename_i dst hdst
        rw [readBeyond_of_load hdst]
        split_ifs at h with hvisitor
        · cases h
          rw [if_pos ⟨htunnel,hvisitor⟩,ports_withUnique hq]
          rfl
        · cases h
          rw [if_neg (fun hboth => hvisitor hboth.2)]
          rfl
    · cases h
      rw [if_neg (fun hboth => htunnel hboth.1)]
      rfl

theorem ports_foreignAgentReqProcess {s : AgentBase} {q : Handle} (hq : m.successor = some q) :
    ports (foreignAgentReqProcess m s p) = (ForeignAgentReqProcess.push m.makes s p).2.map Emission.port := by
  unfold foreignAgentReqProcess ForeignAgentReqProcess.push
  dsimp only
  split_ifs
  · rfl
  · rw [ports_withUnique hq]
    rfl
  · rw [ports_withUnique hq]
    rfl
  · rw [ports_withUnique hq]
    rfl
  · rw [ports_withUnique hq]
    rfl

theorem ports_foreignAgentReplyProcess {uninit : UInt16} {s : AgentBase} {out : List Emission} {q : Handle}
    (hq : m.successor = some q) (h : (ForeignAgentReplyProcess.push uninit s p).map Prod.snd = some out) :
    ports (foreignAgentReplyProcess m p) = out.map Emission.port := by
  unfold foreignAgentReplyProcess
  by_cases hp : p.IsReply
  · have hlen : ¬p.length < 48 := not_lt.mpr hp.1
    rw [ForeignAgentReplyProcess.push_reply uninit hp] at h
    cases h
    rw [if_neg hlen,ports_withUnique hq,if_neg (not_not.mpr hp.2)]
    rfl
  · rw [ForeignAgentReplyProcess.push_other uninit hp] at h
    cases h
    split_ifs with hlen htype
    · rfl
    · rw [ports_withUnique hq]
      rfl
    · exact absurd ⟨not_lt.mp hlen,not_not.mp htype⟩ hp

theorem ports_registrationRequestReply {s : AgentBase} {out : List Emission}
    (h : (RegistrationRequestReply.push m.makes s p).map Prod.snd = some out) :
    ports (registrationRequestReply m s p) = out.map Emission.port := by
  obtain ⟨duplicate,hdup⟩ := RegistrationRequestReply.findDuplicate_isSome s p.request
  unfold RegistrationRequestReply.push at h
  unfold registrationRequestReply
  simp only [hdup] at h ⊢
  split_ifs at h ⊢ <;> cases h <;> rfl

/-- The traces send what the models send, in the same order and through the same ports. -/
theorem ports_trace {element : Element} {out : List Emission} (hm : m.successor ≠ none)
    (h : emits m p element = some out) : ports (trace m p element) = out.map Emission.port := by
  obtain ⟨q,hq⟩ := Option.ne_none_iff_exists'.mp hm
  cases element with
  | advFilter =>
    cases h
    unfold trace advFilter AdvFilter.push
    dsimp only
    split_ifs <;> rfl
  | solicitationFilter =>
    cases h
    unfold trace solicitationFilter SolicitationFilter.push
    dsimp only
    split_ifs <;> rfl
  | advertisementsHandler draws s =>
    simp only [emits] at h
    split at h
    · rename_i hlen
      cases h
      rw [ports_sent,trace,advertisementsHandler,push_append draws s m.beyond hlen]
    · cases h
  | mobileIPFilter s => exact ports_mobileIPFilter h
  | ipEncapsulation s => exact ports_ipEncapsulation h
  | ipDecap s => exact ports_ipDecap hq h
  | foreignAgentReqProcess s =>
    cases h
    exact ports_foreignAgentReqProcess hq
  | foreignAgentReplyProcess uninit s => exact ports_foreignAgentReplyProcess hq h
  | registrationRequestReply s => exact ports_registrationRequestReply h
  | registrationRequestSource s =>
    cases h
    unfold trace registrationRequestSource
    dsimp only
    split_ifs <;> rfl
  | agentAdvertiser agent w time rand =>
    cases h
    simp only [trace,agentAdvertiser,AgentAdvertiser.push,AgentAdvertiser.sendAdvertisement]
    cases m.makes <;> rfl
  | agentSolicitation =>
    cases h
    rfl
  | setGateway s =>
    cases h
    rfl

end Ports
end ClickMobileIP.PacketConservation
