import ClickMobileIP.Agent.ForeignVisitors
import ClickMobileIP.Agent.Forwarding
import ClickMobileIP.Agent.RegistrationRequestReply
import ClickMobileIP.Node.AdvertisementsHandler

/-! # A registration on its way through the agents

A request is described by the record that the node keeps of it. `Asks` and `Grants`
say that a packet carries the request of a record, or the answer that accepts it;
every hop takes one of them to the next.
-/
namespace ClickMobileIP.System
open RegistrationRequestSource (newReq requestPacket accept answers)

/-- What the agents know of a mobile node. -/
structure Registrant where
  address : IPAddress
  homePublicAddr : IPAddress
  homePrivateAddr : IPAddress
  deriving DecidableEq, Repr

def registrant (s : MobileNode) : Registrant := ⟨s.myAddress,s.homePublicAddr,s.homePrivateAddr⟩

def Registrant.lifetime (n : Registrant) (r : Request) : UInt16 :=
  if r.ipDst = n.homePrivateAddr then 0 else r.requestedLifetime

structure Asks (n : Registrant) (r : Request) (p : Packet) : Prop where
  isRequest : p.IsRequest
  flags : p.request.flags = 0
  lifetime : p.request.lifetime = n.lifetime r
  homeAddr : p.request.homeAddr = n.address
  homeAgent : p.request.homeAgent = n.homePublicAddr
  coAddr : p.request.coAddr = r.coa
  id1 : p.request.id1 = r.id1
  id2 : p.request.id2 = r.id2
  port : p.udp.uhSport = r.port

structure Grants (n : Registrant) (r : Request) (p : Packet) : Prop where
  isReply : p.IsReply
  code : p.reply.code = 0
  lifetime : p.reply.lifetime = n.lifetime r
  homeAddr : p.reply.homeAddr = n.address
  homeAgent : p.reply.homeAgent = n.homePublicAddr
  id1 : p.reply.id1 = r.id1
  id2 : p.reply.id2 = r.id2
  port : p.udp.uhDport = r.port

def Denies (p : Packet) : Prop := p.IsReply ∧ p.reply.code ≠ 0 ∧ p.reply.code ≠ 1

section Hops
variable {n : Registrant} {r : Request} {p : Packet}

theorem asks_requestPacket (d : Draw) (s : MobileNode) (a : Advertisement) :
    Asks (registrant s) (newReq d a) (requestPacket d s a) := by
  have hrequest : (requestPacket d s a).request = RegistrationRequestSource.requestHeader d s a :=
    request_udpPacket ..
  have hlen : 52 ≤ (requestPacket d s a).length := by simp [requestPacket,Packet.length]
  have hport : (requestPacket d s a).udp.uhSport = d.sport := by simp [requestPacket,sealUdp]
  constructor
  · exact ⟨hlen,by rw [hrequest]; rfl⟩
  all_goals first | rw [hrequest] | rw [hport]
  all_goals rfl

@[simp] theorem ipDst_requestPacket (d : Draw) (s : MobileNode) (a : Advertisement) :
    (requestPacket d s a).ip.ipDst = a.privateAddr := by simp [requestPacket,sealIp]

@[simp] theorem ipSrc_requestPacket (d : Draw) (s : MobileNode) (a : Advertisement) :
    (requestPacket d s a).ip.ipSrc = s.myAddress := by simp [requestPacket,sealIp]

@[simp] theorem ipDst_relay (s : AgentBase) (p : Packet) :
    (ForeignAgentReqProcess.relay s p).ip.ipDst = p.request.homeAgent := by
  simp [ForeignAgentReqProcess.relay,sealIp]

@[simp] theorem ipSrc_relay (s : AgentBase) (p : Packet) :
    (ForeignAgentReqProcess.relay s p).ip.ipSrc = s.publicAddr := by
  simp [ForeignAgentReqProcess.relay,sealIp]

@[simp] theorem ipDst_makeReply (p : Packet) (code lifetime : UInt16) :
    (RegistrationRequestReply.makeReply p code lifetime).ip.ipDst = p.ip.ipSrc := by
  simp [RegistrationRequestReply.makeReply,sealIp]

theorem length_relay (s : AgentBase) (hlen : 28 ≤ p.length) :
    (ForeignAgentReqProcess.relay s p).length = p.length := by
  simp only [ForeignAgentReqProcess.relay,Packet.length,length_udpPacket,List.length_drop] at hlen ⊢
  omega

theorem length_forward (s : AgentBase) (hlen : 28 ≤ p.length) :
    (ForeignAgentReplyProcess.forward s p).length = p.length := by
  simp only [ForeignAgentReplyProcess.forward,Packet.length,length_udpPacket,List.length_drop] at hlen ⊢
  omega

theorem asks_relay (s : AgentBase) (h : Asks n r p) : Asks n r (ForeignAgentReqProcess.relay s p) := by
  have hlong := h.isRequest.1
  have hlen : 52 ≤ (ForeignAgentReqProcess.relay s p).length := by
    rw [length_relay s (by omega)]
    exact hlong
  have hport : (ForeignAgentReqProcess.relay s p).udp.uhSport = p.udp.uhSport := by
    simp [ForeignAgentReqProcess.relay,sealUdp]
  constructor
  · exact ⟨hlen,by rw [ForeignAgent.request_relay]; exact h.isRequest.2⟩
  all_goals first | rw [ForeignAgent.request_relay] | rw [hport]
  · exact h.flags
  · exact h.lifetime
  · exact h.homeAddr
  · exact h.homeAgent
  · exact h.coAddr
  · exact h.id1
  · exact h.id2
  · exact h.port

theorem grants_makeReply (h : Asks n r p) : Grants n r (RegistrationRequestReply.makeReply p 0 (n.lifetime r)) := by
  constructor
  · constructor
    · simp [RegistrationRequestReply.makeReply,Packet.length]
    · simp [RegistrationRequestReply.makeReply]
  all_goals simp only [RegistrationRequestReply.makeReply,reply_udpPacket_self,udp_udpPacket,sealUdp]
  · rfl
  · exact h.homeAddr
  · exact h.homeAgent
  · exact h.id1
  · exact h.id2
  · exact h.port

theorem reply_forward (s : AgentBase) (p : Packet) : (ForeignAgentReplyProcess.forward s p).reply = p.reply := by
  rw [Packet.reply,Packet.reply,ForeignAgentReplyProcess.forward,drop_udpPacket]

theorem grants_forward (s : AgentBase) (h : Grants n r p) :
    Grants n r (ForeignAgentReplyProcess.forward s p) := by
  have hreply := reply_forward s p
  have hlong := h.isReply.1
  have hlen : 48 ≤ (ForeignAgentReplyProcess.forward s p).length := by
    rw [length_forward s (by omega)]
    exact hlong
  have hport : (ForeignAgentReplyProcess.forward s p).udp.uhDport = p.udp.uhDport := by
    simp [ForeignAgentReplyProcess.forward,sealUdp]
  constructor
  · exact ⟨hlen,by rw [hreply]; exact h.isReply.2⟩
  all_goals first | rw [hreply] | rw [hport]
  · exact h.code
  · exact h.lifetime
  · exact h.homeAddr
  · exact h.homeAgent
  · exact h.id1
  · exact h.id2
  · exact h.port

/-- The filter of the home agent hands a request to the reply element. -/
theorem filter_home {s : AgentBase} (h : Asks n r p) (haddr : n.homePublicAddr = s.publicAddr) :
    MobileIPFilter.push s p = some [⟨2,p⟩] := by
  rw [MobileIPFilter.push_request h.isRequest,h.homeAgent,if_pos haddr]

/-- The filter of every other agent hands it to the element that relays. -/
theorem filter_foreign {s : AgentBase} (h : Asks n r p) (haddr : n.homePublicAddr ≠ s.publicAddr) :
    MobileIPFilter.push s p = some [⟨3,p⟩] := by
  rw [MobileIPFilter.push_request h.isRequest,h.homeAgent,if_neg haddr]

/-- The binding that the home agent keeps after it has served a request. -/
def bindingOf (n : Registrant) (r : Request) : Option HARegistrationEntry :=
  if n.lifetime r = 0 then none else some ⟨n.address,r.coa,n.lifetime r,r.id1,r.id2⟩

/-- The home agent serves every request. A duplicate is answered with the lifetime of
the binding, which has to be the one that was asked for. -/
theorem serve_asks {s : AgentBase} (h : Asks n r p) (haddr : s.publicAddr = n.homePublicAddr)
    (hdup : ∀ entry, s.table n.address = some entry → entry.id1 = r.id1 → entry.id2 = r.id2 →
      entry.lifetime = n.lifetime r) :
    ∃ t port, RegistrationRequestReply.push true s p =
        some (t,[⟨port,RegistrationRequestReply.makeReply p 0 (n.lifetime r)⟩]) ∧
      t.table n.address = bindingOf n r ∧ (port = if n.lifetime r = 0 then 1 else 0) ∧
      t.publicAddr = s.publicAddr ∧ t.privateAddr = s.privateAddr := by
  have hcode : RegistrationRequestReply.validatePacket s p = 0 := by
    rw [RegistrationRequestReply.validatePacket]
    simp [h.flags,h.homeAgent,haddr]
  have hlifetime : ∀ lifetime, (RegistrationRequestReply.findDuplicate s p.request = some none ∧
      lifetime = p.request.lifetime ∨
      RegistrationRequestReply.findDuplicate s p.request = some (some lifetime)) →
      lifetime = n.lifetime r := by
    rintro lifetime (⟨-,hlife⟩ | hfound)
    · rw [hlife,h.lifetime]
    · rw [RegistrationRequestReply.findDuplicate_eq,h.homeAddr,h.id1,h.id2] at hfound
      obtain ⟨entry,hentry,hsame⟩ := Option.bind_eq_some_iff.mp (Option.some.inj hfound)
      obtain ⟨hids,hlife⟩ := Option.ite_none_right_eq_some.mp hsame
      cases hlife
      exact hdup entry hentry hids.1 hids.2.1
  obtain ⟨t,out,hpush,hpushed⟩ := RegistrationRequestReply.push_pushed true s p
  cases hpushed with
  | ignored hnot => exact absurd hcode (hnot h.isRequest rfl)
  | bound _ _ _ hl lifetime hd =>
    have hne : n.lifetime r ≠ 0 := by
      rw [← h.lifetime]
      exact hl
    rw [hlifetime lifetime hd] at hpush
    refine ⟨_,0,hpush,?_,by rw [if_neg hne],rfl,rfl⟩
    rw [RegistrationRequestReply.bind_table,h.homeAddr,if_pos rfl,h.coAddr,h.lifetime,h.id1,h.id2,bindingOf,
      if_neg hne]
  | unbound _ _ _ hl lifetime hd =>
    have hzero : n.lifetime r = 0 := by
      rw [← h.lifetime]
      exact hl
    rw [hlifetime lifetime hd] at hpush
    refine ⟨_,1,hpush,?_,by rw [if_pos hzero],?_,?_⟩
    · rw [RegistrationRequestReply.unbind_table,h.homeAddr,if_pos rfl,bindingOf,if_pos hzero]
    · unfold RegistrationRequestReply.unbind
      split <;> rfl
    · unfold RegistrationRequestReply.unbind
      split <;> rfl

theorem push_grants {s : MobileNode} {front back : List Request} (h : Grants (registrant s) r p)
    (hrecords : s.currentRequests = front ++ r :: back)
    (hother : ∀ q ∈ front ++ back, ¬(q.id1 = r.id1 ∧ q.id2 = r.id2 ∧ q.port = r.port)) :
    RegistrationRequestSource.push s p = accept p s r := by
  have hno : ∀ (t : MobileNode), ∀ q ∈ front ++ back, answers t p q = false := by
    intro t q hq
    rw [← Bool.not_eq_true]
    intro hans
    simp only [answers,Bool.and_eq_true,beq_iff_eq,h.id1,h.id2,h.port] at hans
    exact hother q hq ⟨hans.1.1.1.symm,hans.1.1.2.symm,hans.1.2.symm⟩
  have hyes : answers s p r = true := by
    simp only [answers,h.id1,h.id2,h.port,h.homeAgent,registrant,beq_self_eq_true,Bool.and_self]
  have hlen : ¬p.length < 48 := by have := h.isReply.1; omega
  rw [RegistrationRequestSource.push,if_neg hlen,if_pos h.isReply.2,if_pos (Or.inl h.code),hrecords,
    List.foldl_append,List.foldl_cons,
    RegistrationRequestSource.foldl_unanswered (fun q hq => hno s q (List.mem_append_left _ hq)),hyes,if_pos rfl]
  exact RegistrationRequestSource.foldl_unanswered (fun q hq => hno _ q (List.mem_append_right _ hq))

theorem accept_away (s : MobileNode) (h : Grants n r p) (hlife : n.lifetime r ≠ 0)
    (hnew : r.remainingLifetime = r.requestedLifetime) :
    accept p s r =
      { s with home := false, connected := true, currPrivateAddr := r.ipDst, currCoa := r.coa,
               remainingConnectionTime := r.requestedLifetime, timer2Scheduled := true } := by
  have hasked : n.lifetime r = r.requestedLifetime := by
    unfold Registrant.lifetime at hlife ⊢
    split at hlife
    · exact absurd rfl hlife
    · rename_i haway
      rw [if_neg haway]
  have hreply : p.reply.lifetime = r.requestedLifetime := h.lifetime.trans hasked
  have hne : ¬p.reply.lifetime = 0 := by rwa [h.lifetime]
  rw [accept,if_neg hne]
  simp [hreply,hnew]

theorem registrant_accept (p : Packet) (s : MobileNode) (r : Request) :
    registrant (accept p s r) = registrant s := by
  unfold accept
  split <;> rfl

theorem currentRequests_accept (p : Packet) (s : MobileNode) (r : Request) :
    (accept p s r).currentRequests = s.currentRequests := by
  unfold accept
  split <;> rfl

theorem currCoa_accept (p : Packet) (s : MobileNode) (r : Request) : (accept p s r).currCoa = r.coa := by
  unfold accept
  split <;> rfl

theorem home_accept (p : Packet) (s : MobileNode) (r : Request) :
    (accept p s r).home = true ↔ p.reply.lifetime = 0 := by
  unfold accept
  split
  · rename_i hzero
    exact iff_of_true rfl hzero
  · rename_i hzero
    exact iff_of_false Bool.false_ne_true hzero

theorem accept_home (s : MobileNode) (h : Grants n r p) (hlife : n.lifetime r = 0) :
    accept p s r =
      { s with home := true, remainingConnectionTime := 0, currPrivateAddr := r.ipDst, currCoa := r.coa } := by
  rw [accept,if_pos (h.lifetime.trans hlife)]

theorem push_denies {s : MobileNode} (h : Denies p) : RegistrationRequestSource.push s p = s := by
  have hlen : ¬p.length < 48 := by have := h.1.1; omega
  rw [RegistrationRequestSource.push,if_neg hlen,if_pos h.1.2,if_neg (not_or.mpr ⟨h.2.1,h.2.2⟩)]

theorem denies_deny {code : UInt16} (s : AgentBase) (p : Packet) (hcode : code ∈ ([69,70,72,66] : List UInt16)) :
    Denies (ForeignAgentReqProcess.deny s p code) := by
  have hreply : (ForeignAgentReqProcess.deny s p code).reply.code = code.toUInt8 := by
    simp [ForeignAgentReqProcess.deny]
  refine ⟨⟨by simp [ForeignAgentReqProcess.deny,Packet.length],by simp [ForeignAgentReqProcess.deny]⟩,?_⟩
  rw [hreply]
  simp only [List.mem_cons,List.not_mem_nil,or_false] at hcode
  rcases hcode with rfl | rfl | rfl | rfl <;> decide

@[simp] theorem ipDst_deny (s : AgentBase) (p : Packet) (code : UInt16) :
    (ForeignAgentReqProcess.deny s p code).ip.ipDst = p.ip.ipSrc := by
  simp [ForeignAgentReqProcess.deny,ForeignAgentReqProcess.replyIp,sealIp]

/-- No packet is both a request and a reply. -/
theorem not_isRequest_of_isReply (h : p.IsReply) : ¬p.IsRequest := by
  intro hrequest
  have htype : (3 : UInt8) = 1 := by rw [← h.2,reply_type_eq,hrequest.2]
  exact absurd htype (by decide)

end Hops
end ClickMobileIP.System
