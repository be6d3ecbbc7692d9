import ClickMobileIP.Agent.AgentAdvertiser
import ClickMobileIP.Agent.RelayedChecksums
import ClickMobileIP.Agent.RegistrationRequestReply
import ClickMobileIP.Node.RegistrationRequestSource

/-! # Packets fresh from their builders

Every builder clears its packet, fills in the headers and computes the checksums on the way,
the builders of the two ICMP messages while the message is still zero. Whatever the fields
hold, the packets pass the checks on the way to their receivers. Three of the builders make
registration replies; two of them agree on the bytes, the denial is as long as a request.
-/
namespace ClickMobileIP
open ByteLayout OnesComplement

/-- An ICMP message that passes both header checks as it is and leaves the filter on output 1. -/
structure Packet.PassesIcmp (filter : Packet → List Emission) (p : Packet) : Prop where
  header : CheckIPHeader.simpleAction {} p = some p
  filter : filter p = [⟨1,p⟩]
  icmp : CheckICMPHeader.simpleAction p = some p

/-- A UDP datagram that passes the header check as it is, fills its IP packet and carries a
checksum that verifies. -/
structure Packet.PassesUdp (p : Packet) : Prop where
  header : CheckIPHeader.simpleAction {} p = some p
  announced : p.headerLength + p.announced.toNat = (ntohs p.ip.ipLen).toNat
  udp : p.UdpVerifies

section Sealed
variable {p : Packet} {iph : ClickIp} {message : List UInt8}

theorem ip_sealed (hdata : p.data = ClickIp.layout.write (sealIp iph) ++ message) : p.ip = sealIp iph := by
  rw [Packet.ip,hdata]
  exact ClickIp.layout.read_write _ _

theorem simpleAction_sealed (hdata : p.data = ClickIp.layout.write (sealIp iph) ++ message)
    (hversion : iph.ipV = 4) (hhl : iph.ipHl = 5) (hlen : (ntohs iph.ipLen).toNat = 20 + message.length)
    (hanno : p.dstIpAnno = iph.ipDst) : CheckIPHeader.simpleAction {} p = some p := by
  have hip := ip_sealed hdata
  have hlength : p.length = 20 + message.length := by
    rw [Packet.length,hdata,List.length_append,Layout.length_write,size_click_ip]
  have htake : p.data.take 20 = ClickIp.layout.write (sealIp iph) := by
    rw [hdata]
    exact ClickIp.layout.take_write_append _ _
  apply CheckIPHeader.simpleAction_self
  · omega
  · rw [hip]
    exact hversion
  · rw [hip]
    exact hhl
  · rw [hip,hlength]
    exact hlen
  · rw [htake]
    exact clickInCksum_sealIp iph hversion
  · rw [hip]
    exact hanno

/-- The messages of the two builders are of types without a length of their own. -/
theorem simpleAction_message (hdata : p.data = ClickIp.layout.write (sealIp iph) ++ message)
    (hhl : iph.ipHl = 5) (hproto : iph.ipP = 1) (hlen : 8 ≤ message.length)
    (htype : Layout.u8.read message ∈ ([9,10] : List UInt8)) (hsum : clickInCksum message = 0) :
    CheckICMPHeader.simpleAction p = some p := by
  have hip := ip_sealed hdata
  have hdrop : p.data.drop (4 * p.ip.ipHl.toNat) = message := by
    have hheader : 4 * p.ip.ipHl.toNat = 20 := by
      rw [hip]
      change 4 * iph.ipHl.toNat = 20
      rw [hhl]
      rfl
    rw [hheader,hdata]
    exact ClickIp.layout.drop_write_append _ _
  have hp : p.ip.ipP = 1 := by
    rw [hip]
    exact hproto
  have hshort : ¬message.length < 8 := by omega
  unfold CheckICMPHeader.simpleAction
  rw [hdrop]
  simp only [hp,hshort,hsum,ne_eq,not_true_eq_false,↓reduceIte]
  rcases List.mem_pair.mp htype with h | h
  · rw [h]
    rfl
  · rw [h]
    rfl

end Sealed

theorem clickInCksum_message {type : UInt8} (htype : type ≠ 0) (code : UInt8) {rest : List UInt8}
    (hlen : rest.length ≤ 65533) :
    clickInCksum ([type,code] ++ (Layout.u16.write
      (clickInCksum ([type,code] ++ (Layout.u16.write 0 ++ rest))) ++ rest)) = 0 := by
  apply clickInCksum_verify ⟨1,rfl⟩
  · rw [List.length_append]
    change 2 + rest.length ≤ 65535
    omega
  · have hpos : type.toNat ≠ 0 := fun h => htype (UInt8.toNat_inj.mp h)
    simp only [sumWords]
    omega

section Udp
variable {iph : ClickIp} {udph : ClickUdp} {payload : List UInt8} {cover : ℕ}

/-- Header and payload fit together: both lengths and the checksum take in the whole payload. -/
structure Fits (iph : ClickIp) (udph : ClickUdp) (payload : List UInt8) (cover : ℕ) : Prop where
  version : iph.ipV = 4
  headerLength : iph.ipHl = 5
  proto : iph.ipP = 17
  whole : 8 + payload.length = cover
  ipLen : (ntohs iph.ipLen).toNat = 20 + cover
  uhUlen : (ntohs udph.uhUlen).toNat = cover

theorem headerLength_udpPacket (h : Fits iph udph payload cover) (anno : IPAddress) :
    (Packet.mk (udpPacket iph udph payload cover) anno).headerLength = 20 := by
  apply Packet.headerLength_plain
  rw [ip_udpPacket]
  exact h.headerLength

theorem announced_udpPacket (h : Fits iph udph payload cover) (anno : IPAddress) :
    (Packet.mk (udpPacket iph udph payload cover) anno).announced = ntohs udph.uhUlen := by
  rw [Packet.announced,Packet.datagram,headerLength_udpPacket h]
  change ntohs (Packet.mk (udpPacket iph udph payload cover) anno).udp.uhUlen = _
  rw [udp_udpPacket]
  rfl

theorem udpVerifies_udpPacket (h : Fits iph udph payload cover) (anno : IPAddress) :
    (Packet.mk (udpPacket iph udph payload cover) anno).UdpVerifies := by
  have hbound := (ntohs udph.uhUlen).toNat_lt
  have hulen := h.uhUlen
  have hlength : ∀ w : UInt16, (udph.front ++ (Layout.u16.write w ++ payload)).length = cover := by
    intro w
    rw [← h.whole,List.length_append,List.length_append,ClickUdp.length_front,Layout.length_write]
    simp only [Layout.size_u16]
    omega
  -- The builder sums up the datagram with an empty checksum.
  have hblank : ClickUdp.layout.write { udph with uhSum := 0 } ++ payload =
      udph.front ++ (Layout.u16.write 0 ++ payload) := ClickUdp.write_append _ _
  have hstored : clickInCksumPseudohdr (clickInCksum (udph.front ++ (Layout.u16.write 0 ++ payload)))
      (sealIp iph) (udph.front ++ (Layout.u16.write 0 ++ payload)) (ntohs udph.uhUlen) =
      (sealUdp (sealIp iph) udph payload cover).uhSum := by
    rw [sealUdp]
    dsimp only
    rw [hblank,List.take_of_length_le (by rw [hlength]),← hulen,UInt16.ofNat_toNat]
  have hproto : (sealIp iph).ipP = 17 := h.proto
  have hdst : ∀ opts, pseudoDst (sealIp iph) opts = iph.ipDst := fun _ => if_pos h.headerLength
  rw [Packet.UdpVerifies,announced_udpPacket h,Packet.datagram,headerLength_udpPacket h,ip_udpPacket]
  dsimp only
  rw [datagram_udpPacket,ClickUdp.write_append]
  change clickInCksumPseudohdr (clickInCksum ((udph.front ++ _).take _)) _ (udph.front ++ _) _ = 0
  rw [List.take_of_length_le (by rw [hlength,hulen])]
  exact clickInCksumPseudohdr_verify _ _ ⟨3,udph.length_front⟩ (by rw [hlength]; omega) hproto
    (by rw [hdst,hdst]) hstored

theorem passesUdp_udpPacket (h : Fits iph udph payload cover) {anno : IPAddress} (hanno : anno = iph.ipDst) :
    (Packet.mk (udpPacket iph udph payload cover) anno).PassesUdp := by
  have hlen : (ntohs iph.ipLen).toNat = 20 + (ClickUdp.layout.write
      (sealUdp (sealIp iph) udph payload cover) ++ payload).length := by
    rw [h.ipLen,List.length_append,Layout.length_write,size_click_udp,h.whole]
  refine ⟨simpleAction_sealed rfl h.version h.headerLength hlen hanno,?_,udpVerifies_udpPacket h _⟩
  have hip : (ntohs (sealIp iph).ipLen).toNat = 20 + cover := h.ipLen
  rw [headerLength_udpPacket h,announced_udpPacket h,ip_udpPacket,hip,h.uhUlen]

end Udp

theorem clickInCksum_sealAdvertisement {ah : AdvertisementPacketheader} (htype : ah.type ≠ 0) :
    clickInCksum (AdvertisementPacketheader.layout.write (AgentAdvertiser.sealAdvertisement ah)) = 0 := by
  have hwrite : ∀ ah : AdvertisementPacketheader, AdvertisementPacketheader.layout.write ah =
      [ah.type,ah.code] ++ (Layout.u16.write ah.checksum ++
        (AdvertisementPacketheader.layout.write ah).drop 4) := fun _ => rfl
  have hrest : ∀ c, (AdvertisementPacketheader.layout.write { ah with checksum := c }).drop 4 =
      (AdvertisementPacketheader.layout.write ah).drop 4 := fun _ => rfl
  rw [AgentAdvertiser.sealAdvertisement,hwrite,hwrite { ah with checksum := 0 },hrest,hrest]
  exact clickInCksum_message htype _ (by rw [List.length_drop,Layout.length_write]; decide)

theorem passes_advertisementPacket (a : AgentAdvertiser) (agent : AgentBase) :
    (a.advertisementPacket agent).PassesIcmp AdvFilter.push := by
  have hdata : (a.advertisementPacket agent).data =
      ClickIp.layout.write (sealIp (a.advertisementIp agent)) ++ AdvertisementPacketheader.layout.write
        (AgentAdvertiser.sealAdvertisement (a.advertisementHeader agent)) := by
    rw [← AgentAdvertiser.sealAdvertisementIp_eq]
    rfl
  refine ⟨simpleAction_sealed hdata rfl rfl ?_ rfl,AdvFilter.push_advertisementPacket a agent,?_⟩
  · rw [Layout.length_write,size_advertisement]
    exact congrArg UInt16.toNat (ntohs_htons 48)
  · refine simpleAction_message hdata rfl rfl ?_ ?_ (clickInCksum_sealAdvertisement ?_)
    · rw [Layout.length_write]
      decide
    · exact List.mem_pair.mpr (Or.inl rfl)
    · change (9 : UInt8) ≠ 0
      decide

/-- The zeros behind the header do not count here either. -/
theorem solicitationIp_eq (s : MobileNode) : AgentSolicitation.solicitationIp s =
    sealIp { ipV := 4, ipHl := 5, ipLen := htons 28, ipTtl := 1, ipP := 1, ipSrc := s.myAddress,
             ipDst := 0xffffffff } := by
  unfold AgentSolicitation.solicitationIp sealIp
  dsimp only
  rw [clickInCksum_append_zeros ⟨10,Layout.length_write _ _⟩]

theorem push_solicitationPacket (s : MobileNode) :
    SolicitationFilter.push (AgentSolicitation.solicitationPacket s) =
      [⟨1,AgentSolicitation.solicitationPacket s⟩] := by
  simp [SolicitationFilter.push,AgentSolicitation.solicitationIp,AgentSolicitation.solicitationHeader]

theorem passes_solicitationPacket (s : MobileNode) :
    (AgentSolicitation.solicitationPacket s).PassesIcmp SolicitationFilter.push := by
  have hdata : (AgentSolicitation.solicitationPacket s).data =
      ClickIp.layout.write (sealIp _) ++
        SolicitationPacketheader.layout.write AgentSolicitation.solicitationHeader :=
    congrArg (ClickIp.layout.write · ++ _) (solicitationIp_eq s)
  refine ⟨simpleAction_sealed hdata rfl rfl ?_ rfl,push_solicitationPacket s,?_⟩
  · rw [Layout.length_write,size_solicitation]
    exact congrArg UInt16.toNat (ntohs_htons 28)
  · refine simpleAction_message hdata rfl rfl ?_ ?_ ?_
    · rw [Layout.length_write]
      decide
    · exact List.mem_pair.mpr (Or.inr rfl)
    · exact clickInCksum_message (by decide) _ (by decide)

theorem passes_requestPacket (d : Draw) (s : MobileNode) (a : Advertisement) :
    (RegistrationRequestSource.requestPacket d s a).PassesUdp := by
  refine passesUdp_udpPacket ⟨rfl,rfl,rfl,?_,?_,?_⟩ rfl
  · simp
  · simp
  · simp

theorem passes_makeReply (p : Packet) (code lifetime : UInt16) :
    (RegistrationRequestReply.makeReply p code lifetime).PassesUdp := by
  refine passesUdp_udpPacket ⟨rfl,rfl,rfl,?_,?_,?_⟩ rfl
  · simp
  · simp
  · simp

theorem passes_deny (s : AgentBase) (p : Packet) (code : UInt16) :
    (ForeignAgentReqProcess.deny s p code).PassesUdp := by
  refine passesUdp_udpPacket ⟨rfl,rfl,rfl,?_,?_,?_⟩ rfl
  · simp
  · simp [ForeignAgentReqProcess.replyIp]
  · simp

theorem passes_timeoutReply (it : ListItem) : (ForeignAgentReqProcess.timeoutReply it).PassesUdp := by
  refine passesUdp_udpPacket ⟨rfl,rfl,rfl,?_,?_,?_⟩ rfl
  · simp
  · simp [ForeignAgentReqProcess.replyIp]
  · simp

section Emitted
variable {s t : AgentBase} {p q : Packet} {f : RegistrationRequestReplyPacketheader}

inductive ReplyEncoder
  | reply
  | denial
  | timeout
  deriving DecidableEq, Repr

inductive Emits : ReplyEncoder → RegistrationRequestReplyPacketheader → Packet → Prop
  | reply {alloc : Bool} {s t : AgentBase} {p : Packet} {out : List Emission} {e : Emission}
      {duplicate : Option UInt16} (hpush : RegistrationRequestReply.push alloc s p = some (t,out)) (he : e ∈ out)
      (hd : RegistrationRequestReply.findDuplicate s p.request = some duplicate) :
      Emits .reply
        { type := 3, code := (RegistrationRequestReply.validatePacket s p).toUInt8,
          lifetime := duplicate.getD p.request.lifetime, homeAddr := p.request.homeAddr,
          homeAgent := p.request.homeAgent, id1 := p.request.id1, id2 := p.request.id2 } e.packet
  | denial {alloc : Bool} {s : AgentBase} {p : Packet} {e : Emission} {code : UInt16}
      (he : e ∈ (ForeignAgentReqProcess.push alloc s p).2) (hport : e.port = 0)
      (hcode : (ForeignAgentReqProcess.validatePacket s p).2 = code) :
      Emits .denial
        { type := 3, code := code.toUInt8,
          lifetime := if code = 69 then htons (toUInt16 s.lifetimeReg) else p.request.lifetime,
          homeAddr := p.request.homeAddr, homeAgent := p.request.homeAgent, id1 := p.request.id1,
          id2 := p.request.id2 } e.packet
  | timeout {alloc : ℕ → Bool} {k : ℕ} {it : ListItem} {e : Emission}
      (he : e ∈ (ForeignAgentReqProcess.pendingVisit alloc k it).2) :
      Emits .timeout
        { type := 3, code := 78, lifetime := it.lifetimeReq, homeAddr := it.ipSrc, homeAgent := it.homeAgent,
          id1 := it.id1, id2 := it.id2 } e.packet

theorem emits_push {alloc : Bool} {out : List Emission} {e : Emission}
    (h : RegistrationRequestReply.push alloc s p = some (t,out)) (he : e ∈ out) :
    ∃ f, Emits .reply f e.packet := by
  obtain ⟨duplicate,hd⟩ := RegistrationRequestReply.findDuplicate_isSome s p.request
  exact ⟨_,.reply h he hd⟩

theorem emits_runTimer {alloc : ℕ → Bool} {tick : ForeignAgentReqProcess.Tick} {e : Emission}
    (h : ForeignAgentReqProcess.runTimer alloc s = some tick) (he : e ∈ tick.emitted) :
    ∃ f, Emits .timeout f e.packet := by
  obtain ⟨k,it,hit⟩ := ForeignAgentReqProcess.mem_emitted h he
  exact ⟨_,.timeout hit⟩

theorem Emits.passes {encoder : ReplyEncoder} (h : Emits encoder f q) : q.PassesUdp := by
  cases h with
  | reply hpush he hd =>
    rw [RegistrationRequestReply.mem_push hpush he hd]
    exact passes_makeReply _ _ _
  | denial he hport =>
    rw [ForeignAgentReqProcess.mem_push_denied he hport]
    exact passes_deny _ _ _
  | timeout he =>
    rw [ForeignAgentReqProcess.mem_pendingVisit he]
    exact passes_timeoutReply _

theorem makePacket_passes {d : Draw} (node : MobileNode) (a : Advertisement) (ha : d.alloc = true) :
    ∃ q, (RegistrationRequestSource.makePacket d node a).2 = [⟨0,q⟩] ∧ q.PassesUdp := by
  refine ⟨RegistrationRequestSource.requestPacket d node a,?_,passes_requestPacket d node a⟩
  have hmade : ¬d.alloc = false := by rw [ha]; decide
  rw [RegistrationRequestSource.makePacket,if_neg hmade]

theorem reply_passes (s : AgentBase) (hp : p.IsRequest) (hcode : RegistrationRequestReply.validatePacket s p = 0) :
    ∃ t port q, RegistrationRequestReply.push true s p = some (t,[⟨port,q⟩]) ∧ q.PassesUdp := by
  obtain ⟨t,out,hpush,hpushed⟩ := RegistrationRequestReply.push_pushed true s p
  cases hpushed with
  | ignored h => exact absurd hcode (h hp rfl)
  | bound _ _ _ _ lifetime _ => exact ⟨_,0,_,hpush,passes_makeReply p 0 lifetime⟩
  | unbound _ _ _ _ lifetime _ => exact ⟨_,1,_,hpush,passes_makeReply p 0 lifetime⟩

theorem denial_passes (s : AgentBase) (hp : p.IsRequest) (hno : ¬ForeignAgentReqProcess.Admitted s p) :
    ∃ q, (ForeignAgentReqProcess.push true s p).2 = [⟨0,q⟩] ∧ q.PassesUdp := by
  refine ⟨ForeignAgentReqProcess.deny s p (ForeignAgentReqProcess.validatePacket s p).2,?_,passes_deny s p _⟩
  have hlen : ¬p.length < 52 := by have := hp.1; omega
  have hcode : ¬(ForeignAgentReqProcess.validatePacket s p).2 = 1 := fun h => hno ⟨hp,h⟩
  rw [ForeignAgentReqProcess.push,if_neg hlen,if_neg (not_not.mpr hp.2)]
  simp only [hcode,Bool.true_eq_false,↓reduceIte]

theorem timeout_passes {it : ListItem} (hit : it ∈ s.registrationReq) (hleft : tickDown it.lifetimeRem ≠ 0)
    (hdue : ForeignAgentReqProcess.waitedTooLong { it with lifetimeRem := tickDown it.lifetimeRem } = true) :
    ∃ tick q, ForeignAgentReqProcess.runTimer (fun _ => true) s = some tick ∧ ⟨0,q⟩ ∈ tick.emitted ∧
      q.ip.ipDst = it.ipSrc ∧ q.PassesUdp := by
  refine ⟨_,_,ForeignAgentReqProcess.runTimer_eq s,?_,?_,passes_timeoutReply { it with
    lifetimeRem := tickDown it.lifetimeRem }⟩
  · rw [List.mem_flatMap]
    refine ⟨it,List.mem_reverse.mpr hit,?_⟩
    rw [ForeignAgentReqProcess.reportPending,if_pos ⟨hleft,hdue⟩]
    exact List.mem_singleton_self _
  · rw [ForeignAgentReqProcess.timeoutReply,ip_udpPacket]
    rfl

end Emitted

/-- What each of the six builders makes leaves it and passes the checks of its receiver,
whatever the agents and the node hold, whatever packet came in and whatever was drawn. The
home agent also builds replies that it does not send; `makeReply` covers them. -/
theorem fresh_packets_pass (alloc : Bool) (allocs : ℕ → Bool) (d : Draw) (advertiser : AgentAdvertiser)
    (agent : AgentBase) (node : MobileNode) (a : Advertisement) (p : Packet) :
    (∃ q, (advertiser.createPacket true agent).1 = some q ∧ q.PassesIcmp AdvFilter.push) ∧
    (∃ q, AgentSolicitation.makePacket true node = some q ∧ q.PassesIcmp SolicitationFilter.push) ∧
    (d.alloc = true → ∃ q, (RegistrationRequestSource.makePacket d node a).2 = [⟨0,q⟩] ∧ q.PassesUdp) ∧
    (∀ code lifetime, (RegistrationRequestReply.makeReply p code lifetime).PassesUdp) ∧
    (p.IsRequest → RegistrationRequestReply.validatePacket agent p = 0 →
      ∃ t port q, RegistrationRequestReply.push true agent p = some (t,[⟨port,q⟩]) ∧ q.PassesUdp) ∧
    (∃ t out, RegistrationRequestReply.push alloc agent p = some (t,out) ∧ ∀ e ∈ out, e.packet.PassesUdp) ∧
    (p.IsRequest → ¬ForeignAgentReqProcess.Admitted agent p →
      ∃ q, (ForeignAgentReqProcess.push true agent p).2 = [⟨0,q⟩] ∧ q.PassesUdp) ∧
    (∀ e ∈ (ForeignAgentReqProcess.push alloc agent p).2, e.port = 0 → e.packet.PassesUdp) ∧
    (∀ it ∈ agent.registrationReq, tickDown it.lifetimeRem ≠ 0 →
      ForeignAgentReqProcess.waitedTooLong { it with lifetimeRem := tickDown it.lifetimeRem } = true →
      ∃ tick q, ForeignAgentReqProcess.runTimer (fun _ => true) agent = some tick ∧ ⟨0,q⟩ ∈ tick.emitted ∧
        q.ip.ipDst = it.ipSrc ∧ q.PassesUdp) ∧
    ∃ tick, ForeignAgentReqProcess.runTimer allocs agent = some tick ∧ ∀ e ∈ tick.emitted, e.packet.PassesUdp := by
  obtain ⟨t,out,hpush,-⟩ := RegistrationRequestReply.push_pushed alloc agent p
  obtain ⟨tick,htick,-⟩ := ForeignAgentReqProcess.runTimer_origin allocs agent
  refine ⟨⟨_,rfl,passes_advertisementPacket advertiser agent⟩,⟨_,rfl,passes_solicitationPacket node⟩,
    makePacket_passes node a,passes_makeReply p,reply_passes agent,⟨t,out,hpush,?_⟩,denial_passes agent,?_,
    fun _ => timeout_passes,tick,htick,?_⟩
  · intro e he
    obtain ⟨f,hf⟩ := emits_push hpush he
    exact hf.passes
  · intro e he hport
    exact (Emits.denial he hport rfl).passes
  · intro e he
    obtain ⟨f,hf⟩ := emits_runTimer htick he
    exact hf.passes

section ReplyFormat
variable {f : RegistrationRequestReplyPacketheader} {q : Packet}

/-- The payload is the reply and nothing else, and both headers announce it. -/
structure Announces (f : RegistrationRequestReplyPacketheader) (q : Packet) : Prop where
  payload : q.data.drop 28 = RegistrationRequestReplyPacketheader.layout.write f
  udp : (ntohs q.udp.uhUlen).toNat = 8 + 20
  ip : (ntohs q.ip.ipLen).toNat = 20 + 8 + 20

theorem announces_udpPacket {iph : ClickIp} {udph : ClickUdp} (hip : iph.ipLen = htons 48)
    (hudp : udph.uhUlen = htons 28) (cover : ℕ) (anno : IPAddress) :
    Announces f ⟨udpPacket iph udph (RegistrationRequestReplyPacketheader.layout.write f) cover,anno⟩ := by
  refine ⟨drop_udpPacket ..,?_,?_⟩
  · rw [udp_udpPacket]
    change (ntohs udph.uhUlen).toNat = _
    rw [hudp,ntohs_htons]
    rfl
  · rw [ip_udpPacket]
    change (ntohs iph.ipLen).toNat = _
    rw [hip,ntohs_htons]
    rfl

/-- The four bytes by which a request is longer follow every denial. -/
theorem not_announces_deny (s : AgentBase) (p : Packet) (code : UInt16) :
    ¬Announces f (ForeignAgentReqProcess.deny s p code) := by
  intro h
  have hlen := congrArg List.length h.payload
  rw [ForeignAgentReqProcess.deny,drop_udpPacket,List.length_append,Layout.length_write,Layout.length_write,
    size_reply,List.length_replicate] at hlen
  cases hlen

/-- Two of the three encoders keep to the format, for all values. -/
theorem reply_format_iff {encoder : ReplyEncoder} (h : Emits encoder f q) : Announces f q ↔ encoder ≠ .denial := by
  cases h with
  | reply hpush he hd =>
    refine ⟨fun _ => by decide,fun _ => ?_⟩
    rw [RegistrationRequestReply.mem_push hpush he hd]
    apply announces_udpPacket
    · rfl
    · rfl
  | denial he hport hcode =>
    rw [ForeignAgentReqProcess.mem_push_denied he hport]
    exact ⟨fun h => absurd h (not_announces_deny _ _ _),fun h => absurd rfl h⟩
  | timeout he =>
    rw [ForeignAgentReqProcess.mem_pendingVisit he]
    refine ⟨fun _ => by decide,fun _ => ?_⟩
    apply announces_udpPacket
    · rfl
    · rfl

/-- The home agent's answer to a request for twenty-five seconds. -/
theorem reply_format_home :
    ∃ f q, Emits .reply f q ∧ Announces f q := by
  have he : (⟨0,RegistrationRequestReply.makeReply (ForeignAgent.requestWith []) 0 (htons 25)⟩ : Emission) ∈
      ((RegistrationRequestReply.push true (AgentBase.configure 1 2 25) (ForeignAgent.requestWith [])).map
        Prod.snd).getD [] := by decide +kernel
  obtain ⟨t,out,hpush,-⟩ := RegistrationRequestReply.push_pushed true (AgentBase.configure 1 2 25)
    (ForeignAgent.requestWith [])
  rw [hpush] at he
  obtain ⟨f,hf⟩ := emits_push hpush he
  exact ⟨f,_,hf,(reply_format_iff hf).mpr (by decide)⟩

/-- The denial of a request for twenty-five seconds by an agent that grants twenty. -/
theorem denial_four_bytes_longer :
    Emits .denial
        { type := 3, code := 69, lifetime := htons 20, homeAddr := 9, homeAgent := 1, id1 := 3, id2 := 4 }
        (ForeignAgentReqProcess.deny (AgentBase.configure 5 6 20) (ForeignAgent.requestWith []) 69) ∧
      ((ForeignAgentReqProcess.deny (AgentBase.configure 5 6 20) (ForeignAgent.requestWith []) 69).data.drop
        28).length = 24 ∧
      ¬Announces
        { type := 3, code := 69, lifetime := htons 20, homeAddr := 9, homeAgent := 1, id1 := 3, id2 := 4 }
        (ForeignAgentReqProcess.deny (AgentBase.configure 5 6 20) (ForeignAgent.requestWith []) 69) := by
  have he : (⟨0,ForeignAgentReqProcess.deny (AgentBase.configure 5 6 20) (ForeignAgent.requestWith []) 69⟩ :
      Emission) ∈ (ForeignAgentReqProcess.push true (AgentBase.configure 5 6 20)
        (ForeignAgent.requestWith [])).2 := by decide +kernel
  have hcode : (ForeignAgentReqProcess.validatePacket (AgentBase.configure 5 6 20)
      (ForeignAgent.requestWith [])).2 = 69 := by decide +kernel
  exact ⟨Emits.denial he rfl hcode,by decide +kernel,not_announces_deny _ _ _⟩

end ReplyFormat

end ClickMobileIP
