import ClickMobileIP.Agent.FixedOffsets
import ClickMobileIP.Agent.ForeignAgentReplyProcess

/-! # Checksums of relayed packets

The foreign agent writes new addresses into a request or a reply and computes both checksums
again: the one of the IP header over its fixed part, the one of UDP over as many bytes from
byte 20 on as the message without extensions has. Header length and announced length stay
those of the packet. A receiver sums up what these two say, and the packet passes its test
only if the bytes that one side leaves out make no difference.
-/
namespace ClickMobileIP
open ByteLayout OnesComplement

namespace Packet

/-- What follows the IP header, options included. -/
def datagram (p : Packet) : List UInt8 := p.data.drop p.headerLength

def announced (p : Packet) : UInt16 := ntohs (ClickUdp.layout.read p.datagram).uhUlen

structure LengthsValid (p : Packet) : Prop where
  version : p.ip.ipV = 4
  proto : p.ip.ipP = 17
  header : 20 ≤ p.headerLength
  announced : 8 ≤ p.announced.toNat
  inside : p.headerLength + p.announced.toNat ≤ (ntohs p.ip.ipLen).toNat
  whole : (ntohs p.ip.ipLen).toNat ≤ p.length

def HeaderVerifies (p : Packet) : Prop := clickInCksum (p.data.take p.headerLength) = 0

/-- The test of `CheckUDPHeader` on a packet with a checksum. -/
def UdpVerifies (p : Packet) : Prop :=
  clickInCksumPseudohdr (clickInCksum (p.datagram.take p.announced.toNat)) p.ip (p.data.drop 20)
    p.announced = 0

instance (p : Packet) : Decidable p.HeaderVerifies := inferInstanceAs (Decidable (_ = _))
instance (p : Packet) : Decidable p.UdpVerifies := inferInstanceAs (Decidable (_ = _))

/-- The packets differ at most in the header checksum, the two addresses behind it and the
UDP checksum. -/
def SameMessage (p q : Packet) : Prop :=
  ∀ i, (i < 10 ∨ (20 ≤ i ∧ i < p.headerLength + 6) ∨ p.headerLength + 8 ≤ i) → q.data[i]? = p.data[i]?

/-- `q` is `p` with new addresses and checksums that verify. -/
structure Relayed (p q : Packet) : Prop where
  same : SameMessage p q
  header : q.HeaderVerifies
  udp : q.UdpVerifies

end Packet

def Packet.ipBetween (p : Packet) (src dst : IPAddress) : ClickIp := { p.ip with ipSrc := src, ipDst := dst }

/-- What both elements make of the data of a packet. -/
def readdress (src dst : IPAddress) (cover : ℕ) (p : Packet) : List UInt8 :=
  udpPacket (p.ipBetween src dst) p.udp (p.data.drop 28) cover

/-- The bytes behind the fixed header while the checksum is computed. -/
def blanked (p : Packet) : List UInt8 := p.udp.front ++ (Layout.u16.write 0 ++ p.data.drop 28)

section Readdress
variable {p : Packet} (src dst anno : IPAddress) (cover : ℕ)

/-- The word that ends up at byte 26. -/
def storedSum (src dst : IPAddress) (cover : ℕ) (p : Packet) : UInt16 :=
  clickInCksumPseudohdr (clickInCksum ((blanked p).take cover)) (p.ipBetween src dst)
    (blanked p) (UInt16.ofNat cover)

theorem drop_data (hlen : 28 ≤ p.length) :
    p.data.drop 20 = p.udp.front ++ (Layout.u16.write p.udp.uhSum ++ p.data.drop 28) := by
  have hroom : ClickUdp.layout.size ≤ (p.data.drop 20).length := by
    rw [List.length_drop]
    change 8 ≤ p.length - 20
    omega
  rw [← ClickUdp.layout.write_append_drop hroom,size_click_udp,List.drop_drop]
  exact ClickUdp.write_append p.udp _

theorem readdress_eq : readdress src dst cover p =
    ClickIp.layout.write (sealIp (p.ipBetween src dst)) ++
      (p.udp.front ++ (Layout.u16.write (storedSum src dst cover p) ++ p.data.drop 28)) := by
  have hblank : ClickUdp.layout.write { p.udp with uhSum := 0 } ++ p.data.drop 28 = blanked p :=
    ClickUdp.write_append _ _
  unfold readdress udpPacket sealUdp
  rw [hblank,ClickUdp.write_append]
  rfl

def readdressed (p : Packet) : Packet := ⟨readdress src dst cover p,anno⟩

theorem ip_readdressed :
    (readdressed src dst anno cover p).ip = sealIp (p.ipBetween src dst) := ip_udpPacket ..

theorem headerLength_readdressed : (readdressed src dst anno cover p).headerLength = p.headerLength := by
  rw [Packet.headerLength,ip_readdressed]
  rfl

theorem drop_readdressed : (readdressed src dst anno cover p).data.drop 20 =
    p.udp.front ++ (Layout.u16.write (storedSum src dst cover p) ++ p.data.drop 28) := by
  change (readdress src dst cover p).drop 20 = _
  rw [readdress_eq]
  exact ClickIp.layout.drop_write_append _ _

theorem take_readdressed (hlen : 28 ≤ p.length) :
    (readdressed src dst anno cover p).data.take 10 = p.data.take 10 := by
  have hroom : ClickIp.layout.size ≤ p.data.length := by
    change 20 ≤ p.length
    omega
  have hfront : p.data.take 10 = p.ip.front := by
    rw [← ClickIp.layout.write_append_drop hroom]
    change (ClickIp.layout.write p.ip ++ _).take 10 = _
    rw [ClickIp.write_eq,List.append_assoc]
    exact List.take_left' (ClickIp.length_front _)
  change (readdress src dst cover p).take 10 = _
  rw [readdress_eq,hfront,ClickIp.write_eq,List.append_assoc]
  exact List.take_left' (ClickIp.length_front _)

theorem getElem?_drop_readdressed (hlen : 28 ≤ p.length) {i : ℕ} (hi : i < 6 ∨ 8 ≤ i) :
    ((readdressed src dst anno cover p).data.drop 20)[i]? = (p.data.drop 20)[i]? := by
  rw [drop_readdressed,drop_data hlen]
  rcases hi with hi | hi
  · rw [List.getElem?_append_left (by rw [ClickUdp.length_front]; exact hi),
      List.getElem?_append_left (by rw [ClickUdp.length_front]; exact hi)]
  · rw [← List.append_assoc,← List.append_assoc,List.getElem?_append_right (by simpa using hi),
      List.getElem?_append_right (by simpa using hi)]
    simp

theorem drop_readdressed_eq (hlen : 28 ≤ p.length) :
    (readdressed src dst anno cover p).data.drop 20 = p.data.drop 20 ↔
      storedSum src dst cover p = p.udp.uhSum := by
  rw [drop_readdressed,drop_data hlen]
  constructor
  · intro h
    have hword := List.append_cancel_right (List.append_cancel_left h)
    have hread := congrArg Layout.u16.read hword
    rwa [Layout.read_write_self,Layout.read_write_self] at hread
  · intro h
    rw [h]

/-- With options the word at byte 26 is not the UDP checksum, so it has to be right already. -/
theorem sameMessage_readdressed (hlen : 28 ≤ p.length) (hheader : 20 ≤ p.headerLength) :
    Packet.SameMessage p (readdressed src dst anno cover p) ↔
      p.ip.ipHl = 5 ∨ storedSum src dst cover p = p.udp.uhSum := by
  constructor
  · intro h
    by_cases hplain : p.ip.ipHl = 5
    · exact Or.inl hplain
    right
    have hlong : 24 ≤ p.headerLength := by
      have hne : p.ip.ipHl.toNat ≠ 5 := fun h => hplain (BitVec.eq_of_toNat_eq h)
      unfold Packet.headerLength at hheader ⊢
      omega
    apply (drop_readdressed_eq src dst anno cover hlen).mp
    apply List.ext_getElem?
    intro i
    by_cases hi : i < 6 ∨ 8 ≤ i
    · exact getElem?_drop_readdressed src dst anno cover hlen hi
    · rw [List.getElem?_drop,List.getElem?_drop]
      exact h (20 + i) (Or.inr (Or.inl ⟨by omega,by omega⟩))
  · intro h i hi
    by_cases hfront : i < 10
    · rw [← List.getElem?_take_of_lt hfront,take_readdressed src dst anno cover hlen,
        List.getElem?_take_of_lt hfront]
    obtain ⟨j,rfl⟩ : ∃ j, i = 20 + j := ⟨i - 20,by omega⟩
    rw [← List.getElem?_drop,← List.getElem?_drop]
    rcases h with h | h
    · have hlength := Packet.headerLength_plain h
      exact getElem?_drop_readdressed src dst anno cover hlen (by omega)
    · rw [(drop_readdressed_eq src dst anno cover hlen).mpr h]

/-- The element sums up twenty bytes of the header, so the options have to sum up to nothing. -/
theorem headerVerifies_readdressed (hv : p.ip.ipV = 4) (hheader : 20 ≤ p.headerLength) :
    (readdressed src dst anno cover p).HeaderVerifies ↔
      sumWords (((readdressed src dst anno cover p).data.drop 20).take (p.headerLength - 20)) % 65535 = 0 := by
  have hheader60 : p.headerLength ≤ 60 := by
    have hl := p.ip.ipHl.isLt
    unfold Packet.headerLength
    omega
  have hfixed : (readdressed src dst anno cover p).data.take 20 =
      ClickIp.layout.write (sealIp (p.ipBetween src dst)) := by
    change (readdress src dst cover p).take 20 = _
    rw [readdress_eq]
    exact ClickIp.layout.take_write_append _ _
  have hwhole : (readdressed src dst anno cover p).data.take p.headerLength =
      ClickIp.layout.write (sealIp (p.ipBetween src dst)) ++
        ((readdressed src dst anno cover p).data.drop 20).take (p.headerLength - 20) := by
    rw [← hfixed,← List.take_add]
    congr 1
    omega
  have hopts := sumWords_lt (((readdressed src dst anno cover p).data.drop 20).take (p.headerLength - 20))
  have hoptsLen := List.length_take_le (p.headerLength - 20) ((readdressed src dst anno cover p).data.drop 20)
  have hbound := sumWords_lt (ClickIp.layout.write (sealIp (p.ipBetween src dst)))
  rw [Layout.length_write,size_click_ip] at hbound
  obtain ⟨hpos,hsealed⟩ := sumWords_sealIp (p.ipBetween src dst) hv
  rw [Packet.HeaderVerifies,headerLength_readdressed,hwhole]
  rw [clickInCksum_eq_zero,sumWords_append _ ⟨10,Layout.length_write _ _⟩]
  · omega
  · rw [sumWords_append _ ⟨10,Layout.length_write _ _⟩]
    omega
  · rw [sumWords_append _ ⟨10,Layout.length_write _ _⟩]
    omega

theorem storedSum_balances (hproto : p.ip.ipP = 17) (hcover : cover ≤ 65535) :
    (udpSum ((blanked p).take cover) (p.ipBetween src dst) (blanked p) (UInt16.ofNat cover) +
      (storedSum src dst cover p).toNat) % 65535 = 0 := by
  have hlen := List.length_take_le cover (blanked p)
  have hnew : (p.ipBetween src dst).ipP = 17 := hproto
  exact ((clickInCksumPseudohdr_eq_iff (blanked p) (UInt16.ofNat cover) (by omega) hnew _).mp rfl).1

/-- Without options: both sums start at byte 20, and the bytes and the length that each
side takes have to come to the same. -/
def Balanced (cover : ℕ) (p : Packet) : Prop :=
  (sumWords ((p.data.drop 20).take p.announced.toNat) + (htons p.announced).toNat) % 65535 =
    (sumWords ((p.data.drop 20).take cover) + (htons (UInt16.ofNat cover)).toNat) % 65535

instance (cover : ℕ) (p : Packet) : Decidable (Balanced cover p) := inferInstanceAs (Decidable (_ = _))

/-- With options: the word at byte 26 is already the one the element stores, the options
sum up to nothing, and the UDP checksum fits the new addresses as it is. -/
structure Untouched (src dst : IPAddress) (cover : ℕ) (p : Packet) : Prop where
  word : p.udp.uhSum ≠ 65535
  stored : udpSum ((p.data.drop 20).take cover) (p.ipBetween src dst) (blanked p)
    (UInt16.ofNat cover) % 65535 = 0
  options : sumWords ((p.data.drop 20).take (p.headerLength - 20)) % 65535 = 0
  udp : udpSum (p.datagram.take p.announced.toNat) (p.ipBetween src dst) (p.data.drop 20)
    p.announced % 65535 = 0

theorem sumWords_take_data (hlen : 28 ≤ p.length) {n : ℕ} (hn : 8 ≤ n) :
    sumWords ((p.data.drop 20).take n) = sumWords ((blanked p).take n) + p.udp.uhSum.toNat := by
  rw [drop_data hlen]
  exact sumWords_take_word ⟨3,ClickUdp.length_front _⟩ _ _ (by rw [ClickUdp.length_front]; exact hn)

theorem sumWords_take_readdressed {n : ℕ} (hn : 8 ≤ n) :
    sumWords (((readdressed src dst anno cover p).data.drop 20).take n) =
      sumWords ((blanked p).take n) + (storedSum src dst cover p).toNat := by
  rw [drop_readdressed]
  exact sumWords_take_word ⟨3,ClickUdp.length_front _⟩ _ _ (by rw [ClickUdp.length_front]; exact hn)

theorem udpVerifies_readdressed (hproto : p.ip.ipP = 17) :
    (readdressed src dst anno cover p).UdpVerifies ↔
      udpSum ((readdressed src dst anno cover p).datagram.take (readdressed src dst anno cover p).announced.toNat)
        (sealIp (p.ipBetween src dst)) ((readdressed src dst anno cover p).data.drop 20)
        (readdressed src dst anno cover p).announced % 65535 = 0 := by
  have hlen := List.length_take_le (readdressed src dst anno cover p).announced.toNat
    (readdressed src dst anno cover p).datagram
  have hlt := (readdressed src dst anno cover p).announced.toNat_lt
  have hnew : (sealIp (p.ipBetween src dst)).ipP = 17 := hproto
  rw [Packet.UdpVerifies,ip_readdressed]
  exact clickInCksumPseudohdr_eq_zero _ _ (by omega) hnew

theorem relayed_plain (hlen : 28 ≤ p.length) (hvalid : p.LengthsValid) (hplain : p.ip.ipHl = 5)
    (hcover : 8 ≤ cover) (hcover' : cover ≤ 65535) :
    p.Relayed (readdressed src dst anno cover p) ↔ Balanced cover p := by
  have hlength := Packet.headerLength_plain hplain
  have hsame := (sameMessage_readdressed src dst anno cover hlen hvalid.header).mpr (Or.inl hplain)
  have hheader := (headerVerifies_readdressed src dst anno cover hvalid.version hvalid.header).mpr
    (by rw [hlength]; rfl)
  have hdatagram : (readdressed src dst anno cover p).datagram =
      (readdressed src dst anno cover p).data.drop 20 := by
    rw [Packet.datagram,headerLength_readdressed,hlength]
  have hannounced : (readdressed src dst anno cover p).announced = p.announced := by
    have hudp : (readdressed src dst anno cover p).udp.uhUlen = p.udp.uhUlen := by
      rw [readdressed,readdress,udp_udpPacket]
      rfl
    rw [Packet.announced,Packet.announced,hdatagram,Packet.datagram,hlength]
    exact congrArg ntohs hudp
  have hbalance := storedSum_balances src dst cover hvalid.proto hcover'
  have hverifies : (readdressed src dst anno cover p).UdpVerifies ↔ Balanced cover p := by
    rw [udpVerifies_readdressed src dst anno cover hvalid.proto,hannounced,hdatagram,udpSum,
      sumWords_take_readdressed src dst anno cover hvalid.announced,Balanced,
      sumWords_take_data hlen hvalid.announced,sumWords_take_data hlen hcover]
    have hnew : pseudoDst (p.ipBetween src dst) (blanked p) = dst := if_pos hplain
    have hsealed : pseudoDst (sealIp (p.ipBetween src dst))
        ((readdressed src dst anno cover p).data.drop 20) = dst := if_pos hplain
    rw [udpSum,hnew] at hbalance
    rw [hsealed]
    simp only [pseudoSum,sealIp] at hbalance ⊢
    omega
  exact ⟨fun h => hverifies.mp h.udp,fun h => ⟨hsame,hheader,hverifies.mpr h⟩⟩

theorem relayed_options (hlen : 28 ≤ p.length) (hvalid : p.LengthsValid) (hoptions : p.ip.ipHl ≠ 5)
    (hcover : 8 ≤ cover) (hcover' : cover ≤ 65535) :
    p.Relayed (readdressed src dst anno cover p) ↔ Untouched src dst cover p := by
  have hsame := sameMessage_readdressed src dst anno cover hlen hvalid.header
  have hword : storedSum src dst cover p = p.udp.uhSum ↔
      udpSum ((p.data.drop 20).take cover) (p.ipBetween src dst) (blanked p)
        (UInt16.ofNat cover) % 65535 = 0 ∧ p.udp.uhSum ≠ 65535 := by
    have htake := List.length_take_le cover (blanked p)
    have hnew : (p.ipBetween src dst).ipP = 17 := hvalid.proto
    rw [storedSum,clickInCksumPseudohdr_eq_iff _ _ (by omega) hnew,udpSum,udpSum,sumWords_take_data hlen hcover,
      Nat.add_right_comm]
  -- Once the word at byte 26 is the old one, nothing behind the fixed header has changed.
  have hrest : storedSum src dst cover p = p.udp.uhSum →
      ((readdressed src dst anno cover p).HeaderVerifies ↔
        sumWords ((p.data.drop 20).take (p.headerLength - 20)) % 65535 = 0) ∧
      ((readdressed src dst anno cover p).UdpVerifies ↔
        udpSum (p.datagram.take p.announced.toNat) (p.ipBetween src dst) (p.data.drop 20)
          p.announced % 65535 = 0) := by
    intro hstored
    have hdrop := (drop_readdressed_eq src dst anno cover hlen).mpr hstored
    have hdatagram : (readdressed src dst anno cover p).datagram = p.datagram := by
      obtain ⟨k,hk⟩ : ∃ k, p.headerLength = 20 + k := ⟨p.headerLength - 20,by have := hvalid.header; omega⟩
      rw [Packet.datagram,Packet.datagram,headerLength_readdressed,hk,← List.drop_drop,hdrop,List.drop_drop]
    constructor
    · rw [headerVerifies_readdressed src dst anno cover hvalid.version hvalid.header,hdrop]
    · rw [udpVerifies_readdressed src dst anno cover hvalid.proto,Packet.announced,hdatagram,hdrop]
      rfl
  constructor
  · intro h
    have hstored := (hsame.mp h.same).resolve_left hoptions
    obtain ⟨hheader,hudp⟩ := hrest hstored
    exact ⟨(hword.mp hstored).2,(hword.mp hstored).1,hheader.mp h.header,hudp.mp h.udp⟩
  · intro h
    have hstored := hword.mpr ⟨h.stored,h.word⟩
    obtain ⟨hheader,hudp⟩ := hrest hstored
    exact ⟨hsame.mpr (Or.inr hstored),hheader.mpr h.options,hudp.mpr h.udp⟩

/-- The bytes that a receiver sums up and the element does not, or the other way round, make
no difference. -/
def SumsAgree (src dst : IPAddress) (cover : ℕ) (p : Packet) : Prop :=
  (p.ip.ipHl = 5 ∧ Balanced cover p) ∨ (p.ip.ipHl ≠ 5 ∧ Untouched src dst cover p)

theorem relayed_iff (hlen : 28 ≤ p.length) (hvalid : p.LengthsValid) (hcover : 8 ≤ cover)
    (hcover' : cover ≤ 65535) :
    p.Relayed (readdressed src dst anno cover p) ↔ SumsAgree src dst cover p := by
  by_cases h : p.ip.ipHl = 5
  · rw [relayed_plain src dst anno cover hlen hvalid h hcover hcover']
    exact ⟨fun hb => Or.inl ⟨h,hb⟩,fun hor => (hor.resolve_right (fun hu => hu.1 h)).2⟩
  · rw [relayed_options src dst anno cover hlen hvalid h hcover hcover']
    exact ⟨fun hu => Or.inr ⟨h,hu⟩,fun hor => (hor.resolve_left (fun hb => h hb.1)).2⟩

end Readdress

namespace ForeignAgent

/-- For every packet with valid lengths, whatever its checksums, its extensions and its
options: the relayed request and the forwarded reply differ from the incoming packet in
addresses and checksums only and pass both checksum tests exactly if the sums agree. -/
theorem relayed_checksums_iff (alloc : Bool) (uninit : UInt16) (s : AgentBase) {p : Packet}
    (hvalid : p.LengthsValid) :
    (ForeignAgentReqProcess.Admitted s p →
      ∃ t q, ForeignAgentReqProcess.push alloc s p = (t,[⟨1,q⟩]) ∧
        (p.Relayed q ↔ SumsAgree s.publicAddr p.request.homeAgent 32 p)) ∧
    (p.IsReply →
      ∃ t q, ForeignAgentReplyProcess.push uninit s p = some (t,[⟨0,q⟩]) ∧
        (p.Relayed q ↔ SumsAgree s.privateAddr p.reply.homeAddr 28 p)) := by
  constructor
  · intro hadmitted
    have hlen := hadmitted.1.1
    refine ⟨_,_,ForeignAgentReqProcess.push_admitted alloc hadmitted,?_⟩
    exact relayed_iff s.publicAddr p.request.homeAgent p.request.homeAgent 32 (by omega) hvalid (by decide)
      (by decide)
  · intro hreply
    have hlen := hreply.1
    refine ⟨_,_,ForeignAgentReplyProcess.push_reply uninit hreply,?_⟩
    exact relayed_iff s.privateAddr p.reply.homeAddr p.reply.homeAddr 28 (by omega) hvalid (by decide)
      (by decide)

def datagramWith (src dst : IPAddress) (payload : List UInt8) : Packet where
  data := udpPacket
    { ipV := 4, ipHl := 5, ipLen := htons (UInt16.ofNat (28 + payload.length)), ipTtl := 64, ipP := 17,
      ipSrc := src, ipDst := dst }
    { uhSport := htons 1001, uhDport := htons 434, uhUlen := htons (UInt16.ofNat (8 + payload.length)) }
    payload (8 + payload.length)

/-- A request of node 9 with the bytes of an extension behind it. -/
def requestWith (extension : List UInt8) : Packet :=
  datagramWith 9 6 (RegistrationRequestPacketheader.layout.write
    { type := 1, lifetime := htons 25, homeAddr := 9, homeAgent := 1, coAddr := 6, id1 := 3, id2 := 4 } ++
    extension)

def replyWith (extension : List UInt8) : Packet :=
  datagramWith 1 5 (RegistrationRequestReplyPacketheader.layout.write
    { type := 3, lifetime := htons 25, homeAddr := 9, homeAgent := 1, id1 := 3, id2 := 4 } ++ extension)

theorem relayed_checksums_sample :
    (∃ t q, ForeignAgentReqProcess.push true (AgentBase.configure 5 6 25) (requestWith []) = (t,[⟨1,q⟩]) ∧
      (requestWith []).Relayed q) ∧
    ∃ t q, ForeignAgentReplyProcess.push 0 (AgentBase.configure 5 6 25) (replyWith []) = some (t,[⟨0,q⟩]) ∧
      (replyWith []).Relayed q := by
  constructor
  · have hvalid : (requestWith []).LengthsValid :=
      ⟨by decide +kernel,by decide +kernel,by decide +kernel,by decide +kernel,by decide +kernel,by decide +kernel⟩
    obtain ⟨t,q,hpush,hiff⟩ := (relayed_checksums_iff true 0 (AgentBase.configure 5 6 25) hvalid).1
      (by decide +kernel)
    exact ⟨t,q,hpush,hiff.mpr (Or.inl ⟨by decide +kernel,by decide +kernel⟩)⟩
  · have hvalid : (replyWith []).LengthsValid :=
      ⟨by decide +kernel,by decide +kernel,by decide +kernel,by decide +kernel,by decide +kernel,by decide +kernel⟩
    obtain ⟨t,q,hpush,hiff⟩ := (relayed_checksums_iff true 0 (AgentBase.configure 5 6 25) hvalid).2
      (by decide +kernel)
    exact ⟨t,q,hpush,hiff.mpr (Or.inl ⟨by decide +kernel,by decide +kernel⟩)⟩

/-- An extension of four bytes is left out of the checksum, although the UDP header still
announces it. -/
theorem extension_not_summed :
    ForeignAgentReqProcess.Admitted (AgentBase.configure 5 6 25) (requestWith [32,2,7,7]) ∧
      (requestWith [32,2,7,7]).LengthsValid ∧ (requestWith [32,2,7,7]).HeaderVerifies ∧
      (requestWith [32,2,7,7]).UdpVerifies ∧
      ∃ t q, ForeignAgentReqProcess.push true (AgentBase.configure 5 6 25) (requestWith [32,2,7,7]) =
        (t,[⟨1,q⟩]) ∧ ¬q.UdpVerifies ∧ ¬(requestWith [32,2,7,7]).Relayed q := by
  have hadmitted : ForeignAgentReqProcess.Admitted (AgentBase.configure 5 6 25) (requestWith [32,2,7,7]) := by
    decide +kernel
  have hfails : ¬(ForeignAgentReqProcess.relay (AgentBase.configure 5 6 25)
      (requestWith [32,2,7,7])).UdpVerifies := by decide +kernel
  refine ⟨hadmitted,
    ⟨by decide +kernel,by decide +kernel,by decide +kernel,by decide +kernel,by decide +kernel,by decide +kernel⟩,
    by decide +kernel,by decide +kernel,_,_,ForeignAgentReqProcess.push_admitted true hadmitted,hfails,?_⟩
  exact fun h => hfails h.udp

end ForeignAgent
end ClickMobileIP
