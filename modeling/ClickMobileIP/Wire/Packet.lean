import ClickMobileIP.Wire.Checksum

/-! # Packets and the headers found in them

A packet is its data and its destination annotation. Elements cast the start of
the data to an IP header and step over it with `iph + 1`, whatever its length
field says, so the accessors below sit at fixed offsets.
-/
namespace ClickMobileIP
open ByteLayout

structure Packet where
  data : List UInt8
  dstIpAnno : IPAddress := 0
  deriving DecidableEq, Repr

structure Emission where
  port : ℕ
  packet : Packet
  deriving DecidableEq, Repr

namespace Packet

def length (p : Packet) : ℕ := p.data.length

def ip (p : Packet) : ClickIp := ClickIp.layout.read p.data

def udp (p : Packet) : ClickUdp := ClickUdp.layout.read (p.data.drop 20)

def request (p : Packet) : RegistrationRequestPacketheader :=
  RegistrationRequestPacketheader.layout.read (p.data.drop 28)

def reply (p : Packet) : RegistrationRequestReplyPacketheader :=
  RegistrationRequestReplyPacketheader.layout.read (p.data.drop 28)

def advertisement (p : Packet) : AdvertisementPacketheader :=
  AdvertisementPacketheader.layout.read (p.data.drop 20)

def solicitation (p : Packet) : SolicitationPacketheader :=
  SolicitationPacketheader.layout.read (p.data.drop 20)

def pull (p : Packet) (len : ℕ) : Packet := { p with data := p.data.drop len }

def take (p : Packet) (len : ℕ) : Packet := { p with data := p.data.take (p.length - len) }

end Packet

section Offsets
variable (p : Packet)

theorem read_ipP : p.ip.ipP = Layout.u8.read (p.data.drop 9) := by
  simp [Packet.ip,ClickIp.layout,Layout.prod,Layout.equiv]

theorem read_ipDst : p.ip.ipDst = Layout.u32.read (p.data.drop 16) := by
  simp [Packet.ip,ClickIp.layout,Layout.prod,Layout.equiv]

theorem read_request_type : p.request.type = Layout.u8.read (p.data.drop 28) := by
  simp [Packet.request,RegistrationRequestPacketheader.layout,Layout.prod,Layout.equiv]

theorem read_request_flags : p.request.flags = Layout.u8.read (p.data.drop 29) := by
  simp [Packet.request,RegistrationRequestPacketheader.layout,Layout.prod,Layout.equiv]

theorem read_request_homeAgent : p.request.homeAgent = Layout.u32.read (p.data.drop 36) := by
  simp [Packet.request,RegistrationRequestPacketheader.layout,Layout.prod,Layout.equiv]

theorem read_reply_type : p.reply.type = Layout.u8.read (p.data.drop 28) := by
  simp [Packet.reply,RegistrationRequestReplyPacketheader.layout,Layout.prod,Layout.equiv]

end Offsets

/-- The header checksum, computed over a zero checksum field. -/
def sealIp (iph : ClickIp) : ClickIp :=
  { iph with ipSum := clickInCksum (ClickIp.layout.write { iph with ipSum := 0 }) }

def ClickIp.front (iph : ClickIp) : List UInt8 :=
  Layout.nibbles.write (iph.ipHl,iph.ipV) ++ (Layout.u8.write iph.ipTos ++
    (Layout.u16.write iph.ipLen ++ (Layout.u16.write iph.ipId ++ (Layout.u16.write iph.ipOff ++
    (Layout.u8.write iph.ipTtl ++ Layout.u8.write iph.ipP)))))

@[simp] theorem ClickIp.length_front (iph : ClickIp) : iph.front.length = 10 := by simp [front]

theorem ClickIp.write_eq (iph : ClickIp) : ClickIp.layout.write iph =
    iph.front ++ (Layout.u16.write iph.ipSum ++ (Layout.u32.write iph.ipSrc ++ Layout.u32.write iph.ipDst)) := by
  simp [ClickIp.layout,ClickIp.front,Layout.prod,Layout.equiv,List.append_assoc]

theorem ClickIp.front_pos {iph : ClickIp} (hv : iph.ipV = 4) : 0 < OnesComplement.sumWords iph.front := by
  have hl := iph.ipHl.isLt
  have hversion : iph.ipV.toNat = 4 := by rw [hv]; rfl
  have hb : (UInt8.ofNat (iph.ipHl.toNat + 16 * iph.ipV.toNat)).toNat = iph.ipHl.toNat + 64 := by
    rw [UInt8.toNat_ofNat',hversion]
    omega
  change 0 < (UInt8.ofNat (iph.ipHl.toNat + 16 * iph.ipV.toNat)).toNat + 256 * iph.ipTos.toNat + _
  omega

theorem clickInCksum_sealIp (iph : ClickIp) (hv : iph.ipV = 4) :
    clickInCksum (ClickIp.layout.write (sealIp iph)) = 0 := by
  have hpos := ClickIp.front_pos hv
  rw [sealIp,ClickIp.write_eq,ClickIp.write_eq]
  refine clickInCksum_verify ⟨5,iph.length_front⟩ (by simp [ClickIp.front]) ?_
  change 0 < OnesComplement.sumWords iph.front + _
  omega

theorem sumWords_sealIp (iph : ClickIp) (hv : iph.ipV = 4) :
    0 < OnesComplement.sumWords (ClickIp.layout.write (sealIp iph)) ∧
      OnesComplement.sumWords (ClickIp.layout.write (sealIp iph)) % 65535 = 0 := by
  have hpos : 0 < OnesComplement.sumWords (ClickIp.layout.write (sealIp iph)) := by
    have hfront : 0 < OnesComplement.sumWords (sealIp iph).front := ClickIp.front_pos hv
    rw [ClickIp.write_eq,OnesComplement.sumWords_append _ ⟨5,ClickIp.length_front _⟩]
    omega
  have hbound := OnesComplement.sumWords_lt (ClickIp.layout.write (sealIp iph))
  rw [Layout.length_write,size_click_ip] at hbound
  exact ⟨hpos,(clickInCksum_eq_zero (by omega) hpos).mp (clickInCksum_sealIp iph hv)⟩

/-- The six bytes in front of the UDP checksum. -/
def ClickUdp.front (udph : ClickUdp) : List UInt8 :=
  Layout.u16.write udph.uhSport ++ (Layout.u16.write udph.uhDport ++ Layout.u16.write udph.uhUlen)

@[simp] theorem ClickUdp.length_front (udph : ClickUdp) : udph.front.length = 6 := by simp [front]

theorem ClickUdp.write_eq (udph : ClickUdp) :
    ClickUdp.layout.write udph = udph.front ++ Layout.u16.write udph.uhSum := by
  simp [ClickUdp.layout,ClickUdp.front,Layout.prod,Layout.equiv,List.append_assoc]

theorem ClickUdp.write_append (udph : ClickUdp) (payload : List UInt8) :
    ClickUdp.layout.write udph ++ payload = udph.front ++ (Layout.u16.write udph.uhSum ++ payload) := by
  rw [write_eq,List.append_assoc]

/-- The UDP checksum over the first `cover` bytes from the UDP header on. -/
def sealUdp (iph : ClickIp) (udph : ClickUdp) (payload : List UInt8) (cover : ℕ) : ClickUdp :=
  let bytes := ClickUdp.layout.write { udph with uhSum := 0 } ++ payload
  { udph with
    uhSum := clickInCksumPseudohdr (clickInCksum (bytes.take cover)) iph bytes (UInt16.ofNat cover) }

/-- An IP and a UDP header with their checksums, followed by the payload. -/
def udpPacket (iph : ClickIp) (udph : ClickUdp) (payload : List UInt8) (cover : ℕ) : List UInt8 :=
  ClickIp.layout.write (sealIp iph) ++
    (ClickUdp.layout.write (sealUdp (sealIp iph) udph payload cover) ++ payload)

section UdpPacket
variable (iph : ClickIp) (udph : ClickUdp) (payload : List UInt8) (cover : ℕ) (anno : IPAddress)

@[simp] theorem length_udpPacket : (udpPacket iph udph payload cover).length = 28 + payload.length := by
  simp only [udpPacket,List.length_append,Layout.length_write,size_click_ip,size_click_udp]
  omega

@[simp] theorem drop_udpPacket : (udpPacket iph udph payload cover).drop 28 = payload := by
  rw [udpPacket,← List.append_assoc]
  exact List.drop_left' (by simp)

theorem datagram_udpPacket : (udpPacket iph udph payload cover).drop 20 =
    ClickUdp.layout.write (sealUdp (sealIp iph) udph payload cover) ++ payload :=
  ClickIp.layout.drop_write_append _ _

@[simp] theorem ip_udpPacket :
    (Packet.mk (udpPacket iph udph payload cover) anno).ip = sealIp iph :=
  ClickIp.layout.read_write _ _

@[simp] theorem udp_udpPacket :
    (Packet.mk (udpPacket iph udph payload cover) anno).udp = sealUdp (sealIp iph) udph payload cover := by
  rw [Packet.udp,datagram_udpPacket,Layout.read_write]

@[simp] theorem request_udpPacket (format : RegistrationRequestPacketheader) :
    (Packet.mk (udpPacket iph udph (RegistrationRequestPacketheader.layout.write format) cover)
      anno).request = format := by
  rw [Packet.request,drop_udpPacket,Layout.read_write_self]

@[simp] theorem reply_udpPacket (format : RegistrationRequestReplyPacketheader) (rest : List UInt8) :
    (Packet.mk (udpPacket iph udph (RegistrationRequestReplyPacketheader.layout.write format ++ rest)
      cover) anno).reply = format := by
  rw [Packet.reply,drop_udpPacket,Layout.read_write]

@[simp] theorem reply_udpPacket_self (format : RegistrationRequestReplyPacketheader) :
    (Packet.mk (udpPacket iph udph (RegistrationRequestReplyPacketheader.layout.write format)
      cover) anno).reply = format := by
  rw [Packet.reply,drop_udpPacket,Layout.read_write_self]

end UdpPacket

def Packet.IsRequest (p : Packet) : Prop := 52 ≤ p.length ∧ p.request.type = 1

def Packet.IsReply (p : Packet) : Prop := 48 ≤ p.length ∧ p.reply.type = 3

instance (p : Packet) : Decidable p.IsRequest := inferInstanceAs (Decidable (_ ∧ _))
instance (p : Packet) : Decidable p.IsReply := inferInstanceAs (Decidable (_ ∧ _))

end ClickMobileIP
