import ClickMobileIP.Agent.Tunnel

/-! # Reads at fixed offsets

The filter and the decapsulation step over the IP header with `iph + 1` and read what they
find there, without a look at the header length or at the length of the packet. Both are
compared here with what they are for: the filter should look at the first byte of the UDP
payload, which ends where `uh_ulen` says, the decapsulation at the destination of the inner
header.
-/
namespace ClickMobileIP
open ByteLayout

def Packet.headerLength (p : Packet) : ℕ := 4 * p.ip.ipHl.toNat

theorem Packet.headerLength_plain {p : Packet} (h : p.ip.ipHl = 5) : p.headerLength = 20 := by
  rw [headerLength,h]
  rfl

/-- The UDP header behind the IP header and its options. -/
def Packet.transport (p : Packet) : ClickUdp := ClickUdp.layout.read (p.data.drop p.headerLength)

/-- The payload that the UDP header announces, as far as it is in the packet. -/
def Packet.udpPayload (p : Packet) : List UInt8 :=
  (p.data.drop (p.headerLength + 8)).take ((ntohs p.transport.uhUlen).toNat - 8)

theorem length_of_simpleAction {c : CheckIPHeader} {p q : Packet} (h : c.simpleAction p = some q) :
    20 ≤ q.headerLength ∧ q.headerLength ≤ q.length := by
  unfold CheckIPHeader.simpleAction at h
  dsimp only at h
  split_ifs at h with hshort hversion hheader hlen hsum hsrc
  cases h
  obtain ⟨hfits,hroom⟩ := not_or.mp hlen
  have hcut : p.length - (p.length - (ntohs p.ip.ipLen).toNat) = (ntohs p.ip.ipLen).toNat := by omega
  have hip : ({ p.take (p.length - (ntohs p.ip.ipLen).toNat) with dstIpAnno := p.ip.ipDst } : Packet).ip = p.ip := by
    apply Layout.read_take
    · change 20 ≤ p.length
      omega
    · change 20 ≤ p.length - (p.length - (ntohs p.ip.ipLen).toNat)
      omega
  have hlength : ({ p.take (p.length - (ntohs p.ip.ipLen).toNat) with dstIpAnno := p.ip.ipDst } : Packet).length =
      (ntohs p.ip.ipLen).toNat := by
    rw [Packet.length,Packet.take,List.length_take,hcut]
    exact Nat.min_eq_left (by change _ ≤ p.length; omega)
  rw [hlength,Packet.headerLength,hip]
  omega

namespace MobileIPFilter
variable {s : AgentBase} {p : Packet}

/-- The output that a UDP payload asks for. -/
def outputFor (s : AgentBase) (payload : List UInt8) : ℕ :=
  match Layout.u8.load payload 0 with
  | none => 0
  | some type =>
    if type = 3 then 1
    else if type = 1 then
      match Layout.u32.load payload 8 with
      | none => 0
      | some homeAgent => if homeAgent = s.publicAddr then 2 else 3
    else 0

def fixedType (p : Packet) : UInt8 := Layout.u8.read (p.data.drop 28)

def fixedAgent (p : Packet) : IPAddress := Layout.u32.read (p.data.drop 36)

/-- The type byte at its fixed offset is inside the packet, and so is the home agent's
address if the type asks for it. -/
def Readable (p : Packet) : Prop := 29 ≤ p.length ∧ (fixedType p = 1 → 40 ≤ p.length)

instance (p : Packet) : Decidable (Readable p) := inferInstanceAs (Decidable (_ ∧ _))

/-- The filter takes whatever starts at byte 28 for the payload. -/
theorem push_eq (s : AgentBase) (p : Packet) :
    push s p = if Readable p then some [⟨outputFor s (p.data.drop 28),p⟩] else none := by
  unfold push outputFor
  rw [Layout.u8.load_drop (by decide),Layout.u32.load_drop (by decide)]
  by_cases hlen : 29 ≤ p.length
  · have htype : Layout.u8.load p.data 28 = some (fixedType p) := Layout.load_eq_some Layout.u8 hlen
    have hread : Readable p ↔ (fixedType p = 1 → 40 ≤ p.length) := and_iff_right hlen
    simp only [htype,hread]
    generalize fixedType p = type
    by_cases hthree : type = 3
    · have hone : ¬(3 : UInt8) = 1 := by decide
      simp only [hthree,hone,↓reduceIte,false_implies]
    by_cases hone : type = 1
    · have hthree : ¬(1 : UInt8) = 3 := by decide
      by_cases haddr : 40 ≤ p.length
      · have hload : Layout.u32.load p.data 36 = some (Layout.u32.read (p.data.drop 36)) :=
          Layout.load_eq_some Layout.u32 haddr
        simp only [hthree,hone,haddr,hload,↓reduceIte,implies_true]
        split_ifs <;> rfl
      · have hload : Layout.u32.load p.data 36 = none :=
          Layout.load_eq_none Layout.u32 (by simp only [Layout.size_u32]; exact not_le.mp haddr)
        simp only [hthree,hone,haddr,hload,↓reduceIte,true_implies]
    · simp only [hthree,hone,↓reduceIte,false_implies]
  · have hnone : Layout.u8.load p.data 28 = none :=
      Layout.load_eq_none Layout.u8 (by simp only [Layout.size_u8]; exact not_le.mp hlen)
    have hread : ¬Readable p := fun h => hlen h.1
    simp only [hnone,hread,↓reduceIte]

/-- Without options: the announced payload covers what the filter reads at its offsets. -/
def Announced (p : Packet) : Prop :=
  (fixedType p = 3 → 9 ≤ (ntohs p.transport.uhUlen).toNat) ∧
    (fixedType p = 1 → 20 ≤ (ntohs p.transport.uhUlen).toNat)

/-- With options: the bytes at the fixed offsets and those of the payload behind the options
are of one kind. -/
def SameKind (s : AgentBase) (p : Packet) : Prop :=
  (fixedType p = 3 ↔ Layout.u8.load p.udpPayload 0 = some 3) ∧
    (fixedType p = 1 ↔ Layout.u8.load p.udpPayload 0 = some 1 ∧ (Layout.u32.load p.udpPayload 8).isSome = true) ∧
    (fixedType p = 1 → (fixedAgent p = s.publicAddr ↔ Layout.u32.load p.udpPayload 8 = some s.publicAddr))

theorem outputFor_fixed (h : Readable p) : outputFor s (p.data.drop 28) =
    if fixedType p = 3 then 1 else if fixedType p = 1 then (if fixedAgent p = s.publicAddr then 2 else 3) else 0 := by
  have htype : Layout.u8.load p.data 28 = some (fixedType p) := Layout.load_eq_some Layout.u8 h.1
  unfold outputFor
  rw [Layout.u8.load_drop (by decide),Layout.u32.load_drop (by decide)]
  simp only [htype]
  by_cases hone : fixedType p = 1
  · have haddr : Layout.u32.load p.data 36 = some (fixedAgent p) := Layout.load_eq_some Layout.u32 (h.2 hone)
    simp only [haddr]
  · simp only [hone,↓reduceIte]

theorem outputFor_fixed_eq_iff (h : Readable p) :
    outputFor s (p.data.drop 28) = outputFor s p.udpPayload ↔ SameKind s p := by
  rw [outputFor_fixed h]
  unfold outputFor SameKind
  generalize fixedType p = type
  generalize fixedAgent p = agent
  cases Layout.u8.load p.udpPayload 0 with
  | none =>
    by_cases hthree : type = 3 <;> by_cases hone : type = 1 <;> by_cases hagent : agent = s.publicAddr <;>
      simp_all
  | some first =>
    cases Layout.u32.load p.udpPayload 8 with
    | none =>
      by_cases hthree : type = 3 <;> by_cases hone : type = 1 <;> by_cases hagent : agent = s.publicAddr <;>
        by_cases hthree' : first = 3 <;> by_cases hone' : first = 1 <;> simp_all
    | some agent' =>
      by_cases hthree : type = 3 <;> by_cases hone : type = 1 <;> by_cases hagent : agent = s.publicAddr <;>
        by_cases hthree' : first = 3 <;> by_cases hone' : first = 1 <;>
          by_cases hagent' : agent' = s.publicAddr <;> simp_all

theorem sameKind_plain_iff (h : Readable p) (hplain : p.ip.ipHl = 5) : SameKind s p ↔ Announced p := by
  have htype : Layout.u8.load (p.data.drop 28) 0 = some (fixedType p) := by
    rw [Layout.u8.load_drop (by decide)]
    exact Layout.load_eq_some Layout.u8 h.1
  have hagent : fixedType p = 1 → Layout.u32.load (p.data.drop 28) 8 = some (fixedAgent p) := by
    intro hone
    rw [Layout.u32.load_drop (by decide)]
    exact Layout.load_eq_some Layout.u32 (h.2 hone)
  have hpayload : p.udpPayload = (p.data.drop 28).take ((ntohs p.transport.uhUlen).toNat - 8) := by
    rw [Packet.udpPayload,Packet.headerLength_plain hplain]
  unfold SameKind Announced
  rw [hpayload,Layout.u8.load_take (by decide),Layout.u32.load_take (by decide),htype]
  simp only [Layout.size_u8,Layout.size_u32]
  generalize (ntohs p.transport.uhUlen).toNat = ulen
  by_cases hone : fixedType p = 1
  · have hthree : ¬fixedType p = 3 := by rw [hone]; decide
    rw [hagent hone]
    by_cases hroom : 20 ≤ ulen
    · have hfirst : 0 + 1 ≤ ulen - 8 := by omega
      have hlast : 8 + 4 ≤ ulen - 8 := by omega
      simp [hone,hroom,hfirst,hlast]
    · have hlast : ¬8 + 4 ≤ ulen - 8 := by omega
      simp [hone,hroom,hlast]
  · by_cases hfirst : 0 + 1 ≤ ulen - 8
    · have hroom : 9 ≤ ulen := by omega
      simp [hone,hfirst,hroom]
    · have hroom : ¬9 ≤ ulen := by omega
      simp [hone,hfirst,hroom]

/-- For every packet: the filter stays inside it and chooses the output by the announced UDP
payload exactly if the bytes at the fixed offsets are there and either, without options, the
payload is announced long enough to hold them, or, with options, they are of the kind of the
payload behind the options. -/
theorem push_by_payload_iff (s : AgentBase) (p : Packet) :
    push s p = some [⟨outputFor s p.udpPayload,p⟩] ↔
      Readable p ∧ if p.ip.ipHl = 5 then Announced p else SameKind s p := by
  rw [push_eq]
  by_cases hread : Readable p
  · simp only [hread,↓reduceIte,true_and,Option.some.injEq,List.cons.injEq,and_true,Emission.mk.injEq]
    rw [outputFor_fixed_eq_iff hread]
    by_cases hplain : p.ip.ipHl = 5
    · rw [if_pos hplain,sameKind_plain_iff hread hplain]
    · rw [if_neg hplain]
  · simp [hread]

def emptyDatagram : Packet where
  data := udpPacket { ipV := 4, ipHl := 5, ipLen := htons 28, ipTtl := 64, ipP := 17, ipSrc := 7, ipDst := 1 }
    { uhSport := htons 1001, uhDport := htons 434, uhUlen := htons 8 } [] 8
  dstIpAnno := 1

/-- A datagram with nothing in it, and one more byte in its IP packet. -/
def paddedDatagram : Packet where
  data := udpPacket { ipV := 4, ipHl := 5, ipLen := htons 29, ipTtl := 64, ipP := 17, ipSrc := 7, ipDst := 1 }
    { uhSport := htons 1001, uhDport := htons 434, uhUlen := htons 8 } [3] 8
  dstIpAnno := 1

/-- Both pass the header check; the first is read one byte behind its end, and the byte behind
the second one's payload makes it a reply. -/
theorem empty_datagram_read_beyond :
    CheckIPHeader.simpleAction {} emptyDatagram = some emptyDatagram ∧ emptyDatagram.ip.ipP = 17 ∧
      emptyDatagram.udp.uhDport = htons 434 ∧ emptyDatagram.udpPayload = [] ∧
      push (AgentBase.configure 1 2 25) emptyDatagram = none ∧
      ¬push (AgentBase.configure 1 2 25) emptyDatagram =
        some [⟨outputFor (AgentBase.configure 1 2 25) emptyDatagram.udpPayload,emptyDatagram⟩] ∧
      CheckIPHeader.simpleAction {} paddedDatagram = some paddedDatagram ∧ paddedDatagram.ip.ipP = 17 ∧
      paddedDatagram.udp.uhDport = htons 434 ∧ paddedDatagram.udpPayload = [] ∧
      push (AgentBase.configure 1 2 25) paddedDatagram = some [⟨1,paddedDatagram⟩] ∧
      ¬push (AgentBase.configure 1 2 25) paddedDatagram =
        some [⟨outputFor (AgentBase.configure 1 2 25) paddedDatagram.udpPayload,paddedDatagram⟩] := by
  have hfault : push (AgentBase.configure 1 2 25) emptyDatagram = none := by decide +kernel
  have hreply : push (AgentBase.configure 1 2 25) paddedDatagram = some [⟨1,paddedDatagram⟩] := by decide +kernel
  have hempty : paddedDatagram.udpPayload = [] := by decide +kernel
  refine ⟨by decide +kernel,by decide +kernel,by decide +kernel,by decide +kernel,hfault,?_,
    by decide +kernel,by decide +kernel,by decide +kernel,hempty,hreply,?_⟩
  · rw [hfault]
    exact fun h => by cases h
  · rw [hreply,hempty]
    exact fun h => by cases h

end MobileIPFilter

namespace IpDecap
variable {s : AgentBase} {p q : Packet} {c : CheckIPHeader}

def innerDst (p : Packet) : Option IPAddress := Layout.u32.load (p.data.drop p.headerLength) 16

/-- What follows the outer header if it is meant for a visitor, else the packet itself. -/
def decapsulated (s : AgentBase) (p : Packet) : List Emission :=
  if (innerDst p).any s.inMapNode then [⟨1,p.pull p.headerLength⟩] else [⟨0,p⟩]

theorem push_tunnel (hlen : 40 ≤ q.length) (hproto : q.ip.ipP = 4) :
    push s q = some (if s.inMapNode (Layout.u32.read (q.data.drop 36)) then [⟨1,q.pull 20⟩] else [⟨0,q⟩]) := by
  have hdst : Layout.u32.load q.data 36 = some (Layout.u32.read (q.data.drop 36)) :=
    Layout.load_eq_some Layout.u32 hlen
  simp only [push,load_ipP (p := q) (by omega),hproto,hdst,↓reduceIte]
  split_ifs <;> rfl

theorem push_truncated (hlen : 20 ≤ q.length) (hshort : ¬40 ≤ q.length) (hproto : q.ip.ipP = 4) :
    push s q = none := by
  have hdst : Layout.u32.load q.data 36 = none :=
    Layout.load_eq_none Layout.u32 (by simp only [Layout.size_u32]; exact not_le.mp hshort)
  simp only [push,load_ipP hlen,hproto,hdst,↓reduceIte]

theorem pull_inj {m n : ℕ} (hm : m < q.length) (h : q.pull m = q.pull n) : m = n := by
  have hlength := congrArg (fun r => r.data.length) h
  simp only [Packet.pull,List.length_drop] at hlength
  unfold Packet.length at hm
  omega

/-- For every tunnel packet that passes the header check: it is decapsulated as it should be
exactly if the inner header ends inside the packet and either the outer header has no
options, or neither the bytes at the fixed offset nor the inner header name a visitor. -/
theorem push_decapsulates_iff (hcheck : c.simpleAction p = some q) (hproto : q.ip.ipP = 4) :
    push s q = some (decapsulated s q) ↔ 40 ≤ q.length ∧ (q.headerLength = 20 ∨
      (s.inMapNode (Layout.u32.read (q.data.drop 36)) = false ∧ (innerDst q).any s.inMapNode = false)) := by
  obtain ⟨hheader,hfits⟩ := length_of_simpleAction hcheck
  by_cases hlen : 40 ≤ q.length
  · have hplain : q.headerLength = 20 → innerDst q = some (Layout.u32.read (q.data.drop 36)) := by
      intro h
      rw [innerDst,h,Layout.u32.load_drop (by decide)]
      exact Layout.load_eq_some Layout.u32 hlen
    rw [push_tunnel hlen hproto,decapsulated]
    generalize Layout.u32.read (q.data.drop 36) = dst at hplain ⊢
    simp only [hlen,true_and,Option.some.injEq]
    by_cases hoptions : q.headerLength = 20
    · simp [hplain hoptions,hoptions]
    · have hother : ¬q.pull 20 = q.pull q.headerLength := fun h => hoptions (pull_inj (by omega) h).symm
      cases s.inMapNode dst with
      | false => cases (innerDst q).any s.inMapNode <;> simp [hoptions]
      | true => cases (innerDst q).any s.inMapNode <;> simp [hoptions,hother]
  · rw [push_truncated (by omega) hlen hproto]
    simp [hlen]

def hosting : AgentBase :=
  { AgentBase.configure 5 6 25 with
    visitorMap := [{ ipSrc := 1, ipDst := 6, udpSrc := htons 1001, udpDst := 0, homeAgent := 1, id1 := 3, id2 := 4,
                     lifetimeReq := htons 25, lifetimeRem := htons 25 }] }

def tunnelled : Packet := IpEncapsulation.encapsulate (AgentBase.configure 1 2 25) 5 MobileIPFilter.emptyDatagram

theorem push_decapsulates_sample : push hosting tunnelled = some (decapsulated hosting tunnelled) := by
  have hcheck : CheckIPHeader.simpleAction {} tunnelled = some tunnelled := by decide +kernel
  exact (push_decapsulates_iff hcheck (by decide +kernel)).mpr ⟨by decide +kernel,Or.inl (by decide +kernel)⟩

/-- A tunnel packet that ends with its outer header. -/
def emptyTunnel : Packet where
  data := ClickIp.layout.write
    (sealIp { ipV := 4, ipHl := 5, ipLen := htons 20, ipTtl := 64, ipP := 4, ipSrc := 7, ipDst := 5 })
  dstIpAnno := 5

def optionTunnel : Packet where
  data := ClickIp.layout.write
      (sealIp { ipV := 4, ipHl := 6, ipLen := htons 52, ipTtl := 64, ipP := 4, ipSrc := 7, ipDst := 5 }) ++
    [0,0,0,0] ++ MobileIPFilter.emptyDatagram.data
  dstIpAnno := 5

/-- Both pass the header check; the first is read behind its end, and the second is not
decapsulated although its inner header names the visitor. -/
theorem tunnel_misread :
    CheckIPHeader.simpleAction {} emptyTunnel = some emptyTunnel ∧ emptyTunnel.ip.ipP = 4 ∧
      push hosting emptyTunnel = none ∧ ¬push hosting emptyTunnel = some (decapsulated hosting emptyTunnel) ∧
      CheckIPHeader.simpleAction {} optionTunnel = some optionTunnel ∧ optionTunnel.ip.ipP = 4 ∧
      innerDst optionTunnel = some 1 ∧ hosting.inMapNode 1 = true ∧
      push hosting optionTunnel = some [⟨0,optionTunnel⟩] ∧
      ¬push hosting optionTunnel = some (decapsulated hosting optionTunnel) := by
  have hfault : push hosting emptyTunnel = none := by decide +kernel
  have hpassed : push hosting optionTunnel = some [⟨0,optionTunnel⟩] := by decide +kernel
  have hmeant : decapsulated hosting optionTunnel ≠ [⟨0,optionTunnel⟩] := by decide +kernel
  refine ⟨by decide +kernel,by decide +kernel,hfault,?_,by decide +kernel,by decide +kernel,by decide +kernel,
    by decide +kernel,hpassed,?_⟩
  · rw [hfault]
    exact fun h => by cases h
  · rw [hpassed]
    exact fun h => hmeant (Option.some.inj h).symm

end IpDecap

end ClickMobileIP
