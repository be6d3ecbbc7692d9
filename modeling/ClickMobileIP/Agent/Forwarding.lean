import ClickMobileIP.Agent.AgentBase

/-! # Forwarding elements of an agent

These elements read single header fields without a length check of their own, so
every read is a bounded load and a read outside the packet is the outcome `none`.
-/
namespace ClickMobileIP
open ByteLayout

/-- Configuration of `CheckIPHeader`; the scripts give it no argument. -/
structure CheckIPHeader where
  checksum : Bool := true
  badSrc : List IPAddress := []
  goodDst : List IPAddress := []

/-- The packet that leaves output 0, cut to its IP length and annotated. -/
def CheckIPHeader.simpleAction (c : CheckIPHeader) (p : Packet) : Option Packet :=
  let ip := p.ip
  let plen := p.length
  if plen < 20 then none
  else if ip.ipV ≠ 4 then none
  else
    let hlen := 4 * ip.ipHl.toNat
    if hlen < 20 then none
    else
      let len := (ntohs ip.ipLen).toNat
      if plen < len ∨ len < hlen then none
      else if c.checksum = true ∧ clickInCksum (p.data.take hlen) ≠ 0 then none
      else if ip.ipSrc ∈ c.badSrc ∧ ip.ipDst ∉ c.goodDst then none
      else some { p.take (plen - len) with dstIpAnno := ip.ipDst }

/-- A packet without options passes as it is if its length is the announced one. -/
theorem CheckIPHeader.simpleAction_self {p : Packet} (hplen : 20 ≤ p.length) (hversion : p.ip.ipV = 4)
    (hhl : p.ip.ipHl = 5) (hlen : (ntohs p.ip.ipLen).toNat = p.length)
    (hsum : clickInCksum (p.data.take 20) = 0) (hanno : p.dstIpAnno = p.ip.ipDst) :
    CheckIPHeader.simpleAction {} p = some p := by
  have hhlen : 4 * p.ip.ipHl.toNat = 20 := by rw [hhl]; rfl
  have hfull : p.take 0 = p := by simp [Packet.take,Packet.length]
  have hshort : ¬p.length < 20 := by omega
  simp only [simpleAction,hhlen,hversion,hlen,hsum,hshort,Nat.sub_self,hfull,ne_eq,not_true_eq_false,
    and_false,List.not_mem_nil,false_and,lt_self_iff_false,or_self,↓reduceIte]
  rw [← hanno]

/-- The ICMP message starts where the IP header ends: `CheckIPHeader` has marked the headers
and has made sure that the first one lies inside the packet. -/
def CheckICMPHeader.simpleAction (p : Packet) : Option Packet :=
  if p.ip.ipP ≠ 1 then none
  else
    let icmph := p.data.drop (4 * p.ip.ipHl.toNat)
    let icmpLen := icmph.length
    let icmpType := Layout.u8.read icmph
    if icmpLen < 8 then none
    else if icmpType ∈ ([3,11,12,4,5] : List UInt8) ∧ icmpLen < 8 + 28 then none
    else if icmpType ∈ ([13,14] : List UInt8) ∧ icmpLen ≠ 20 then none
    else if icmpType ∈ ([15,16] : List UInt8) ∧ icmpLen ≠ 8 then none
    else if clickInCksum icmph ≠ 0 then none
    else some p

namespace MobileIPFilter

/-- Output 1 for replies, 2 and 3 for requests to this home agent and to others. -/
def push (s : AgentBase) (p : Packet) : Option (List Emission) :=
  match Layout.u8.load p.data 28 with
  | none => none
  | some type =>
    if type = 3 then some [⟨1,p⟩]
    else if type = 1 then
      match Layout.u32.load p.data 36 with
      | none => none
      | some homeAgent =>
        if homeAgent = s.publicAddr then some [⟨2,p⟩] else some [⟨3,p⟩]
    else some [⟨0,p⟩]

end MobileIPFilter

namespace IpEncapsulation

/-- The care-of address of a node, through an unchecked `find_pair`. -/
def getDesitination (s : AgentBase) (mn : IPAddress) : Option IPAddress :=
  (s.table.findPair mn).map HARegistrationEntry.mobileNodeCoa

def outerIp (s : AgentBase) (careOff : IPAddress) (p : Packet) : ClickIp where
  ipV := 4
  ipP := 4
  ipHl := 5
  ipLen := htons (UInt16.ofNat (p.length + 20))
  ipId := htons 1
  ipTtl := 20
  ipSrc := s.publicAddr
  ipDst := careOff

def encapsulate (s : AgentBase) (careOff : IPAddress) (p : Packet) : Packet where
  data := ClickIp.layout.write (sealIp (outerIp s careOff p)) ++ p.data
  dstIpAnno := careOff

def push (alloc : Bool) (s : AgentBase) (p : Packet) : Option (List Emission) :=
  match Layout.u32.load p.data 16 with
  | none => none
  | some dst =>
    if s.isHome dst then some [⟨0,p⟩]
    else
      match getDesitination s dst with
      | none => none
      | some careOff =>
        if alloc = false then some []
        else some [⟨1,encapsulate s careOff p⟩]

/-- The lookup behind the `isHome` guard always finds its entry. -/
theorem getDesitination_isSome {s : AgentBase} {mn : IPAddress} (h : s.isHome mn = false) :
    ∃ entry, s.table mn = some entry ∧ getDesitination s mn = some entry.mobileNodeCoa := by
  obtain ⟨entry,he⟩ := AgentBase.isHome_eq_false.mp h
  exact ⟨entry,he,by simp [getDesitination,HashMap.findPair,he]⟩

end IpEncapsulation

namespace IpDecap

def push (s : AgentBase) (p : Packet) : Option (List Emission) :=
  match Layout.u8.load p.data 9 with
  | none => none
  | some proto =>
    if proto = 4 then
      match Layout.u32.load p.data 36 with
      | none => none
      | some dst => if s.inMapNode dst then some [⟨1,p.pull 20⟩] else some [⟨0,p⟩]
    else some [⟨0,p⟩]

end IpDecap

section Reads
variable {p : Packet}

theorem load_ipDst (h : 20 ≤ p.length) : Layout.u32.load p.data 16 = some p.ip.ipDst := by
  have hb : 16 + Layout.u32.size ≤ p.data.length := h
  rw [Layout.load_eq_some _ hb,read_ipDst]

theorem load_ipP (h : 20 ≤ p.length) : Layout.u8.load p.data 9 = some p.ip.ipP := by
  have hb : 9 + Layout.u8.size ≤ p.data.length := le_trans (by decide) h
  rw [Layout.load_eq_some _ hb,read_ipP]

theorem load_type (h : 48 ≤ p.length) : Layout.u8.load p.data 28 = some p.request.type := by
  have hb : 28 + Layout.u8.size ≤ p.data.length := le_trans (by decide) h
  rw [Layout.load_eq_some _ hb,read_request_type]

theorem load_homeAgent (h : 48 ≤ p.length) :
    Layout.u32.load p.data 36 = some p.request.homeAgent := by
  have hb : 36 + Layout.u32.size ≤ p.data.length := le_trans (by decide) h
  rw [Layout.load_eq_some _ hb,read_request_homeAgent]

theorem reply_type_eq : p.reply.type = p.request.type := by
  rw [read_reply_type,read_request_type]

end Reads

theorem MobileIPFilter.push_request {s : AgentBase} {p : Packet} (hp : p.IsRequest) :
    MobileIPFilter.push s p =
      some [⟨if p.request.homeAgent = s.publicAddr then 2 else 3,p⟩] := by
  have hlen : 48 ≤ p.length := le_trans (by decide) hp.1
  have hne : ¬(1 : UInt8) = 3 := by decide
  simp only [MobileIPFilter.push,load_type hlen,load_homeAgent hlen,hp.2,hne,↓reduceIte]
  by_cases h : p.request.homeAgent = s.publicAddr
  · simp [h]
  · simp [h]

theorem MobileIPFilter.push_reply {s : AgentBase} {p : Packet} (hp : p.IsReply) :
    MobileIPFilter.push s p = some [⟨1,p⟩] := by
  have htype : p.request.type = 3 := reply_type_eq.symm.trans hp.2
  simp only [MobileIPFilter.push,load_type hp.1,htype,↓reduceIte]

end ClickMobileIP
