import ClickMobileIP.Agent.AgentBase

/-! # Advertisements of an agent

`createPacket` builds the advertisement of an agent and steps its sequence number,
which is kept in network byte order. `AdvFilter` recognises such packets on the
mobile node.
-/
namespace ClickMobileIP
open ByteLayout

structure AgentAdvertiser where
  ha : Bool
  fa : Bool
  lifetimeAdv : ℤ
  interval : ℤ
  sequenceNum : UInt16
  deriving DecidableEq, Repr

namespace AgentAdvertiser

/-- The products are C `int`s and wrap at thirty-two bits. -/
def configure (fa ha : Bool) (lifetimeAdv interval : ℤ) : Option AgentAdvertiser :=
  if (lifetimeAdv * 1000).bmod (2 ^ 32) < (interval * 3).bmod (2 ^ 32) then none
  else if ha = false ∧ fa = false then none
  else some { ha, fa, lifetimeAdv, interval, sequenceNum := htons 0 }

def nextSequenceNum (sequenceNum : UInt16) : UInt16 :=
  if sequenceNum = 0xffff then htons 256 else sequenceNum + htons 1

/-- The header before its checksum. -/
def advertisementIp (a : AgentAdvertiser) (agent : AgentBase) : ClickIp where
  ipV := 4
  ipHl := 5
  ipLen := htons 48
  ipId := htons a.sequenceNum
  ipTtl := 1
  ipP := 1
  ipSrc := agent.privateAddr
  ipDst := 0xffffffff

/-- The checksum is taken over the whole packet while the advertisement is still zero. -/
def sealAdvertisementIp (iph : ClickIp) : ClickIp :=
  { iph with ipSum := clickInCksum (ClickIp.layout.write { iph with ipSum := 0 } ++ List.replicate 28 0) }

def flagsReserved (a : AgentAdvertiser) : UInt16 :=
  (a.fa.toUInt16 <<< 7) + (a.ha.toUInt16 <<< 5) + (a.fa.toUInt16 <<< 4) + 0

def advertisementHeader (a : AgentAdvertiser) (agent : AgentBase) : AdvertisementPacketheader where
  type := 9
  code := 0
  lifetime := htons (toUInt16 a.lifetimeAdv)
  addressNumbers := 1
  addrEntrySize := 2
  address := agent.publicAddr
  pref := 0
  typeEx := 16
  length := 10
  sequenceNum := a.sequenceNum
  lifetimeEx := htons (toUInt16 agent.lifetimeReg)
  flagsReserved := a.flagsReserved
  addressEx := agent.publicAddr

def sealAdvertisement (ah : AdvertisementPacketheader) : AdvertisementPacketheader :=
  { ah with checksum := clickInCksum (AdvertisementPacketheader.layout.write { ah with checksum := 0 }) }

def advertisementPacket (a : AgentAdvertiser) (agent : AgentBase) : Packet where
  data := ClickIp.layout.write (sealAdvertisementIp (a.advertisementIp agent)) ++
    AdvertisementPacketheader.layout.write (sealAdvertisement (a.advertisementHeader agent))
  dstIpAnno := 0xffffffff

/-- The zeros that it covers beyond the header leave the checksum what it should be. -/
theorem sealAdvertisementIp_eq (iph : ClickIp) : sealAdvertisementIp iph = sealIp iph := by
  have heven : Even (ClickIp.layout.write { iph with ipSum := 0 }).length := ⟨10,Layout.length_write _ _⟩
  rw [sealAdvertisementIp,sealIp,clickInCksum_append_zeros heven]

/-- `alloc` tells whether `Packet::make` succeeds. -/
def createPacket (alloc : Bool) (a : AgentAdvertiser) (agent : AgentBase) : Option Packet × AgentAdvertiser :=
  if alloc = false then (none,a)
  else (some (a.advertisementPacket agent),{ a with sequenceNum := nextSequenceNum a.sequenceNum })

variable (a : AgentAdvertiser) (agent : AgentBase)

@[simp] theorem length_advertisementPacket : (a.advertisementPacket agent).length = 48 := by
  simp [advertisementPacket,Packet.length]

@[simp] theorem ip_advertisementPacket :
    (a.advertisementPacket agent).ip = sealAdvertisementIp (a.advertisementIp agent) :=
  ClickIp.layout.read_write _ _

@[simp] theorem advertisement_advertisementPacket :
    (a.advertisementPacket agent).advertisement = sealAdvertisement (a.advertisementHeader agent) := by
  have hdrop : (a.advertisementPacket agent).data.drop 20 =
      AdvertisementPacketheader.layout.write (sealAdvertisement (a.advertisementHeader agent)) :=
    ClickIp.layout.drop_write_append _ _
  rw [Packet.advertisement,hdrop,Layout.read_write_self]

end AgentAdvertiser

namespace AdvFilter

/-- Output 1 for advertisements; a packet that only looks like one is killed. -/
def push (p : Packet) : List Emission :=
  if p.length = 48 then
    if p.ip.ipP = 1 ∧ p.ip.ipDst = 0xffffffff then
      let ah := p.advertisement
      if ah.typeEx = 16 ∧ ah.type = 9 ∧ ah.code = 0 then [⟨1,p⟩] else []
    else [⟨0,p⟩]
  else [⟨0,p⟩]

theorem push_advertisementPacket (a : AgentAdvertiser) (agent : AgentBase) :
    push (a.advertisementPacket agent) = [⟨1,a.advertisementPacket agent⟩] := by
  simp [push,AgentAdvertiser.sealAdvertisementIp,AgentAdvertiser.advertisementIp,
    AgentAdvertiser.sealAdvertisement,AgentAdvertiser.advertisementHeader]

end AdvFilter

def SolicitationFilter.push (p : Packet) : List Emission :=
  if p.length = 28 then
    let sh := p.solicitation
    if p.ip.ipP = 1 ∧ p.ip.ipDst = 0xffffffff then
      if sh.type = 10 ∧ sh.code = 0 ∧ p.ip.ipDst = 0xffffffff then [⟨1,p⟩] else []
    else [⟨0,p⟩]
  else [⟨0,p⟩]

end ClickMobileIP
