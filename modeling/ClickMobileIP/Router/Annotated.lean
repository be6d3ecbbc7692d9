import ClickMobileIP.Router.IcmpHeader

/-! # Annotations and the elements that read them

Behind the data of a packet Click keeps annotations: the link-level packet type, the
interface it came from (its paint), the place of a bad option and a flag that asks for
the address of the outgoing interface as source.
-/
namespace ClickMobileIP

inductive PacketType
  | host
  | broadcast
  | multicast
  | otherhost
  | outgoing
  | loopback
  | fastroute
  deriving DecidableEq, Repr

/-- A packet with its annotations; the destination address is part of `Packet`. -/
structure Annotated where
  packet : Packet
  packetType : PacketType := .host
  paint : UInt8 := 0
  paramProb : UInt8 := 0
  fixIpSrc : UInt8 := 0
  deriving DecidableEq, Repr

/-- What an element pushes: numbered outputs and packets, in order. -/
abbrev Pushes := List (ℕ × Annotated)

/-- A packet without annotations, as an element makes it or an interface hands it on. -/
def Annotated.fresh (p : Packet) : Annotated := { packet := p }

def Annotated.withPacket (a : Annotated) (p : Packet) : Annotated := { a with packet := p }

def DropBroadcasts.simpleAction (a : Annotated) : Pushes :=
  if a.packetType = .broadcast ∨ a.packetType = .multicast then [] else [(0,a)]

theorem DropBroadcasts.same {i : ℕ} {a b : Annotated} (h : (i,b) ∈ DropBroadcasts.simpleAction a) : b = a := by
  unfold DropBroadcasts.simpleAction at h
  split_ifs at h
  · cases h
  · exact (Prod.mk.inj (List.mem_singleton.mp h)).2

/-- `PaintTee`: the copy leaves before the packet does. A copy that could not be made is pushed as well, and the
next element goes through a null pointer. -/
def PaintTee.simpleAction (alloc : Bool) (color : UInt8) (a : Annotated) : Option Pushes :=
  if a.paint = color then (if alloc = false then none else some [(1,a),(0,a)]) else some [(0,a)]

theorem PaintTee.same {i : ℕ} {alloc : Bool} {color : UInt8} {a b : Annotated} {pushes : Pushes}
    (h : PaintTee.simpleAction alloc color a = some pushes) (hmem : (i,b) ∈ pushes) :
    b = a ∧ (i = 1 → a.paint = color) := by
  unfold PaintTee.simpleAction at h
  split_ifs at h with hcolor
  · cases h
    rcases List.mem_cons.mp hmem with hmem | hmem
    · exact ⟨(Prod.mk.inj hmem).2,fun _ => hcolor⟩
    · exact ⟨(Prod.mk.inj (List.mem_singleton.mp hmem)).2,fun _ => hcolor⟩
  · cases h
    obtain ⟨rfl,rfl⟩ := Prod.mk.inj (List.mem_singleton.mp hmem)
    exact ⟨rfl,fun hone => absurd hone (by decide)⟩

theorem PaintTee.simpleAction_ne_none (color : UInt8) (a : Annotated) : PaintTee.simpleAction true color a ≠ none := by
  unfold PaintTee.simpleAction
  by_cases hcolor : a.paint = color
  · rw [if_pos hcolor,if_neg (by decide)]
    exact Option.some_ne_none _
  · rw [if_neg hcolor]
    exact Option.some_ne_none _

def CheckPaint.simpleAction (color : UInt8) (a : Annotated) : Pushes :=
  if a.paint = color then [(0,a)] else []

def ClickIp.setSrc (iph : ClickIp) (src : IPAddress) : ClickIp := { iph with ipSrc := src }

namespace FixIPSrc

/-- A packet that the router itself made gets the address of the interface it leaves. -/
def fixIt (myIp : IPAddress) (p : Packet) : Packet := (p.setIp (p.ip.setSrc myIp)).reseal

def simpleAction (myIp : IPAddress) (a : Annotated) : Annotated :=
  if a.fixIpSrc ≠ 0 then { a with packet := fixIt myIp a.packet, fixIpSrc := 0 } else a

theorem simpleAction_spec (myIp : IPAddress) {a : Annotated} (ha : a.packet.Valid) :
    (simpleAction myIp a).packet.Valid ∧ (simpleAction myIp a).packet.ip.ipTtl = a.packet.ip.ipTtl ∧
      (simpleAction myIp a).packet.length = a.packet.length ∧
      (simpleAction myIp a).packet.headerLength = a.packet.headerLength := by
  unfold simpleAction
  by_cases hfix : a.fixIpSrc ≠ 0
  · rw [if_pos hfix]
    refine ⟨ha.setIp_reseal rfl rfl rfl,?_,Packet.length_setIp_reseal ha.headed.fixed,?_⟩
    · change (fixIt myIp a.packet).ip.ipTtl = _
      rw [fixIt,Packet.ip_setIp_reseal]
      rfl
    · change (fixIt myIp a.packet).headerLength = _
      rw [Packet.headerLength,fixIt,Packet.ip_setIp_reseal]
      rfl
  · rw [if_neg hfix]
    exact ⟨ha,rfl,rfl,rfl⟩

end FixIPSrc

end ClickMobileIP
