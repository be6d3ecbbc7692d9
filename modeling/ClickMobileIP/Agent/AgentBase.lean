import ClickMobileIP.Wire.Packet
import Mathlib.Data.Int.Notation
import Mathlib.Logic.Function.Basic

/-! # The information base of an agent

One `AgentBase` is shared by the elements of an agent: the home agent side keeps
`table` and `list`, the foreign agent side `registrationReq` and `visitorMap`.
-/
namespace ClickMobileIP

/-- Click's `HashMap`, as the map it represents. -/
abbrev HashMap (K V : Type) := K → Option V

namespace HashMap
variable {K V : Type} [DecidableEq K]

def findPair (m : HashMap K V) (k : K) : Option V := m k
def insert (m : HashMap K V) (k : K) (v : V) : HashMap K V := Function.update m k (some v)
def erase (m : HashMap K V) (k : K) : HashMap K V := Function.update m k none

@[simp] theorem insert_self (m : HashMap K V) (k : K) (v : V) : m.insert k v k = some v :=
  Function.update_self ..
@[simp] theorem erase_self (m : HashMap K V) (k : K) : m.erase k k = none := Function.update_self ..
theorem insert_of_ne (m : HashMap K V) {j k : K} (v : V) (h : j ≠ k) : m.insert k v j = m j :=
  Function.update_of_ne h ..
theorem erase_of_ne (m : HashMap K V) {j k : K} (h : j ≠ k) : m.erase k j = m j :=
  Function.update_of_ne h ..

end HashMap

/-- A pending registration or a visitor. -/
structure ListItem where
  ethSrc : EtherAddress := 0
  ipSrc : IPAddress
  ipDst : IPAddress
  udpSrc : UInt16
  udpDst : UInt16
  homeAgent : IPAddress
  id1 : UInt32
  id2 : UInt32
  lifetimeReq : UInt16
  lifetimeRem : UInt16
  deriving DecidableEq, Repr

structure HARegistrationEntry where
  mobileNodeHomadress : IPAddress
  mobileNodeCoa : IPAddress
  lifetime : UInt16
  id1 : UInt32
  id2 : UInt32
  deriving DecidableEq, Repr

abbrev RegistrationTable := HashMap IPAddress HARegistrationEntry
abbrev RegistrationIPList := List IPAddress

structure AgentBase where
  maxRequests : ℤ
  lifetimeReg : ℤ
  publicAddr : IPAddress
  privateAddr : IPAddress
  registrationReq : List ListItem := []
  visitorMap : List ListItem := []
  table : RegistrationTable := fun _ => none
  list : RegistrationIPList := []

namespace AgentBase

/-- The agent after configuration: no pending request, no visitor, no binding. -/
def configure (publicAddr privateAddr : IPAddress) (lifetimeReg : ℤ) : AgentBase where
  maxRequests := 5
  lifetimeReg := lifetimeReg
  publicAddr := publicAddr
  privateAddr := privateAddr

def inMapNode (s : AgentBase) (node : IPAddress) : Bool :=
  s.visitorMap.any (fun it => it.ipSrc == node)

def isHome (s : AgentBase) (addr : IPAddress) : Bool :=
  match s.table.findPair addr with
  | none => true
  | some _ => false

theorem isHome_eq_false {s : AgentBase} {addr : IPAddress} :
    s.isHome addr = false ↔ ∃ entry, s.table addr = some entry := by
  unfold isHome HashMap.findPair
  cases h : s.table addr <;> simp

theorem inMapNode_iff {s : AgentBase} {node : IPAddress} :
    s.inMapNode node = true ↔ ∃ it ∈ s.visitorMap, it.ipSrc = node := by
  simp [inMapNode]

end AgentBase
end ClickMobileIP
