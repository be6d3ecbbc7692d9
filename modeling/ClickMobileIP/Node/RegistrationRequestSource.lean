import ClickMobileIP.Agent.AgentBase
import ClickMobileIP.Support.EraseSweep
import Mathlib

/-! # The mobile node and its registration source

The node's elements share one information list; the source adds the requests it has
sent. A record of a request stays after the request was answered, until its lifetime
has run out. `Draw` holds what one call of `makePacket` takes from outside: the
outcome of `Packet::make` and three values of `rand()`.
-/
namespace ClickMobileIP
open ByteLayout EraseSweep

structure Advertisement where
  lifetime : UInt16
  regLifetime : UInt16
  sequenceNum : UInt16
  coa : IPAddress
  privateAddr : IPAddress
  ha : Bool
  fa : Bool
  deriving DecidableEq, Repr

structure MobileInfoList where
  home : Bool
  connected : Bool
  advertisementReady : Bool
  remainingConnectionTime : UInt16
  currCoa : IPAddress
  currPrivateAddr : IPAddress
  homePublicAddr : IPAddress
  homePrivateAddr : IPAddress
  myAddress : IPAddress
  currentAdvertisements : List Advertisement := []
  deriving DecidableEq, Repr

structure Request where
  ipDst : IPAddress
  coa : IPAddress
  id1 : UInt32
  id2 : UInt32
  requestedLifetime : UInt16
  remainingLifetime : UInt16
  port : UInt16
  deriving DecidableEq, Repr

/-- The second timer is scheduled by the first accepted registration. -/
structure MobileNode extends MobileInfoList where
  currentRequests : List Request := []
  timer2Scheduled : Bool := false
  deriving DecidableEq, Repr

def MobileNode.configure (myAddress homePrivateAddr homePublicAddr : IPAddress) : MobileNode where
  home := true
  connected := false
  advertisementReady := false
  remainingConnectionTime := 0
  currCoa := homePublicAddr
  currPrivateAddr := homePrivateAddr
  homePublicAddr := homePublicAddr
  homePrivateAddr := homePrivateAddr
  myAddress := myAddress

structure Draw where
  alloc : Bool
  port : ℕ
  id1 : ℕ
  id2 : ℕ
  deriving DecidableEq, Repr

namespace Draw

def sport (d : Draw) : UInt16 := htons (UInt16.ofNat (1000 + (d.port % 2000 + 1)))
def netId1 (d : Draw) : UInt32 := htonl (UInt32.ofNat (d.id1 % 2147483647))
def netId2 (d : Draw) : UInt32 := htonl (UInt32.ofNat (d.id2 % 2147483647))

end Draw

namespace RegistrationRequestSource

def newReq (d : Draw) (a : Advertisement) : Request where
  ipDst := a.privateAddr
  coa := a.coa
  id1 := d.netId1
  id2 := d.netId2
  requestedLifetime := a.regLifetime
  remainingLifetime := a.regLifetime
  port := d.sport

def requestHeader (d : Draw) (s : MobileNode) (a : Advertisement) : RegistrationRequestPacketheader where
  type := 1
  flags := 0
  lifetime := if a.privateAddr = s.homePrivateAddr then 0 else a.regLifetime
  homeAddr := s.myAddress
  homeAgent := s.homePublicAddr
  coAddr := a.coa
  id1 := d.netId1
  id2 := d.netId2

def requestPacket (d : Draw) (s : MobileNode) (a : Advertisement) : Packet where
  data := udpPacket
    { ipV := 4, ipHl := 5, ipLen := htons 52, ipId := htons 1, ipP := 17, ipTtl := 20, ipSrc := s.myAddress,
      ipDst := a.privateAddr }
    { uhSport := d.sport, uhDport := htons 434, uhUlen := htons 32 }
    (RegistrationRequestPacketheader.layout.write (requestHeader d s a)) 32
  dstIpAnno := a.privateAddr

/-- A request to the home agent is a deregistration; the node moves its addresses home
before it is answered. -/
def makePacket (d : Draw) (s : MobileNode) (a : Advertisement) : MobileNode × List Emission :=
  if d.alloc = false then (s,[])
  else
    let t : MobileNode :=
      if a.privateAddr = s.homePrivateAddr then
        { s with currPrivateAddr := s.homePrivateAddr, currCoa := a.coa, remainingConnectionTime := 0 }
      else s
    ({ t with currentRequests := s.currentRequests ++ [newReq d a] },[⟨0,requestPacket d s a⟩])

def answers (s : MobileNode) (p : Packet) (it : Request) : Bool :=
  p.reply.id1 == it.id1 && p.reply.id2 == it.id2 && p.udp.uhDport == it.port &&
    p.reply.homeAgent == s.homePublicAddr

def accept (p : Packet) (s : MobileNode) (it : Request) : MobileNode :=
  if p.reply.lifetime = 0 then
    { s with home := true, remainingConnectionTime := 0, currPrivateAddr := it.ipDst, currCoa := it.coa }
  else
    let diff := it.requestedLifetime - p.reply.lifetime
    { s with
      home := false
      connected := true
      currPrivateAddr := it.ipDst
      currCoa := it.coa
      remainingConnectionTime := it.remainingLifetime - diff
      timer2Scheduled := true }

def push (s : MobileNode) (p : Packet) : MobileNode :=
  if p.length < 48 then s
  else if p.reply.type = 3 then
    if p.reply.code = 0 ∨ p.reply.code = 1 then
      s.currentRequests.foldl (fun t it => if answers t p it then accept p t it else t) s
    else s
  else s

def requestVisit (_ : ℕ) (it : Request) : Visit Request × List Emission :=
  let it := { it with remainingLifetime := tickDown it.remainingLifetime }
  if it.remainingLifetime = 0 then (.erase,[]) else (.keep it,[])

/-- The first timer ages the records. -/
def runTimer (s : MobileNode) : Option MobileNode :=
  (sweepBackward requestVisit s.currentRequests.length s.currentRequests).map
    (fun r => { s with currentRequests := r.2.1 })

/-- The second timer counts the connection down and registers again at two seconds. -/
def runTimer2 (d : Draw) (s : MobileNode) : MobileNode × List Emission :=
  if s.remainingConnectionTime = 0 then ({ s with connected := false },[])
  else
    let s := { s with remainingConnectionTime := tickDown s.remainingConnectionTime }
    if s.remainingConnectionTime = htons 2 ∧ s.connected = true ∧ s.home = false then
      match s.currentAdvertisements.find?
          (fun it => it.privateAddr == s.currPrivateAddr && it.coa == s.currCoa) with
      | none => (s,[])
      | some it => makePacket d s it
    else (s,[])

/-- Only the addresses, the connection time and the records change. -/
theorem makePacket_frame (d : Draw) (s : MobileNode) (a : Advertisement) :
    ∃ coa addr time records, (makePacket d s a).1 =
      { s with currCoa := coa, currPrivateAddr := addr, remainingConnectionTime := time,
               currentRequests := records } := by
  unfold makePacket
  split_ifs
  · exact ⟨_,_,_,_,rfl⟩
  · exact ⟨_,_,_,_,rfl⟩
  · exact ⟨_,_,_,_,rfl⟩

def ageRequest (it : Request) : Option Request :=
  if tickDown it.remainingLifetime = 0 then none
  else some { it with remainingLifetime := tickDown it.remainingLifetime }

theorem requestVisit_keep (k : ℕ) {a b : Request} (h : ageRequest a = some b) :
    requestVisit k a = (.keep b,[]) := by
  unfold ageRequest at h
  split at h
  · cases h
  · rename_i hzero
    cases h
    rw [requestVisit,if_neg hzero]

theorem requestVisit_erase (k : ℕ) {a : Request} (h : ageRequest a = none) : requestVisit k a = (.erase,[]) := by
  unfold ageRequest at h
  split at h
  · rename_i hzero
    rw [requestVisit,if_pos hzero]
  · cases h

theorem runTimer_eq (s : MobileNode) : runTimer s =
    some { s with currentRequests := s.currentRequests.filterMap ageRequest } := by
  rw [runTimer,sweepBackward_eq (g := fun _ => []) (fun k _ _ => requestVisit_keep k)
    (fun k _ => requestVisit_erase k)]
  rfl

/-- The node has an advertisement of the agent it is registered with. -/
def HearsAgent (s : MobileNode) : Prop :=
  ∃ it ∈ s.currentAdvertisements, it.privateAddr = s.currPrivateAddr ∧ it.coa = s.currCoa

/-- What the second timer does to a node that has run out of time, that renews its
registration, and that only counts down. -/
inductive Ticked2 (d : Draw) (s : MobileNode) : MobileNode → List Emission → Prop
  | lapsed (h : s.remainingConnectionTime = 0) : Ticked2 d s { s with connected := false } []
  | renewed (hleft : s.remainingConnectionTime ≠ 0) (h : tickDown s.remainingConnectionTime = htons 2)
      (hconnected : s.connected = true) (haway : s.home = false) (it : Advertisement)
      (hmem : it ∈ s.currentAdvertisements) (haddr : it.privateAddr = s.currPrivateAddr) (hcoa : it.coa = s.currCoa) :
      Ticked2 d s (makePacket d { s with remainingConnectionTime := tickDown s.remainingConnectionTime } it).1
        (makePacket d { s with remainingConnectionTime := tickDown s.remainingConnectionTime } it).2
  | counted (hleft : s.remainingConnectionTime ≠ 0)
      (h : ¬(tickDown s.remainingConnectionTime = htons 2 ∧ s.connected = true ∧ s.home = false ∧ HearsAgent s)) :
      Ticked2 d s { s with remainingConnectionTime := tickDown s.remainingConnectionTime } []

theorem runTimer2_ticked2 (d : Draw) (s : MobileNode) : Ticked2 d s (runTimer2 d s).1 (runTimer2 d s).2 := by
  unfold runTimer2
  by_cases hzero : s.remainingConnectionTime = 0
  · rw [if_pos hzero]
    exact .lapsed hzero
  rw [if_neg hzero]
  dsimp only
  by_cases hdue : tickDown s.remainingConnectionTime = htons 2 ∧ s.connected = true ∧ s.home = false
  · rw [if_pos hdue]
    cases hfind : s.currentAdvertisements.find?
        (fun it => it.privateAddr == s.currPrivateAddr && it.coa == s.currCoa) with
    | none =>
      refine .counted hzero ?_
      rintro ⟨-,-,-,it,hit,haddr,hcoa⟩
      have hnone := List.find?_eq_none.mp hfind it hit
      simp [haddr,hcoa] at hnone
    | some it =>
      have hsame := List.find?_some hfind
      simp only [Bool.and_eq_true,beq_iff_eq] at hsame
      exact .renewed hzero hdue.1 hdue.2.1 hdue.2.2 it (List.mem_of_find?_eq_some hfind) hsame.1 hsame.2
  · rw [if_neg hdue]
    exact .counted hzero (fun h => hdue ⟨h.1,h.2.1,h.2.2.1⟩)

theorem foldl_unanswered {p : Packet} {records : List Request} {t : MobileNode}
    (h : ∀ it ∈ records, answers t p it = false) :
    records.foldl (fun t it => if answers t p it then accept p t it else t) t = t := by
  induction records with
  | nil => rfl
  | cons it rest ih =>
    rw [List.foldl_cons,h it List.mem_cons_self]
    exact ih (fun b hb => h b (List.mem_cons_of_mem _ hb))

theorem foldl_preserves {P : MobileNode → Prop} {p : Packet} {records : List Request} {t : MobileNode}
    (haccept : ∀ t, ∀ it ∈ records, P t → P (accept p t it)) (ht : P t) :
    P (records.foldl (fun t it => if answers t p it then accept p t it else t) t) := by
  induction records generalizing t with
  | nil => exact ht
  | cons it rest ih =>
    have hrest : ∀ t, ∀ it ∈ rest, P t → P (accept p t it) :=
      fun t it h => haccept t it (List.mem_cons_of_mem _ h)
    rw [List.foldl_cons]
    split
    · exact ih hrest (haccept t it List.mem_cons_self ht)
    · exact ih hrest ht

theorem push_preserves_mem {P : MobileNode → Prop} {s : MobileNode} {p : Packet}
    (haccept : ∀ t, ∀ it ∈ s.currentRequests, P t → P (accept p t it)) (hs : P s) : P (push s p) := by
  unfold push
  split_ifs
  · exact hs
  · exact foldl_preserves haccept hs
  · exact hs
  · exact hs

theorem push_preserves {P : MobileNode → Prop} {s : MobileNode} {p : Packet}
    (haccept : ∀ t it, P t → P (accept p t it)) (hs : P s) : P (push s p) :=
  push_preserves_mem (fun t it _ => haccept t it) hs

end RegistrationRequestSource

namespace AgentSolicitation

/-- The header checksum is taken over the whole packet while the solicitation is still
zero. -/
def solicitationIp (s : MobileNode) : ClickIp :=
  let iph : ClickIp :=
    { ipV := 4, ipHl := 5, ipLen := htons 28, ipTtl := 1, ipP := 1, ipSrc := s.myAddress, ipDst := 0xffffffff }
  { iph with ipSum := clickInCksum (ClickIp.layout.write iph ++ List.replicate 8 0) }

def solicitationHeader : SolicitationPacketheader :=
  let sh : SolicitationPacketheader := { type := 10, code := 0 }
  { sh with checksum := clickInCksum (SolicitationPacketheader.layout.write sh) }

def solicitationPacket (s : MobileNode) : Packet where
  data := ClickIp.layout.write (solicitationIp s) ++ SolicitationPacketheader.layout.write solicitationHeader
  dstIpAnno := 0xffffffff

/-- `alloc` tells whether `Packet::make` succeeds. -/
def makePacket (alloc : Bool) (s : MobileNode) : Option Packet :=
  if alloc = false then none else some (solicitationPacket s)

def push (p : Packet) : List Emission := [⟨0,p⟩]

@[simp] theorem length_solicitationPacket (s : MobileNode) : (solicitationPacket s).length = 28 := by
  simp [solicitationPacket,Packet.length]

@[simp] theorem ip_solicitationPacket (s : MobileNode) : (solicitationPacket s).ip = solicitationIp s :=
  ClickIp.layout.read_write _ _

@[simp] theorem solicitation_solicitationPacket (s : MobileNode) :
    (solicitationPacket s).solicitation = solicitationHeader := by
  have hdrop : (solicitationPacket s).data.drop 20 =
      SolicitationPacketheader.layout.write solicitationHeader := ClickIp.layout.drop_write_append _ _
  rw [Packet.solicitation,hdrop,Layout.read_write_self]

end AgentSolicitation

/-- Packets for other networks leave through the current agent. -/
def SetGateway.push (s : MobileNode) (p : Packet) : List Emission :=
  [⟨0,{ p with dstIpAnno := s.currPrivateAddr }⟩]

end ClickMobileIP
