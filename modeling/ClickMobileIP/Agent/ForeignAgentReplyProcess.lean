import ClickMobileIP.Agent.ForeignAgentReqProcess
import ClickMobileIP.Support.EventRun

/-! # The foreign agent's reply element and the runs of a foreign agent

A reply is matched with the first pending entry that carries its two ids, whatever
node and home agent the entry belongs to, and is then forwarded to the home address
it names. `uninit` is the value of the member `udpDst` that a visitor entry never
initialises.
-/
namespace ClickMobileIP.ForeignAgentReplyProcess
open EraseSweep

def sameIds (format : RegistrationRequestReplyPacketheader) (it : ListItem) : Bool :=
  it.id1 == format.id1 && it.id2 == format.id2

/-- The visitor entry made from a pending one. -/
def visitorItem (uninit : UInt16) (it : ListItem) (format : RegistrationRequestReplyPacketheader) :
    ListItem :=
  let lifetime := if it.lifetimeReq < format.lifetime then it.lifetimeReq else format.lifetime
  { ethSrc := it.ethSrc, ipSrc := it.ipSrc, ipDst := it.ipDst, udpSrc := it.udpSrc, udpDst := uninit,
    homeAgent := it.homeAgent, id1 := it.id1, id2 := it.id2, lifetimeReq := lifetime, lifetimeRem := lifetime }

/-- The inner loop that erases every older entry of the node. -/
def purge (node : IPAddress) (visitors : List ListItem) : Option (List ListItem) :=
  (sweepForward (fun _ it => some ((),if it.ipSrc = node then none else some it))
    visitors.length () visitors 0).map Prod.snd

def update (uninit : UInt16) (s : AgentBase) (format : RegistrationRequestReplyPacketheader) :
    Option AgentBase :=
  let rest := s.registrationReq.eraseP (sameIds format)
  if format.code = 0 ∨ format.code = 1 then
    match s.registrationReq.find? (sameIds format) with
    | none => some s
    | some it =>
      let item := visitorItem uninit it format
      (purge item.ipSrc s.visitorMap).map
        (fun visitors => { s with registrationReq := rest, visitorMap := visitors ++ [item] })
  else some { s with registrationReq := rest }

/-- The reply with the addresses of the last hop. -/
def forward (s : AgentBase) (p : Packet) : Packet where
  data := udpPacket { p.ip with ipSrc := s.privateAddr, ipDst := p.reply.homeAddr } p.udp
    (p.data.drop 28) 28
  dstIpAnno := p.reply.homeAddr

def push (uninit : UInt16) (s : AgentBase) (p : Packet) : Option (AgentBase × List Emission) :=
  if p.length < 48 then some (s,[])
  else if p.reply.type ≠ 3 then some (s,[])
  else (update uninit s p.reply).map (fun t => (t,[⟨0,forward s p⟩]))

theorem purge_eq (node : IPAddress) (visitors : List ListItem) :
    purge node visitors = some (visitors.filter (fun it => it.ipSrc ≠ node)) := by
  have hfilter : visitors.filterMap (fun it => if it.ipSrc = node then none else some it) =
      visitors.filter (fun it => it.ipSrc ≠ node) := by
    induction visitors with
    | nil => rfl
    | cons it rest ih =>
      by_cases h : it.ipSrc = node
      · simp [h,ih]
      · simp [h,ih]
  rw [purge,sweepForward_eq,sweep_eq_filterMap,Option.map_some,hfilter]

/-- The two lists after a reply, with the first match taken out. -/
def settled (uninit : UInt16) (s : AgentBase) (format : RegistrationRequestReplyPacketheader) :
    AgentBase :=
  { s with
    registrationReq := s.registrationReq.eraseP (sameIds format)
    visitorMap :=
      if format.code = 0 ∨ format.code = 1 then
        match s.registrationReq.find? (sameIds format) with
        | none => s.visitorMap
        | some it => s.visitorMap.filter (fun v => v.ipSrc ≠ it.ipSrc) ++ [visitorItem uninit it format]
      else s.visitorMap }

theorem update_eq (uninit : UInt16) (s : AgentBase) (format : RegistrationRequestReplyPacketheader) :
    update uninit s format = some (settled uninit s format) := by
  unfold update settled
  dsimp only
  by_cases hcode : format.code = 0 ∨ format.code = 1
  · rw [if_pos hcode,if_pos hcode]
    cases hfind : s.registrationReq.find? (sameIds format) with
    | none =>
      have herase : s.registrationReq.eraseP (sameIds format) = s.registrationReq :=
        List.eraseP_of_forall_not (fun a ha => by simpa using List.find?_eq_none.mp hfind a ha)
      simp only [herase]
    | some it =>
      simp only [purge_eq,Option.map_some]
      rfl
  · rw [if_neg hcode,if_neg hcode]

theorem push_reply {s : AgentBase} {p : Packet} (uninit : UInt16) (hp : p.IsReply) :
    push uninit s p = some (settled uninit s p.reply,[⟨0,forward s p⟩]) := by
  have hlen : ¬p.length < 48 := by have := hp.1; omega
  rw [push,if_neg hlen,if_neg (not_not.mpr hp.2),update_eq]
  rfl

theorem push_other {s : AgentBase} {p : Packet} (uninit : UInt16) (hp : ¬p.IsReply) :
    push uninit s p = some (s,[]) := by
  unfold push
  by_cases hlen : p.length < 48
  · rw [if_pos hlen]
  · rw [if_neg hlen,if_pos (fun h => hp ⟨by omega,h⟩)]

end ClickMobileIP.ForeignAgentReplyProcess

namespace ClickMobileIP.ForeignAgent
open EventRun

inductive Event
  | request (alloc : Bool) (p : Packet)
  | reply (uninit : UInt16) (p : Packet)
  | runTimer (alloc : ℕ → Bool)

def step (s : AgentBase) : Event → Option (AgentBase × List Emission)
  | .request alloc p => some (ForeignAgentReqProcess.push alloc s p)
  | .reply uninit p => ForeignAgentReplyProcess.push uninit s p
  | .runTimer alloc => (ForeignAgentReqProcess.runTimer alloc s).map (fun t => (t.base,t.emitted))

inductive Stepped (s : AgentBase) : Event → AgentBase → List Emission → Prop
  | request (alloc : Bool) (p : Packet) (t : AgentBase) (out : List Emission)
      (h : ForeignAgentReqProcess.Pushed alloc s p t out) : Stepped s (.request alloc p) t out
  | reply (uninit : UInt16) (p : Packet) (hp : p.IsReply) :
      Stepped s (.reply uninit p) (ForeignAgentReplyProcess.settled uninit s p.reply)
        [⟨0,ForeignAgentReplyProcess.forward s p⟩]
  | ignored (uninit : UInt16) (p : Packet) (hp : ¬p.IsReply) : Stepped s (.reply uninit p) s []
  | ticked (alloc : ℕ → Bool) (pending visitors : List ListItem) (out : List Emission)
      (hlen : pending.length ≤ s.registrationReq.length)
      (horigin : ∀ b ∈ pending, ∃ a ∈ s.registrationReq, b = a ∨
        b = { a with lifetimeRem := tickDown a.lifetimeRem })
      (hvisitors : visitors = s.visitorMap ∨
        visitors = s.visitorMap.filterMap ForeignAgentReqProcess.visitorVisit) :
      Stepped s (.runTimer alloc) { s with registrationReq := pending, visitorMap := visitors } out

theorem step_stepped (s : AgentBase) (e : Event) : ∃ t out, step s e = some (t,out) ∧ Stepped s e t out := by
  cases e with
  | request alloc p => exact ⟨_,_,rfl,.request alloc p _ _ (ForeignAgentReqProcess.push_pushed alloc s p)⟩
  | reply uninit p =>
    by_cases hp : p.IsReply
    · exact ⟨_,_,ForeignAgentReplyProcess.push_reply uninit hp,.reply uninit p hp⟩
    · exact ⟨_,_,ForeignAgentReplyProcess.push_other uninit hp,.ignored uninit p hp⟩
  | runTimer alloc =>
    obtain ⟨⟨base,emitted,rescheduled⟩,ht,pending,visitors,rfl,hlen,horigin,hvisitors⟩ :=
      ForeignAgentReqProcess.runTimer_origin alloc s
    exact ⟨_,emitted,by simp only [step,ht,Option.map_some],
      .ticked alloc pending visitors emitted hlen horigin hvisitors⟩

theorem stepped_of_step {s t : AgentBase} {e : Event} {out : List Emission} (h : step s e = some (t,out)) :
    Stepped s e t out := by
  obtain ⟨t',out',h',hstepped⟩ := step_stepped s e
  rw [h] at h'
  cases h'
  exact hstepped

theorem step_isSome (s : AgentBase) (e : Event) : ∃ t out, step s e = some (t,out) := by
  obtain ⟨t,out,h,-⟩ := step_stepped s e
  exact ⟨t,out,h⟩

theorem run_isSome (s : AgentBase) (es : List Event) : ∃ t out, run step s es = some (t,out) :=
  run_defined step_isSome s es

end ClickMobileIP.ForeignAgent
