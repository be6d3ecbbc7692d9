import ClickMobileIP.Agent.AgentAdvertiser
import ClickMobileIP.Agent.ForeignAgentReplyProcess
import ClickMobileIP.Agent.ForeignAgentReqProcess
import ClickMobileIP.Agent.RegistrationRequestReply
import ClickMobileIP.Agent.Tunnel
import ClickMobileIP.Router.ForwardingPath
import ClickMobileIP.Router.RouteTable

/-! # The router of an agent

`ha.click` and `fa.click` define one compound element, `Agent`: the elements between the
classifiers behind the two interfaces and the queriers in front of them. The graph has
cycles, as every error message goes back to the routing table. The elements are those of
the other modules, the wiring is that of the script. An allocation that fails ends the way of
one packet; a copy for a redirect that fails is a fault.
-/
namespace ClickMobileIP
open ByteLayout PushGraph

/-- The interfaces; packets from the first are painted 1, from the second 2. -/
inductive Side
  | privateNet
  | publicNet
  deriving DecidableEq, Repr

def Side.color : Side → UInt8
  | .privateNet => 1
  | .publicNet => 2

/-- `IPClassifier(src udp port 434 or dst udp port 434,-)`: the ports of a first fragment, as far as
the packet reaches. -/
def IPClassifier.isRegistration (p : Packet) : Bool :=
  p.ip.ipP == 17 && p.ip.fragOffset == 0 &&
    ((2 ≤ p.datagram.length && Layout.u16.read p.datagram == htons 434) ||
      (4 ≤ p.datagram.length && Layout.u16.read (p.datagram.drop 2) == htons 434))

/-- The state of the compound element. `icmpId` is the counter that all `ICMPError` elements share. -/
structure Agent where
  base : AgentBase
  rt : LinearIPLookup
  icmpId : ℕ := 1

namespace Agent

def addr (s : Agent) : Side → IPAddress
  | .privateNet => s.base.privateAddr
  | .publicNet => s.base.publicAddr

inductive Element
  | ip
  | soli
  | checkPaint
  | checkIcmp
  | rt
  | ipdecap
  | inner
  | ipc
  | mipfilter
  | reply
  | regrep
  | farp
  | drop (side : Side)
  | ipenc
  | paint (side : Side)
  | path (side : Side) (e : Path)
  | error (side : Side) (problem : Problem)
  deriving DecidableEq, Repr

/-- The wires that leave the graph. All but the last two end at the querier of an interface. -/
inductive Exit
  | forwarded (side : Side)
  | tunnel
  | delivered
  | registration (side : Side)
  | host
  | advertiser
  deriving DecidableEq, Repr

def routeTarget (port : ℤ) : Option Element :=
  if port = 0 then some .ipdecap
  else if port = 1 then some (.drop .privateNet)
  else if port = 2 then some (.drop .publicNet)
  else none

def pathTarget (side : Side) : Path.Exit → Element ⊕ Exit
  | .sent => .inr (.forwarded side)
  | .problem problem => .inl (.error side problem)

variable (env : Env)

def handler : Handler Element Exit Annotated Agent
  | .ip, a, s =>
    some (s,((CheckIPHeader.simpleAction {} a.packet).map (fun p => (.inl .soli,a.withPacket p))).toList)
  | .soli, a, s => some (s,wire [.inl .rt,.inl .checkPaint] (keep a (SolicitationFilter.push a.packet)))
  | .checkPaint, a, s => some (s,wire [.inl .checkIcmp] (CheckPaint.simpleAction 1 a))
  | .checkIcmp, a, s =>
    some (s,((CheckICMPHeader.simpleAction a.packet).map (fun p => (.inr .advertiser,a.withPacket p))).toList)
  | .rt, a, s =>
    some ({ s with rt := (s.rt.push a.packet).1 },(s.rt.push a.packet).2.filterMap
      (fun x => (routeTarget x.1).map (fun e => (.inl e,a.withPacket x.2))))
  | .ipdecap, a, s =>
    (IpDecap.push s.base a.packet).map (fun sent => (s,wire [.inl .ipc,.inl .inner] (keep a sent)))
  | .inner, a, s =>
    some (s,((CheckIPHeader.simpleAction {} a.packet).map (fun p => (.inr .delivered,a.withPacket p))).toList)
  | .ipc, a, s => some (s,[(if IPClassifier.isRegistration a.packet then .inl .mipfilter else .inr .host,a)])
  | .mipfilter, a, s =>
    (MobileIPFilter.push s.base a.packet).map (fun sent =>
      (s,(keep a sent).filterMap (fun x =>
        if x.1 = 1 then some (.inl .reply,x.2)
        else if x.1 = 2 then some (.inl .regrep,x.2)
        else if x.1 = 3 then some (.inl .farp,x.2)
        else none)))
  | .reply, a, s =>
    (ForeignAgentReplyProcess.push env.uninit s.base a.packet).map (fun r =>
      ({ s with base := r.1 },wire [.inr (.registration .privateNet)] (keep a r.2)))
  | .regrep, a, s =>
    (RegistrationRequestReply.push (env.alloc .answer) s.base a.packet).map (fun r =>
      ({ s with base := r.1 },wire [.inr (.registration .publicNet),.inr (.registration .privateNet)] (keep a r.2)))
  | .farp, a, s =>
    let r := ForeignAgentReqProcess.push (env.alloc .answer) s.base a.packet
    some ({ s with base := r.1 },wire [.inr (.registration .privateNet),.inr (.registration .publicNet)] (keep a r.2))
  | .drop .privateNet, a, s => some (s,wire [.inl .ipenc] (DropBroadcasts.simpleAction a))
  | .drop .publicNet, a, s => some (s,wire [.inl (.paint .publicNet)] (DropBroadcasts.simpleAction a))
  | .ipenc, a, s =>
    (IpEncapsulation.push (env.alloc .tunnel) s.base a.packet).map (fun sent =>
      (s,wire [.inl (.paint .privateNet),.inr .tunnel] (keep a sent)))
  | .paint side, a, s =>
    (PaintTee.simpleAction (env.alloc .clone) side.color a).map (fun sent =>
      (s,wire [.inl (.path side .ipgw),.inl (.error side .redirect)] sent))
  | .path side e, a, s =>
    (e.pushes env (s.addr side) a).map (fun xs =>
      (s,xs.map (fun x => (Path.target (.path side) (pathTarget side) x.1,x.2))))
  | .error side problem, a, s =>
    ((problem.error (s.addr side)).simpleAction (env.alloc (.message problem)) s.icmpId a).map (fun message =>
      match message with
      | none => (s,[])
      | some q => ({ s with icmpId := s.icmpId + 1 },[(.inl .rt,q)]))

/-- A packet from an interface, painted and without its Ethernet header. -/
def receive (depth : ℕ) (side : Side) (a : Annotated) (s : Agent) : Outcome (Agent × List (Exit × Annotated)) :=
  push (handler env) depth .ip { a with paint := side.color } s

section Depth
variable {env} {a b : Annotated} {s t : Agent} {pushes : List ((Element ⊕ Exit) × Annotated)}

/-- A packet that no element of a forwarding path has anything to say about. -/
structure Quiet (a : Annotated) : Prop where
  paint : a.paint = 0
  inert : ICMPError.Inert a.packet
  ttl : 1 < a.packet.ip.ipTtl
  short : a.packet.length ≤ 1500

noncomputable instance (a : Annotated) : Decidable (Quiet a) := Classical.propDecidable _

/-- How many calls a packet can cause from here on. A quiet packet causes no error message, every
other at most one behind each element, and the message is quiet. -/
noncomputable def rank : Element → Annotated → ℕ
  | .checkIcmp, _ | .reply, _ | .regrep, _ | .farp, _ | .inner, _ => 1
  | .checkPaint, _ | .mipfilter, _ => 2
  | .ipc, _ => 3
  | .ipdecap, _ => 4
  | .path _ e, a => if Path.Smooth e a then e.left else e.left + 9
  | .paint _, a => if Quiet a then 5 else 14
  | .ipenc, a => if Quiet a then 6 else 15
  | .drop _, a => if Quiet a then 7 else 16
  | .rt, a => if Quiet a then 8 else 17
  | .error _ _, _ => 9
  | .soli, _ => 18
  | .ip, _ => 19

def Known : Element → Annotated → Prop
  | .ip, _ | .checkPaint, _ | .checkIcmp, _ | .inner, _ | .ipc, _ | .mipfilter, _ => True
  | .reply, _ | .regrep, _ | .farp, _ => True
  | .error _ _, a => a.packet.headerLength ≤ a.packet.length
  | .soli, a | .rt, a | .ipdecap, a | .drop _, a | .ipenc, a | .paint _, a | .path _ _, a => a.packet.Valid

/-- What is known of a packet that leaves: a tunnel packet can be longer than its length field can say. -/
def Leaves : Exit → Annotated → Prop
  | .forwarded _, a => a.packet.Valid ∧ a.packet.length ≤ 1500
  | .delivered, a => a.packet.Valid
  | .tunnel, a => a.packet.length ≤ 65535 → a.packet.Valid
  | .registration _, _ | .host, _ | .advertiser, _ => True

abbrev LeadsFrom (e : Element) (a : Annotated) : (Element ⊕ Exit) × Annotated → Prop :=
  Leads Known Leaves rank (rank e a)

theorem ite_lt_ite {p q : Prop} [Decidable p] [Decidable q] (h : p → q) {m n k l : ℕ} (hm : m < n) (hk : k < l)
    (hl : m < l) : (if q then m else k) < (if p then n else l) := by
  by_cases hp : p
  · rw [if_pos hp,if_pos (h hp)]
    exact hm
  · rw [if_neg hp]
    by_cases hq : q
    · rw [if_pos hq]
      exact hl
    · rw [if_neg hq]
      exact hk

theorem Quiet.anno (h : Quiet a) (gw : IPAddress) : Quiet (a.withPacket { a.packet with dstIpAnno := gw }) :=
  ⟨h.paint,h.inert,h.ttl,h.short⟩

theorem ip_leads (h : handler env .ip a s = some (t,pushes)) : ∀ x ∈ pushes, LeadsFrom .ip a x := by
  cases h
  intro x hx
  obtain ⟨p,hp,rfl⟩ := Option.map_eq_some_iff.mp (Option.mem_toList.mp hx)
  exact ⟨(CheckIPHeader.valid_of_simpleAction hp).1,show 18 < 19 by decide⟩

theorem packet_of_soli {p : Packet} {m : Emission} (h : m ∈ SolicitationFilter.push p) : m.packet = p := by
  unfold SolicitationFilter.push at h
  dsimp only at h
  split_ifs at h <;> simp only [List.mem_singleton,List.not_mem_nil] at h <;> rw [h]

theorem soli_leads (ha : a.packet.Valid) (h : handler env .soli a s = some (t,pushes)) :
    ∀ x ∈ pushes, LeadsFrom .soli a x := by
  cases h
  refine wire_two (fun b hmem => ?_) (fun b hmem => ⟨trivial,show 2 < 18 by decide⟩)
  obtain ⟨m,hm,-,rfl⟩ := mem_keep hmem
  refine ⟨packet_of_soli hm ▸ ha,?_⟩
  change (if Quiet _ then 8 else 17) < 18
  split_ifs <;> decide

theorem rt_leads (ha : a.packet.Valid) (h : handler env .rt a s = some (t,pushes)) :
    ∀ x ∈ pushes, LeadsFrom .rt a x := by
  cases h
  intro x hx
  obtain ⟨⟨port,p⟩,hmem,hsome⟩ := List.mem_filterMap.mp hx
  obtain ⟨e,he,rfl⟩ := Option.map_eq_some_iff.mp hsome
  have hp : ∃ gw, p = { a.packet with dstIpAnno := gw } := by
    unfold LinearIPLookup.push at hmem
    split at hmem
    · cases hmem
    · obtain ⟨-,rfl⟩ := Prod.mk.inj (List.mem_singleton.mp hmem)
      dsimp only
      split_ifs
      · exact ⟨_,rfl⟩
      · exact ⟨a.packet.dstIpAnno,rfl⟩
  obtain ⟨gw,rfl⟩ := hp
  have hdrop : ∀ side, LeadsFrom .rt a (.inl (.drop side),a.withPacket { a.packet with dstIpAnno := gw }) :=
    fun side => ⟨ha.anno gw,ite_lt_ite (fun hq => hq.anno gw) (by decide) (by decide) (by decide)⟩
  unfold routeTarget at he
  split_ifs at he
  · cases he
    refine ⟨ha.anno gw,?_⟩
    change 4 < if Quiet a then 8 else 17
    split_ifs <;> decide
  · cases he
    exact hdrop .privateNet
  · cases he
    exact hdrop .publicNet

theorem drop_leads {side : Side} (ha : a.packet.Valid) (h : handler env (.drop side) a s = some (t,pushes)) :
    ∀ x ∈ pushes, LeadsFrom (.drop side) a x := by
  cases side with
  | privateNet =>
    cases h
    refine wire_one (fun b hmem => ?_)
    rw [DropBroadcasts.same hmem]
    exact ⟨ha,ite_lt_ite id (by decide) (by decide) (by decide)⟩
  | publicNet =>
    cases h
    refine wire_one (fun b hmem => ?_)
    rw [DropBroadcasts.same hmem]
    exact ⟨ha,ite_lt_ite id (by decide) (by decide) (by decide)⟩

theorem encapsulate_valid (s : AgentBase) (careOff : IPAddress) {p : Packet}
    (hlen : (IpEncapsulation.encapsulate s careOff p).length ≤ 65535) :
    (IpEncapsulation.encapsulate s careOff p).Valid := by
  rw [Tunnel.length_encapsulate] at hlen
  exact (CheckIPHeader.valid_of_simpleAction (Tunnel.simpleAction_encapsulate s careOff (by omega))).1

theorem encapsulation_cases {alloc : Bool} {base : AgentBase} {p : Packet} {sent : List Emission}
    (h : IpEncapsulation.push alloc base p = some sent) : sent = [⟨0,p⟩] ∨ sent = [] ∨
      ∃ careOff, sent = [⟨1,IpEncapsulation.encapsulate base careOff p⟩] := by
  unfold IpEncapsulation.push at h
  split at h
  · cases h
  · split at h
    · exact .inl (Option.some.inj h).symm
    · split at h
      · cases h
      · rename_i careOff _
        split at h
        · exact .inr (.inl (Option.some.inj h).symm)
        · exact .inr (.inr ⟨careOff,(Option.some.inj h).symm⟩)

theorem ipenc_leads (ha : a.packet.Valid) (h : handler env .ipenc a s = some (t,pushes)) :
    ∀ x ∈ pushes, LeadsFrom .ipenc a x := by
  obtain ⟨sent,hsent,hresult⟩ := Option.map_eq_some_iff.mp h
  obtain ⟨-,rfl⟩ := Prod.mk.inj hresult
  rcases encapsulation_cases hsent with rfl | rfl | ⟨careOff,rfl⟩
  · refine wire_two (fun b hmem => ?_) (fun b hmem => ?_)
    · obtain ⟨m,hm,-,rfl⟩ := mem_keep hmem
      rw [List.mem_singleton.mp hm]
      exact ⟨ha,ite_lt_ite id (by decide) (by decide) (by decide)⟩
    · obtain ⟨m,hm,hport,-⟩ := mem_keep hmem
      rw [List.mem_singleton.mp hm] at hport
      cases hport
  · exact fun x hx => absurd hx List.not_mem_nil
  · refine wire_two (fun b hmem => ?_) (fun b hmem => ?_)
    · obtain ⟨m,hm,hport,-⟩ := mem_keep hmem
      rw [List.mem_singleton.mp hm] at hport
      cases hport
    · obtain ⟨m,hm,-,rfl⟩ := mem_keep hmem
      rw [List.mem_singleton.mp hm]
      exact encapsulate_valid s.base careOff

theorem paint_leads {side : Side} (ha : a.packet.Valid) (h : handler env (.paint side) a s = some (t,pushes)) :
    ∀ x ∈ pushes, LeadsFrom (.paint side) a x := by
  obtain ⟨sent,hsent,hresult⟩ := Option.map_eq_some_iff.mp h
  obtain ⟨-,rfl⟩ := Prod.mk.inj hresult
  refine wire_two (fun b hmem => ?_) (fun b hmem => ?_)
  · rw [(PaintTee.same hsent hmem).1]
    refine ⟨ha,?_⟩
    change (if Path.Smooth .ipgw a then 4 else 13) < if Quiet a then 5 else 14
    exact ite_lt_ite (fun hq => ⟨hq.inert,hq.ttl,hq.short⟩) (by decide) (by decide) (by decide)
  · obtain ⟨hsame,hpaint⟩ := PaintTee.same hsent hmem
    have hloud : ¬Quiet a := by
      intro hquiet
      have hcolor := hquiet.paint.symm.trans (hpaint rfl)
      cases side <;> cases hcolor
    rw [hsame]
    refine ⟨ha.room,?_⟩
    change 9 < if Quiet a then 5 else 14
    rw [if_neg hloud]
    decide

theorem path_leads {side : Side} {e : Path} (ha : a.packet.Valid)
    (h : handler env (.path side e) a s = some (t,pushes)) : ∀ x ∈ pushes, LeadsFrom (.path side e) a x := by
  obtain ⟨xs,hxs,hresult⟩ := Option.map_eq_some_iff.mp h
  obtain ⟨-,rfl⟩ := Prod.mk.inj hresult
  intro x hx
  obtain ⟨⟨target,b⟩,hmem,rfl⟩ := List.mem_map.mp hx
  have hleads := Path.pushes_leads e ha hxs _ hmem
  match target, hleads with
  | .inl e', hleads =>
    obtain ⟨⟨hvalid,hlt,hsmooth⟩,-⟩ := hleads
    refine ⟨hvalid,?_⟩
    change (if Path.Smooth e' b then e'.left else e'.left + 9) < if Path.Smooth e a then e.left else e.left + 9
    exact ite_lt_ite hsmooth (by omega) (by omega) (by omega)
  | .inr .sent, hleads => exact hleads
  | .inr (.problem problem), hleads =>
    refine ⟨hleads.1.1,?_⟩
    change 9 < if Path.Smooth e a then e.left else e.left + 9
    rw [if_neg hleads.1.2]
    have hpos := e.left_pos
    omega

theorem error_cases {side : Side} {problem : Problem} (ha : a.packet.headerLength ≤ a.packet.length)
    (h : handler env (.error side problem) a s = some (t,pushes)) : (t = s ∧ pushes = []) ∨
      ∃ q, t = { s with icmpId := s.icmpId + 1 } ∧ pushes = [(.inl .rt,q)] ∧
        (problem.error (s.addr side)).Reports a q ∧ (problem.error (s.addr side)).mtu = 576 := by
  have hmtu : (problem.error (s.addr side)).mtu = 576 := by cases problem <;> rfl
  obtain ⟨message,hmessage,hresult⟩ := Option.map_eq_some_iff.mp h
  cases message with
  | none =>
    obtain ⟨rfl,rfl⟩ := Prod.mk.inj hresult
    exact .inl ⟨rfl,rfl⟩
  | some q =>
    obtain ⟨rfl,rfl⟩ := Prod.mk.inj hresult
    refine .inr ⟨q,rfl,rfl,?_,hmtu⟩
    rw [ICMPError.report_of_simpleAction hmessage]
    exact ICMPError.report_reports ha (by rw [hmtu]; decide) (by rw [hmtu]; decide) _

/-- The message is as quiet as a packet can be, so that it causes no further one. -/
theorem error_leads {side : Side} {problem : Problem} (ha : a.packet.headerLength ≤ a.packet.length)
    (h : handler env (.error side problem) a s = some (t,pushes)) : ∀ x ∈ pushes, LeadsFrom (.error side problem) a x := by
  rcases error_cases ha h with ⟨-,rfl⟩ | ⟨q,-,rfl,hreports,hmtu⟩
  · exact fun x hx => absurd hx List.not_mem_nil
  · have hsize := hreports.size
    have hquiet : Quiet q := by
      refine ⟨hreports.annotations.2.1,ICMPError.inert_of_reports hreports ha,?_,by omega⟩
      rw [hreports.fresh.1]
      decide
    intro x hx
    rw [List.mem_singleton.mp hx]
    refine ⟨hreports.valid,?_⟩
    change (if Quiet q then 8 else 17) < 9
    rw [if_pos hquiet]
    decide

/-- What one element does, for all of them. -/
theorem handler_leads (e : Element) (ha : Known e a) (h : handler env e a s = some (t,pushes)) :
    ∀ x ∈ pushes, LeadsFrom e a x := by
  cases e with
  | ip => exact ip_leads h
  | soli => exact soli_leads ha h
  | rt => exact rt_leads ha h
  | drop side => exact drop_leads ha h
  | ipenc => exact ipenc_leads ha h
  | paint side => exact paint_leads ha h
  | path side e => exact path_leads ha h
  | error side problem => exact error_leads ha h
  | checkPaint =>
    cases h
    exact wire_one (fun b _ => ⟨trivial,show 1 < 2 by decide⟩)
  | checkIcmp =>
    cases h
    intro x hx
    obtain ⟨p,-,rfl⟩ := Option.map_eq_some_iff.mp (Option.mem_toList.mp hx)
    trivial
  | ipdecap =>
    obtain ⟨sent,-,hresult⟩ := Option.map_eq_some_iff.mp h
    obtain ⟨-,rfl⟩ := Prod.mk.inj hresult
    exact wire_two (fun b _ => ⟨trivial,show 3 < 4 by decide⟩) (fun b _ => ⟨trivial,show 1 < 4 by decide⟩)
  | inner =>
    cases h
    intro x hx
    obtain ⟨p,hp,rfl⟩ := Option.map_eq_some_iff.mp (Option.mem_toList.mp hx)
    exact (CheckIPHeader.valid_of_simpleAction hp).1
  | ipc =>
    cases h
    intro x hx
    rw [List.mem_singleton.mp hx]
    split_ifs
    · exact ⟨trivial,show 2 < 3 by decide⟩
    · trivial
  | mipfilter =>
    obtain ⟨sent,-,hresult⟩ := Option.map_eq_some_iff.mp h
    obtain ⟨-,rfl⟩ := Prod.mk.inj hresult
    intro x hx
    obtain ⟨y,-,hy⟩ := List.mem_filterMap.mp hx
    split_ifs at hy <;> cases hy <;> exact ⟨trivial,show 1 < 2 by decide⟩
  | reply =>
    obtain ⟨r,-,hresult⟩ := Option.map_eq_some_iff.mp h
    obtain ⟨-,rfl⟩ := Prod.mk.inj hresult
    exact wire_one (fun _ _ => trivial)
  | regrep =>
    obtain ⟨r,-,hresult⟩ := Option.map_eq_some_iff.mp h
    obtain ⟨-,rfl⟩ := Prod.mk.inj hresult
    exact wire_two (fun _ _ => trivial) (fun _ _ => trivial)
  | farp =>
    cases h
    exact wire_two (fun _ _ => trivial) (fun _ _ => trivial)

end Depth

end Agent
end ClickMobileIP
