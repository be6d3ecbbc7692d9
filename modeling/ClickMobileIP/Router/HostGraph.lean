import ClickMobileIP.Node.AdvertisementsHandler
import ClickMobileIP.Router.ForwardingPath
import ClickMobileIP.Router.ICMPPingResponder
import ClickMobileIP.Router.StaticIPLookup
import ClickMobileIP.Agent.AgentAdvertiser

/-! # The routers of the hosts

`cn.click` and `mn.click` put a host behind a router with one interface. Both have one
forwarding path; its error messages go straight to the output, without a frame. The mobile
node takes advertisements and registration replies out of the stream and sends packets for
other networks to its current agent.
-/
namespace ClickMobileIP
open ByteLayout PushGraph
open LinearIPLookup (hostRoute netRoute defaultRoute hostRoute_wellFormed netRoute_wellFormed defaultRoute_wellFormed
  contains_hostRoute contains_netRoute contains_defaultRoute)

/-- The address of a host with the mask of its network, and its gateway. -/
structure HostConfig where
  addr : IPAddress
  mask : IPAddress
  gateway : IPAddress := 0
  deriving DecidableEq, Repr

namespace HostConfig

/-- `$address:ip/32 0, $address:ipnet 1, 0.0.0.0/0 $gateway port` -/
def routes (c : HostConfig) (port : ℤ) : List IPRoute :=
  [hostRoute c.addr,netRoute c.addr c.mask 1,defaultRoute c.gateway port]

def OnNet (c : HostConfig) (a : IPAddress) : Prop := a &&& c.mask = c.addr &&& c.mask

instance (c : HostConfig) (a : IPAddress) : Decidable (c.OnNet a) := inferInstanceAs (Decidable (_ = _))

/-- The prefix of a network of more than one host, and not of everything. -/
structure Proper (c : HostConfig) : Prop where
  isPrefix : IsPrefixMask c.mask
  hosts : c.mask ≠ 0xffffffff
  part : c.mask ≠ 0

def route (c : HostConfig) (port : ℤ) (p : Packet) : ℤ × Packet :=
  if p.dstIpAnno = c.addr then (0,p)
  else if c.OnNet p.dstIpAnno then (1,p)
  else (port,if c.gateway ≠ 0 then { p with dstIpAnno := c.gateway } else p)

theorem Proper.wellFormed {c : HostConfig} (h : c.Proper) {port : ℤ} (hport : 0 ≤ port) :
    ∀ r ∈ c.routes port, r.WellFormed := by
  intro r hr
  simp only [routes,List.mem_cons,List.not_mem_nil,or_false] at hr
  rcases hr with rfl | rfl | rfl
  · exact hostRoute_wellFormed _
  · exact netRoute_wellFormed h.isPrefix (by decide)
  · exact defaultRoute_wellFormed _ hport

theorem push_rt {c : HostConfig} {rt : LinearIPLookup} {port : ℤ} (h : LinearIPLookup.Configured (c.routes port) rt)
    (hc : c.Proper) (hport : 0 ≤ port) (p : Packet) : (rt.push p).2 = [c.route port p] := by
  have hhost : ∀ m, maskAsSpecific 0xffffffff m = true := fun m => maskAsSpecific_iff.mpr UInt32.neg_one_and
  have hzero : ∀ m, maskAsSpecific m 0 = true := fun m => maskAsSpecific_iff.mpr UInt32.and_zero
  have hwell := hc.wellFormed hport
  have hcontains : ∀ q ∈ c.routes port, q.contains p.dstIpAnno = true →
      (p.dstIpAnno = c.addr ∧ q = hostRoute c.addr) ∨ (c.OnNet p.dstIpAnno ∧ q = netRoute c.addr c.mask 1) ∨
        q = defaultRoute c.gateway port := by
    intro q hq ha
    simp only [routes,List.mem_cons,List.not_mem_nil,or_false] at hq
    rcases hq with rfl | rfl | rfl
    · exact .inl ⟨contains_hostRoute.mp ha,rfl⟩
    · exact .inr (.inl ⟨contains_netRoute.mp ha,rfl⟩)
    · exact .inr (.inr rfl)
  unfold route
  by_cases hown : p.dstIpAnno = c.addr
  · rw [if_pos hown]
    have hmem : hostRoute c.addr ∈ c.routes port := by simp [routes]
    refine h.push_eq hmem (hwell _ hmem) (contains_hostRoute.mpr hown) (fun q hq ha => ?_)
    rcases hcontains q hq ha with ⟨-,rfl⟩ | ⟨-,rfl⟩ | rfl
    · exact .inl rfl
    · exact .inr ⟨hhost _,hc.hosts⟩
    · exact .inr ⟨hhost _,show (0 : UInt32) ≠ 0xffffffff by decide⟩
  · rw [if_neg hown]
    by_cases hin : c.OnNet p.dstIpAnno
    · rw [if_pos hin]
      have hmem : netRoute c.addr c.mask 1 ∈ c.routes port := by simp [routes]
      refine h.push_eq hmem (hwell _ hmem) (contains_netRoute.mpr hin) (fun q hq ha => ?_)
      rcases hcontains q hq ha with ⟨ha,-⟩ | ⟨-,rfl⟩ | rfl
      · exact absurd ha hown
      · exact .inl rfl
      · exact .inr ⟨hzero _,hc.part.symm⟩
    · rw [if_neg hin]
      have hmem : defaultRoute c.gateway port ∈ c.routes port := by simp [routes]
      refine h.push_eq hmem (hwell _ hmem) contains_defaultRoute (fun q hq ha => ?_)
      rcases hcontains q hq ha with ⟨ha,-⟩ | ⟨ha,-⟩ | rfl
      · exact absurd ha hown
      · exact absurd ha hin
      · exact .inl rfl

end HostConfig

/-- The wires that leave the router of a host: to the host itself, through the querier (a packet that is forwarded or
a registration request) or without a frame. -/
inductive HostExit
  | host
  | network
  | registration
  | message
  deriving DecidableEq, Repr

structure CorrespondingNode where
  rt : LinearIPLookup
  icmpId : ℕ := 1

namespace CorrespondingNode

inductive Element
  | ip
  | rt
  | path (e : Path)
  | error (problem : Problem)
  deriving DecidableEq, Repr

def pathTarget : Path.Exit → Element ⊕ HostExit
  | .sent => .inr .network
  | .problem problem => .inl (.error problem)

def routeTarget (port : ℤ) : Option (Element ⊕ HostExit) :=
  if port = 0 then some (.inr .host) else if port = 1 then some (.inl (.path .ipgw)) else none

variable (env : Env) (addr : IPAddress)

def handler : Handler Element HostExit Annotated CorrespondingNode
  | .ip, a, s =>
    some (s,((CheckIPHeader.simpleAction {} a.packet).map (fun p => (.inl .rt,a.withPacket p))).toList)
  | .rt, a, s =>
    some ({ s with rt := (s.rt.push a.packet).1 },(s.rt.push a.packet).2.filterMap
      (fun x => (routeTarget x.1).map (fun e => (e,a.withPacket x.2))))
  | .path e, a, s =>
    (e.pushes env addr a).map (fun xs => (s,xs.map (fun x => (Path.target Element.path pathTarget x.1,x.2))))
  | .error problem, a, s =>
    ((problem.error addr).simpleAction (env.alloc (.message problem)) s.icmpId a).map (fun message =>
      match message with
      | none => (s,[])
      | some q => ({ s with icmpId := s.icmpId + 1 },[(.inr .message,q)]))

/-- A packet from the network or from the host, without its Ethernet header. -/
def receive (p : Packet) (s : CorrespondingNode) : Outcome (CorrespondingNode × List (HostExit × Annotated)) :=
  push (handler env addr) 8 .ip (Annotated.fresh p) s

section Runs
variable {env addr} {c : HostConfig} {s : CorrespondingNode} {p q : Packet}

def looked (s : CorrespondingNode) (p : Packet) : CorrespondingNode := { s with rt := (s.rt.push p).1 }

theorem configured_looked (h : LinearIPLookup.Configured (c.routes 1) s.rt) (p : Packet) :
    LinearIPLookup.Configured (c.routes 1) (s.looked p).rt := h.push p

theorem push_routed (h : LinearIPLookup.Configured (c.routes 1) s.rt) (hc : c.Proper)
    (hp : CheckIPHeader.simpleAction {} q = some p) {port : ℤ} {r : Packet} {e : Element ⊕ HostExit}
    (hroute : c.route 1 p = (port,r)) (htarget : routeTarget port = some e) (depth : ℕ) :
    push (handler env addr) (depth + 2) .ip (Annotated.fresh q) s =
      pushAll (push (handler env addr) depth) [(e,Annotated.fresh r)] (s.looked p) := by
  have hip : handler env addr .ip (Annotated.fresh q) s = some (s,[(.inl .rt,Annotated.fresh p)]) := by
    have hq : CheckIPHeader.simpleAction {} (Annotated.fresh q).packet = some p := hp
    rw [handler,hq]
    rfl
  have hrt : handler env addr .rt (Annotated.fresh p) s = some (s.looked p,[(e,Annotated.fresh r)]) := by
    have hpush : (s.rt.push (Annotated.fresh p).packet).2 = [(port,r)] := by
      rw [← hroute]
      exact HostConfig.push_rt h hc (by decide) p
    rw [handler,hpush]
    simp only [List.filterMap_cons,htarget,Option.map_some,List.filterMap_nil]
    rfl
  rw [push_next hip,push,hrt]

theorem receive_out (h : LinearIPLookup.Configured (c.routes 1) s.rt) (hc : c.Proper)
    (hp : CheckIPHeader.simpleAction {} q = some p) (ha : Path.Ordinary p) (hown : p.dstIpAnno ≠ c.addr) :
    receive env addr q s =
      .done (s.looked p,[(.network,Annotated.fresh (DecIPTTL.plain (c.route 1 p).2))]) := by
  obtain ⟨hvalid,-,-⟩ := CheckIPHeader.valid_of_simpleAction hp
  obtain ⟨gw,hroute⟩ : ∃ gw, c.route 1 p = (1,{ p with dstIpAnno := gw }) := by
    rw [HostConfig.route,if_neg hown]
    split_ifs
    · exact ⟨p.dstIpAnno,rfl⟩
    · exact ⟨c.gateway,rfl⟩
    · exact ⟨p.dstIpAnno,rfl⟩
  have hembeds : Path.Embeds (handler env addr) env addr Element.path pathTarget (s.looked p) := ⟨fun _ _ => rfl⟩
  have hsmooth : Path.Smooth .ipgw (Annotated.fresh { p with dstIpAnno := gw }) := Path.Ordinary.smooth (ha.anno gw)
  have hrun : push (handler env addr) (2 + 4) (.path .ipgw) (Annotated.fresh { p with dstIpAnno := gw }) (s.looked p) = _ :=
    hembeds.push_smooth rfl (hvalid.anno gw) hsmooth
  rw [receive,push_routed h hc hp hroute rfl,pushAll,hrun,hroute]
  rfl

theorem receive_in (h : LinearIPLookup.Configured (c.routes 1) s.rt) (hc : c.Proper)
    (hp : CheckIPHeader.simpleAction {} q = some p) (hown : p.dstIpAnno = c.addr) :
    receive env addr q s = .done (s.looked p,[(.host,Annotated.fresh p)]) := by
  have hroute : c.route 1 p = (0,p) := if_pos hown
  rw [receive,push_routed h hc hp hroute rfl]
  rfl

end Runs

end CorrespondingNode

/-- The state of `MobileNode` and of the responder behind it: the information base with the registrations,
and the table. -/
structure NodeRouter where
  node : MobileNode
  rt : LinearIPLookup
  icmpId : ℕ := 1

/-- `IPClassifier(src udp port 434,-)`. -/
def IPClassifier.isReply (p : Packet) : Bool :=
  p.ip.ipP == 17 && p.ip.fragOffset == 0 && (2 ≤ p.datagram.length && Layout.u16.read p.datagram == htons 434)

namespace NodeRouter

inductive Element
  | ip
  | adv
  | advertisement
  | rt
  | ipc
  | regreq
  | responder
  | gateway
  | path (e : Path)
  | error (problem : Problem)
  deriving DecidableEq, Repr

def pathTarget : Path.Exit → Element ⊕ HostExit
  | .sent => .inr .network
  | .problem problem => .inl (.error problem)

def routeTarget (port : ℤ) : Option Element :=
  if port = 0 then some .ipc else if port = 1 then some (.path .ipgw) else if port = 2 then some .gateway else none

variable (env : Env) (addr : IPAddress) (draws : ℕ → Draw)

def handler : Handler Element HostExit Annotated NodeRouter
  | .ip, a, s =>
    some (s,((CheckIPHeader.simpleAction {} a.packet).map (fun p => (.inl .adv,a.withPacket p))).toList)
  | .adv, a, s => some (s,wire [.inl .rt,.inl .advertisement] (keep a (AdvFilter.push a.packet)))
  | .advertisement, a, s =>
    match CheckICMPHeader.simpleAction a.packet with
    | none => some (s,[])
    | some p =>
      let x := AdvertisementsHandler.push draws s.node p
      some ({ s with node := x.node },x.sent.map (fun m => (.inr .registration,Annotated.fresh m.packet)))
  | .rt, a, s =>
    some ({ s with rt := (s.rt.push a.packet).1 },(s.rt.push a.packet).2.filterMap
      (fun x => (routeTarget x.1).map (fun e => (.inl e,a.withPacket x.2))))
  | .ipc, a, s => some (s,[(.inl (if IPClassifier.isReply a.packet then .regreq else .responder),a)])
  | .regreq, a, s => some ({ s with node := RegistrationRequestSource.push s.node a.packet },[])
  | .responder, a, s => some (s,wire [.inl .ip] (ICMPPingResponder.simpleAction 1 a))
  | .gateway, a, s => some (s,wire [.inl (.path .ipgw)] (keep a (SetGateway.push s.node a.packet)))
  | .path e, a, s =>
    (e.pushes env addr a).map (fun xs =>
      (s,xs.map (fun x => (Path.target Element.path pathTarget x.1,x.2))))
  | .error problem, a, s =>
    ((problem.error addr).simpleAction (env.alloc (.message problem)) s.icmpId a).map (fun message =>
      match message with
      | none => (s,[])
      | some q => ({ s with icmpId := s.icmpId + 1 },[(.inr .message,q)]))

/-- A packet from the network or from the host, without its Ethernet header. -/
def receive (p : Packet) (s : NodeRouter) : Outcome (NodeRouter × List (HostExit × Annotated)) :=
  push (handler env addr draws) 16 .ip (Annotated.fresh p) s

section Runs
variable {env addr draws} {c : HostConfig} {s : NodeRouter} {a : Annotated} {p q : Packet} {depth : ℕ}

def looked (s : NodeRouter) (p : Packet) : NodeRouter := { s with rt := (s.rt.push p).1 }

theorem configured_looked (h : LinearIPLookup.Configured (c.routes 2) s.rt) (p : Packet) :
    LinearIPLookup.Configured (c.routes 2) (s.looked p).rt := h.push p

theorem advFilter_of_unicast (hdst : p.ip.ipDst ≠ 0xffffffff) : AdvFilter.push p = [⟨0,p⟩] := by
  simp [AdvFilter.push,hdst]

theorem push_routed (h : LinearIPLookup.Configured (c.routes 2) s.rt) (hc : c.Proper)
    (hp : CheckIPHeader.simpleAction {} a.packet = some p) (hfilter : AdvFilter.push p = [⟨0,p⟩]) {port : ℤ} {r : Packet}
    {e : Element} (hroute : c.route 2 p = (port,r)) (htarget : routeTarget port = some e) :
    push (handler env addr draws) (depth + 3) .ip a s =
      push (handler env addr draws) depth e (a.withPacket r) (s.looked p) := by
  have hip : handler env addr draws .ip a s = some (s,[(.inl .adv,a.withPacket p)]) := by
    rw [handler,hp]
    rfl
  have hadv : handler env addr draws .adv (a.withPacket p) s = some (s,[(.inl .rt,a.withPacket p)]) := by
    have hpass : AdvFilter.push (a.withPacket p).packet = [⟨0,p⟩] := hfilter
    rw [handler,hpass]
    rfl
  have hrt : handler env addr draws .rt (a.withPacket p) s = some (s.looked p,[(.inl e,a.withPacket r)]) := by
    have hpush : (s.rt.push (a.withPacket p).packet).2 = [(port,r)] := by
      rw [← hroute]
      exact HostConfig.push_rt h hc (by decide) p
    rw [handler,hpush]
    simp only [List.filterMap_cons,htarget,Option.map_some,List.filterMap_nil]
    rfl
  rw [push_next hip,push_next hadv,push_next hrt]

theorem push_gateway (ha : a.packet.Valid) (hordinary : Path.Ordinary a.packet) (hfix : a.fixIpSrc = 0) :
    push (handler env addr draws) (depth + 5) .gateway a s =
      .done (s,[(.network,a.withPacket (DecIPTTL.plain { a.packet with dstIpAnno := s.node.currPrivateAddr }))]) := by
  have hgateway : handler env addr draws .gateway a s =
      some (s,[(.inl (.path .ipgw),a.withPacket { a.packet with dstIpAnno := s.node.currPrivateAddr })]) := rfl
  have hembeds : Path.Embeds (handler env addr draws) env addr Element.path pathTarget s := ⟨fun _ _ => rfl⟩
  have hvalid : (a.withPacket { a.packet with dstIpAnno := s.node.currPrivateAddr }).packet.Valid := ha.anno _
  have hsmooth : Path.Smooth .ipgw (a.withPacket { a.packet with dstIpAnno := s.node.currPrivateAddr }) :=
    Path.Ordinary.smooth (hordinary.anno _)
  have hhop : Path.hop addr (a.withPacket { a.packet with dstIpAnno := s.node.currPrivateAddr }) =
      a.withPacket (DecIPTTL.plain { a.packet with dstIpAnno := s.node.currPrivateAddr }) := by
    have hfresh : (a.withPacket { a.packet with dstIpAnno := s.node.currPrivateAddr }).fixIpSrc = 0 := hfix
    rw [Path.hop,FixIPSrc.simpleAction,if_neg (not_not.mpr hfresh)]
    rfl
  rw [push_next hgateway,hembeds.push_smooth rfl hvalid hsmooth,hhop]

theorem isReply_of_icmp (h : p.ip.ipP = 1) : IPClassifier.isReply p = false := by
  simp [IPClassifier.isReply,h]

theorem receive_echo (h : LinearIPLookup.Configured (c.routes 2) s.rt) (hc : c.Proper) (hgateway : c.gateway = 0)
    (hp : CheckIPHeader.simpleAction {} q = some p) (hverifies : p.IcmpVerifies) (hecho : ICMPPingResponder.IsEcho p)
    (hown : p.ip.ipDst = c.addr) (hlimited : c.addr ≠ 0xffffffff) (hsrc : ¬c.OnNet p.ip.ipSrc)
    (hsrclimited : p.ip.ipSrc ≠ 0xffffffff) (hplain : p.headerLength ≤ 20) (hlen : p.length ≤ 1500) :
    receive env addr draws q s = .done ((s.looked p).looked (ICMPPingResponder.plainReply p),
      [(.network,Annotated.fresh (DecIPTTL.plain
        { ICMPPingResponder.plainReply p with dstIpAnno := s.node.currPrivateAddr }))]) := by
  obtain ⟨hvalid,hq,hip⟩ := CheckIPHeader.valid_of_simpleAction hp
  have hanno : p.dstIpAnno = p.ip.ipDst := by rw [hip,hq]
  have hroute : c.route 2 p = (0,p) := if_pos (hanno.trans hown)
  have hanswers := ICMPPingResponder.plainReply_answers hvalid hecho
  set r := ICMPPingResponder.plainReply p with hr
  have hrdst : r.dstIpAnno = p.ip.ipSrc := hanswers.ends.2.2
  have hrpass : CheckIPHeader.simpleAction {} (Annotated.fresh r).packet = some r := by
    have hself : ({ r with dstIpAnno := r.ip.ipDst } : Packet) = r := by
      rw [hanswers.ends.2.1,← hrdst]
    exact (CheckIPHeader.simpleAction_of_valid hanswers.valid).trans (congrArg some hself)
  have hrroute : c.route 2 r = (2,r) := by
    have hne : r.dstIpAnno ≠ c.addr := by
      rw [hrdst]
      rintro heq
      exact hsrc (congrArg (· &&& c.mask) heq)
    rw [HostConfig.route,if_neg hne,hrdst,if_neg hsrc,hgateway,if_neg (by decide)]
  have hipc : handler env addr draws .ipc (Annotated.fresh p) (s.looked p) =
      some (s.looked p,[(.inl .responder,Annotated.fresh p)]) := by
    have hicmp : IPClassifier.isReply (Annotated.fresh p).packet = false := isReply_of_icmp hecho.2.1
    rw [handler,hicmp]
    rfl
  have hresponder : handler env addr draws .responder (Annotated.fresh p) (s.looked p) =
      some (s.looked p,[(.inl .ip,Annotated.fresh r)]) := by
    have haction : ICMPPingResponder.simpleAction 1 (Annotated.fresh p) = [(0,Annotated.fresh r)] := by
      have hecho' : ICMPPingResponder.IsEcho (Annotated.fresh p).packet := hecho
      rw [ICMPPingResponder.simpleAction,if_pos hecho']
      change [(0,Annotated.fresh (ICMPPingResponder.reply p))] = _
      rw [ICMPPingResponder.reply_eq_plainReply hvalid hverifies hecho,hr]
    rw [handler,haction]
    rfl
  have hordinary : Path.Ordinary r := by
    refine ⟨Path.inert_of_plain ?_,?_,?_⟩
    · have hroptions := Packet.length_options hanswers.valid.headed hanswers.valid.room
      have hpoptions := Packet.length_options hvalid.headed hvalid.room
      rw [hanswers.options] at hroptions
      omega
    · rw [hanswers.fresh.1]
      decide
    · rw [hanswers.length]
      exact hlen
  have hfirst : push (handler env addr draws) (13 + 3) .ip (Annotated.fresh q) s =
      push (handler env addr draws) 13 .ipc (Annotated.fresh p) (s.looked p) :=
    push_routed h hc hp (advFilter_of_unicast (hown ▸ hlimited)) hroute rfl
  have hsecond : push (handler env addr draws) (8 + 3) .ip (Annotated.fresh r) (s.looked p) =
      push (handler env addr draws) 8 .gateway (Annotated.fresh r) ((s.looked p).looked r) :=
    push_routed (configured_looked h p) hc hrpass
      (advFilter_of_unicast (by rw [hanswers.ends.2.1]; exact hsrclimited)) hrroute rfl
  have hthird : push (handler env addr draws) (3 + 5) .gateway (Annotated.fresh r) ((s.looked p).looked r) = _ :=
    push_gateway hanswers.valid hordinary rfl
  rw [receive,hfirst,push_next hipc,push_next hresponder,hsecond,hthird]
  rfl

end Runs

end NodeRouter

end ClickMobileIP
