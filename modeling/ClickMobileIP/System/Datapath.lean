import ClickMobileIP.Router.AgentForwarding
import ClickMobileIP.Router.HostGraph
import ClickMobileIP.Router.ICMPPingSource

/-! # Pings through the whole network

`glue.click` joins three networks: the public one with the correspondent node and both
agents, the home network and the foreign network. The correspondent node pings the mobile
node, which answers through its current agent. Each station is the router of its script.
Links deliver a frame to the station with the address of its next hop, at any time and in
any order, and neither lose nor repeat frames.
-/
namespace ClickMobileIP.Datapath
open EventRun PushGraph

inductive Link
  | publicNet
  | home
  | foreign
  deriving DecidableEq, Repr

/-- A packet on a link, addressed to the station that the querier resolved. -/
structure Frame where
  link : Link
  nextHop : IPAddress
  packet : Packet
  deriving DecidableEq, Repr

structure NetConfig where
  cn : HostConfig
  mn : HostConfig
  ha : AgentConfig
  fa : AgentConfig

inductive Place
  | home
  | visiting
  deriving DecidableEq, Repr

def Place.link : Place → Link
  | .home => .home
  | .visiting => .foreign

structure Net where
  place : Place
  cn : CorrespondingNode
  ping : ICMPPingSource
  mn : NodeRouter
  ha : Agent
  fa : Agent
  frames : List Frame := []

def result {β : Type} : Outcome β → Option β
  | .done b => some b
  | .fault | .tooDeep => none

/-- Frames of an agent; packets for the agent itself are discarded, and its advertiser has no part here. -/
def agentFrame (privateLink : Link) (x : Agent.Exit × Annotated) : Option Frame :=
  match x.1 with
  | .forwarded .privateNet | .delivered | .registration .privateNet => some ⟨privateLink,x.2.packet.dstIpAnno,x.2.packet⟩
  | .forwarded .publicNet | .tunnel | .registration .publicNet => some ⟨.publicNet,x.2.packet.dstIpAnno,x.2.packet⟩
  | .host | .advertiser => none

/-- Frames of a host; an error message has no header of a frame, so no station takes it. -/
def hostFrame (link : Link) (x : HostExit × Annotated) : Option Frame :=
  match x.1 with
  | .network | .registration => some ⟨link,x.2.packet.dstIpAnno,x.2.packet⟩
  | .host | .message => none

def hostPacket (x : HostExit × Annotated) : Option Packet :=
  match x.1 with
  | .host => some x.2.packet
  | .network | .registration | .message => none

/-- What the code of a run does not decide. -/
structure Chance where
  env : Env := {}
  draws : ℕ → Draw
  arrival : ℤ := 0

section Model
variable (N : NetConfig) (chance : Chance) (n : Net)

def atSource (p : Packet) : Option (Net × List Frame) :=
  (result (n.cn.receive chance.env N.cn.addr p)).bind (fun r =>
    ((r.2.filterMap hostPacket).foldlM (ICMPPingSource.push chance.arrival) n.ping).map (fun ping =>
      ({ n with cn := r.1, ping := ping },r.2.filterMap (hostFrame .publicNet))))

def atNode (p : Packet) : Option (Net × List Frame) :=
  (result (n.mn.receive chance.env N.mn.addr chance.draws p)).map (fun r =>
    ({ n with mn := r.1 },r.2.filterMap (hostFrame n.place.link)))

def atHomeAgent (side : Side) (p : Packet) : Option (Net × List Frame) :=
  (result (n.ha.receive chance.env 20 side (Annotated.fresh p))).map (fun r =>
    ({ n with ha := r.1 },r.2.filterMap (agentFrame .home)))

def atForeignAgent (side : Side) (p : Packet) : Option (Net × List Frame) :=
  (result (n.fa.receive chance.env 20 side (Annotated.fresh p))).map (fun r =>
    ({ n with fa := r.1 },r.2.filterMap (agentFrame .foreign)))

/-- The station with the address of the next hop; a frame for nobody is lost. -/
def arrive (f : Frame) : Option (Net × List Frame) :=
  match f.link with
  | .publicNet =>
    if f.nextHop = N.cn.addr then atSource N chance n f.packet
    else if f.nextHop = N.ha.publicAddr then atHomeAgent chance n .publicNet f.packet
    else if f.nextHop = N.fa.publicAddr then atForeignAgent chance n .publicNet f.packet
    else some (n,[])
  | .home =>
    if f.nextHop = N.ha.privateAddr then atHomeAgent chance n .privateNet f.packet
    else if f.nextHop = N.mn.addr ∧ n.place = .home then atNode N chance n f.packet
    else some (n,[])
  | .foreign =>
    if f.nextHop = N.fa.privateAddr then atForeignAgent chance n .privateNet f.packet
    else if f.nextHop = N.mn.addr ∧ n.place = .visiting then atNode N chance n f.packet
    else some (n,[])

/-- The timer of the ping source fires; a frame in flight arrives. -/
inductive Event
  | timer (chance : Chance) (now : ℤ)
  | deliver (chance : Chance) (k : ℕ)

/-- The output of a step is the frame that has arrived, if any. -/
def step (n : Net) : Event → Option (Net × List Frame)
  | .timer chance now =>
    match n.ping.runTimer (chance.env.alloc .request) now with
    | none => none
    | some (ping,[]) => some ({ n with ping := ping },[])
    | some (ping,m :: _) =>
      (atSource N chance { n with ping := ping } m.packet).map (fun r =>
        ({ r.1 with frames := r.1.frames ++ r.2 },[]))
  | .deliver chance k =>
    match n.frames[k]? with
    | none => some (n,[])
    | some f =>
      (arrive N chance { n with frames := n.frames.eraseIdx k } f).map (fun r =>
        ({ r.1 with frames := r.1.frames ++ r.2 },[f]))

end Model

structure NetConfig.Sound (N : NetConfig) : Prop where
  ha : N.ha.Separate
  fa : N.fa.Separate
  cn : N.cn.Proper
  mn : N.mn.Proper
  agents : N.ha.publicAddr ≠ N.fa.publicAddr
  node : N.ha.OnPrivate N.mn.addr ∧ ¬N.ha.Own N.mn.addr ∧ ¬N.fa.Own N.mn.addr
  source : N.ha.OnPublic N.cn.addr ∧ N.fa.OnPublic N.cn.addr ∧ ¬N.ha.Own N.cn.addr ∧ ¬N.fa.Own N.cn.addr
  apart : ¬N.cn.OnNet N.mn.addr ∧ ¬N.mn.OnNet N.cn.addr
  gateways : N.cn.gateway = N.ha.publicAddr ∧ N.cn.gateway ≠ 0 ∧ N.mn.gateway = 0

def Registered (N : NetConfig) (n : Net) : Place → Prop
  | .home => n.ha.base.table N.mn.addr = none ∧ n.mn.node.currPrivateAddr = N.ha.privateAddr
  | .visiting => (∃ entry, n.ha.base.table N.mn.addr = some entry ∧ entry.mobileNodeCoa = N.fa.publicAddr) ∧
      n.fa.base.inMapNode N.mn.addr = true ∧ n.mn.node.currPrivateAddr = N.fa.privateAddr

/-- The routers run their scripts, and the node is registered where it is. -/
structure Attached (N : NetConfig) (n : Net) : Prop where
  cn : LinearIPLookup.Configured (N.cn.routes 1) n.cn.rt
  mn : LinearIPLookup.Configured (N.mn.routes 2) n.mn.rt
  ha : Agent.Scripted N.ha n.ha
  fa : Agent.Scripted N.fa n.fa
  registered : Registered N n n.place

def NetConfig.current (N : NetConfig) : Place → AgentConfig
  | .home => N.ha
  | .visiting => N.fa

structure Request (N : NetConfig) (icmpId seq : UInt16) (p : Packet) : Prop where
  valid : p.Valid
  echo : ICMPPingResponder.IsEcho p
  verifies : p.IcmpVerifies
  ends : p.ip.ipSrc = N.cn.addr ∧ p.ip.ipDst = N.mn.addr
  plain : p.headerLength ≤ 20
  short : p.length ≤ 1500
  padding : p.icmp.padding = ClickIcmp.echoPadding icmpId seq

structure Reply (N : NetConfig) (icmpId seq : UInt16) (p : Packet) : Prop where
  valid : p.Valid
  kind : p.ip.ipP = 1 ∧ 8 ≤ p.datagram.length ∧ p.icmp.icmpType = 0
  ends : p.ip.ipSrc = N.mn.addr ∧ p.ip.ipDst = N.cn.addr
  plain : p.headerLength ≤ 20
  short : p.length ≤ 1500
  padding : p.icmp.padding = ClickIcmp.echoPadding icmpId seq

/-- The links that a ping crosses, there and back. -/
def Place.hops : Place → ℕ
  | .home => 4
  | .visiting => 5

/-- Where a ping can be on its way: at the home agent, in the tunnel, at the node, and back. Behind the
present link it has `left` others to cross. -/
inductive Stage (N : NetConfig) (place : Place) (icmpId seq : UInt16) : ℕ → Frame → Prop
  | toAgent (p : Packet) (hp : Request N icmpId seq p) (httl : 1 < p.ip.ipTtl) :
      Stage N place icmpId seq (place.hops - 1) ⟨.publicNet,N.ha.publicAddr,p⟩
  | tunnelled (base : AgentBase) (p : Packet) (hp : Request N icmpId seq p) (hplace : place = .visiting) :
      Stage N place icmpId seq 3 ⟨.publicNet,N.fa.publicAddr,IpEncapsulation.encapsulate base N.fa.publicAddr p⟩
  | toNode (p : Packet) (hp : Request N icmpId seq p) : Stage N place icmpId seq 2 ⟨place.link,N.mn.addr,p⟩
  | back (p : Packet) (hp : Reply N icmpId seq p) (httl : 1 < p.ip.ipTtl) :
      Stage N place icmpId seq 1 ⟨place.link,(N.current place).privateAddr,p⟩
  | toSource (p : Packet) (hp : Reply N icmpId seq p) : Stage N place icmpId seq 0 ⟨.publicNet,N.cn.addr,p⟩

section Packets
variable {N : NetConfig} {icmpId seq : UInt16} {p : Packet}

theorem Request.anno (h : Request N icmpId seq p) (a : IPAddress) : Request N icmpId seq { p with dstIpAnno := a } :=
  ⟨h.valid.anno a,h.echo,h.verifies,h.ends,h.plain,h.short,h.padding⟩

theorem Reply.anno (h : Reply N icmpId seq p) (a : IPAddress) : Reply N icmpId seq { p with dstIpAnno := a } :=
  ⟨h.valid.anno a,h.kind,h.ends,h.plain,h.short,h.padding⟩

theorem plain_same (hp : p.Valid) : (DecIPTTL.plain p).datagram = p.datagram ∧
    (DecIPTTL.plain p).headerLength = p.headerLength ∧ (DecIPTTL.plain p).ip.ipSrc = p.ip.ipSrc ∧
    (DecIPTTL.plain p).ip.ipDst = p.ip.ipDst ∧ (DecIPTTL.plain p).ip.ipP = p.ip.ipP ∧
    (DecIPTTL.plain p).ip.ipTtl = p.ip.ipTtl - 1 ∧ (DecIPTTL.plain p).dstIpAnno = p.dstIpAnno := by
  have hip : (DecIPTTL.plain p).ip = p.ip.decTtl.withSum (DecIPTTL.plain p).ip.ipSum := Packet.ip_setIp_reseal p _
  refine ⟨Packet.datagram_setIp_reseal rfl hp.headed.header,DecIPTTL.headerLength_plain p,?_,?_,?_,?_,rfl⟩
  all_goals
    rw [hip]
    rfl

theorem Request.hop (h : Request N icmpId seq p) : Request N icmpId seq (DecIPTTL.plain p) := by
  obtain ⟨hvalid,hlength⟩ := DecIPTTL.plain_valid h.valid
  obtain ⟨hdatagram,hheader,hsrc,hdst,hproto,-,-⟩ := plain_same h.valid
  refine ⟨hvalid,?_,?_,?_,?_,?_,?_⟩
  · rw [ICMPPingResponder.IsEcho,Packet.icmp,hdatagram,hproto]
    exact h.echo
  · rw [Packet.IcmpVerifies,hdatagram]
    exact h.verifies
  · rw [hsrc,hdst]
    exact h.ends
  · rw [hheader]
    exact h.plain
  · rw [hlength]
    exact h.short
  · rw [Packet.icmp,hdatagram]
    exact h.padding

theorem Reply.hop (h : Reply N icmpId seq p) : Reply N icmpId seq (DecIPTTL.plain p) := by
  obtain ⟨hvalid,hlength⟩ := DecIPTTL.plain_valid h.valid
  obtain ⟨hdatagram,hheader,hsrc,hdst,hproto,-,-⟩ := plain_same h.valid
  refine ⟨hvalid,?_,?_,?_,?_,?_⟩
  · rw [Packet.icmp,hdatagram,hproto]
    exact h.kind
  · rw [hsrc,hdst]
    exact h.ends
  · rw [hheader]
    exact h.plain
  · rw [hlength]
    exact h.short
  · rw [Packet.icmp,hdatagram]
    exact h.padding

theorem Request.reply (h : Request N icmpId seq p) : Reply N icmpId seq (ICMPPingResponder.plainReply p) := by
  have hanswers := ICMPPingResponder.plainReply_answers h.valid h.echo
  have hroptions := Packet.length_options hanswers.valid.headed hanswers.valid.room
  have hpoptions := Packet.length_options h.valid.headed h.valid.room
  have hroom := h.echo.1
  have hheader := hanswers.valid.headed.header
  have hpheader := h.valid.headed.header
  have hplain := h.plain
  rw [hanswers.options] at hroptions
  refine ⟨hanswers.valid,⟨hanswers.proto,?_,hanswers.kind.1⟩,?_,?_,?_,?_⟩
  · rw [Packet.length_datagram] at hroom ⊢
    rw [hanswers.length]
    omega
  · rw [hanswers.ends.1,hanswers.ends.2.1]
    exact ⟨h.ends.2,h.ends.1⟩
  · omega
  · rw [hanswers.length]
    exact h.short
  · rw [hanswers.padding]
    exact h.padding

theorem Request.ordinary (h : Request N icmpId seq p) (httl : 1 < p.ip.ipTtl) : Path.Ordinary p :=
  ⟨Path.inert_of_plain h.plain,httl,h.short⟩

theorem Reply.ordinary (h : Reply N icmpId seq p) (httl : 1 < p.ip.ipTtl) : Path.Ordinary p :=
  ⟨Path.inert_of_plain h.plain,httl,h.short⟩

end Packets

section Hops
variable {N : NetConfig} {n : Net} {chance : Chance} {icmpId seq : UInt16} {p : Packet}

/-- What one arrival makes of a ping: a frame on the next link, or a reply that the source takes. -/
inductive Moved (N : NetConfig) (n : Net) (seq : UInt16) : ℕ → Net → List Frame → Prop
  | on {left : ℕ} (m : Net) (f : Frame) (hm : Attached N m) (hplace : m.place = n.place) (hping : m.ping = n.ping)
      (hframes : m.frames = n.frames) (hf : Stage N n.place n.ping.icmpId seq left f) : Moved N n seq (left + 1) m [f]
  | answered (m : Net) (p : Packet) (arrival : ℤ) (hm : Attached N m) (hplace : m.place = n.place)
      (haccepts : n.ping.Accepts p) (hseq : p.icmp.sequence = seq) (hping : n.ping.push arrival p = some m.ping)
      (hframes : m.frames = n.frames) : Moved N n seq 0 m []

theorem NetConfig.Sound.source_ne (h : N.Sound) : N.cn.addr ≠ 0xffffffff := h.ha.limited _ (.inr h.source.1)

theorem NetConfig.Sound.node_ne (h : N.Sound) : N.mn.addr ≠ 0xffffffff := h.ha.limited _ (.inl h.node.1)

theorem NetConfig.Sound.node_ne_source (h : N.Sound) : N.mn.addr ≠ N.cn.addr := by
  intro heq
  exact h.ha.disjoint _ h.node.1 (heq ▸ h.source.1)

theorem Registered.same {m : Net} {place : Place} (h : Registered N n place) (hha : m.ha.base = n.ha.base)
    (hfa : m.fa.base = n.fa.base) (hmn : m.mn.node = n.mn.node) : Registered N m place := by
  cases place with
  | home =>
    rw [Registered,hha,hmn]
    exact h
  | visiting =>
    rw [Registered,hha,hfa,hmn]
    exact h

theorem Attached.lookedHome (h : Attached N n) (p : Packet) : Attached N { n with ha := n.ha.looked p } where
  cn := h.cn
  mn := h.mn
  ha := h.ha.looked p
  fa := h.fa
  registered := h.registered.same rfl rfl rfl

theorem Attached.lookedForeign (h : Attached N n) (p : Packet) : Attached N { n with fa := n.fa.looked p } where
  cn := h.cn
  mn := h.mn
  ha := h.ha
  fa := h.fa.looked p
  registered := h.registered.same rfl rfl rfl

theorem Attached.lookedNode (h : Attached N n) (p : Packet) : Attached N { n with mn := n.mn.looked p } where
  cn := h.cn
  mn := NodeRouter.configured_looked h.mn p
  ha := h.ha
  fa := h.fa
  registered := h.registered.same rfl rfl rfl

theorem Attached.lookedSource (h : Attached N n) (p : Packet) (ping : ICMPPingSource) :
    Attached N { n with cn := n.cn.looked p, ping := ping } where
  cn := CorrespondingNode.configured_looked h.cn p
  mn := h.mn
  ha := h.ha
  fa := h.fa
  registered := h.registered.same rfl rfl rfl

theorem Attached.current (h : Attached N n) : n.mn.node.currPrivateAddr = (N.current n.place).privateAddr := by
  have hregistered := h.registered
  cases hplace : n.place with
  | home =>
    rw [hplace] at hregistered
    exact hregistered.2
  | visiting =>
    rw [hplace] at hregistered
    exact hregistered.2.2

/-- The home agent, on the public network. -/
theorem arrive_agent (halloc : chance.env.alloc .tunnel = true) (h : Attached N n) (hN : N.Sound)
    (hp : Request N n.ping.icmpId seq p) (httl : 1 < p.ip.ipTtl) :
    ∃ m fs, atHomeAgent chance n .publicNet p = some (m,fs) ∧ Moved N n seq (n.place.hops - 1) m fs := by
  have hpass := CheckIPHeader.simpleAction_of_valid hp.valid
  set q : Packet := { p with dstIpAnno := p.ip.ipDst } with hq
  have hq' : Request N n.ping.icmpId seq q := hp.anno _
  have hdst : q.ip.ipDst = N.mn.addr := hp.ends.2
  have hown : ¬N.ha.Own q.ip.ipDst := by
    rw [hdst]
    exact hN.node.2.1
  have hin : N.ha.OnPrivate q.ip.ipDst := by
    rw [hdst]
    exact hN.node.1
  have hregistered := h.registered
  cases hplace : n.place with
  | home =>
    rw [hplace] at hregistered
    have hunbound : n.ha.base.table q.ip.ipDst = none := by
      rw [hdst]
      exact hregistered.1
    have hrun : n.ha.receive chance.env 20 .publicNet (Annotated.fresh p) =
        .done (n.ha.looked q,[(.forwarded .privateNet,Agent.sentOn .publicNet q)]) :=
      Agent.receive_home h.ha hN.ha hpass (hq'.ordinary httl) hown hin hunbound
    have hframe : (⟨.home,N.mn.addr,DecIPTTL.plain q⟩ : Frame) = ⟨.home,(DecIPTTL.plain q).dstIpAnno,DecIPTTL.plain q⟩ := by
      rw [(plain_same hq'.valid).2.2.2.2.2.2,hq,hp.ends.2]
    refine ⟨{ n with ha := n.ha.looked q },[⟨.home,N.mn.addr,DecIPTTL.plain q⟩],?_,?_⟩
    · rw [atHomeAgent,hrun,hframe]
      rfl
    · refine .on _ _ (h.lookedHome q) rfl rfl rfl ?_
      rw [hplace]
      exact .toNode _ hq'.hop
  | visiting =>
    rw [hplace] at hregistered
    obtain ⟨⟨entry,hentry,hcoa⟩,-,-⟩ := hregistered
    have hbound : n.ha.base.table q.ip.ipDst = some entry := by
      rw [hdst]
      exact hentry
    have hrun : n.ha.receive chance.env 20 .publicNet (Annotated.fresh p) = .done (n.ha.looked q,[(.tunnel,
        Agent.arrived .publicNet (Annotated.fresh p) (IpEncapsulation.encapsulate n.ha.base entry.mobileNodeCoa q))]) :=
      Agent.receive_tunnel halloc h.ha hN.ha hpass hown hin hbound
    refine ⟨{ n with ha := n.ha.looked q },
      [⟨.publicNet,N.fa.publicAddr,IpEncapsulation.encapsulate n.ha.base N.fa.publicAddr q⟩],?_,?_⟩
    · rw [atHomeAgent,hrun,hcoa]
      rfl
    · exact .on _ _ (h.lookedHome q) rfl rfl rfl (.tunnelled _ _ hq' hplace)

/-- The foreign agent, at the other end of the tunnel. -/
theorem arrive_tunnel (h : Attached N n) (hN : N.Sound) (hp : Request N n.ping.icmpId seq p) (hplace : n.place = .visiting)
    (base : AgentBase) :
    ∃ m fs, atForeignAgent chance n .publicNet (IpEncapsulation.encapsulate base N.fa.publicAddr p) = some (m,fs) ∧
      Moved N n seq 3 m fs := by
  have hregistered := h.registered
  rw [hplace] at hregistered
  have hvisitor : n.fa.base.inMapNode p.ip.ipDst = true := by
    rw [hp.ends.2]
    exact hregistered.2.1
  have hlen : p.length ≤ 65515 := hp.short.trans (by decide)
  set t := IpEncapsulation.encapsulate base N.fa.publicAddr p with ht
  have hrun : n.fa.receive chance.env 20 .publicNet (Annotated.fresh t) = .done (n.fa.looked t,
      [(.delivered,Agent.arrived .publicNet (Annotated.fresh p) { p with dstIpAnno := p.ip.ipDst })]) :=
    Agent.receive_visitor h.fa hN.fa (.inr rfl) hp.valid hlen hvisitor
  refine ⟨{ n with fa := n.fa.looked t },[⟨.foreign,N.mn.addr,{ p with dstIpAnno := p.ip.ipDst }⟩],?_,?_⟩
  · rw [atForeignAgent,hrun,← hp.ends.2]
    rfl
  · refine .on _ _ (h.lookedForeign t) rfl rfl rfl ?_
    rw [hplace]
    exact .toNode _ (hp.anno _)

theorem arrive_node (h : Attached N n) (hN : N.Sound) (hp : Request N n.ping.icmpId seq p) :
    ∃ m fs, atNode N chance n p = some (m,fs) ∧ Moved N n seq 2 m fs := by
  have hpass := CheckIPHeader.simpleAction_of_valid hp.valid
  set q : Packet := { p with dstIpAnno := p.ip.ipDst } with hq
  have hq' : Request N n.ping.icmpId seq q := hp.anno _
  have hsrc : ¬N.mn.OnNet q.ip.ipSrc := by
    rw [hq'.ends.1]
    exact hN.apart.2
  have hsrcne : q.ip.ipSrc ≠ 0xffffffff := by
    rw [hq'.ends.1]
    exact hN.source_ne
  have hrun : n.mn.receive chance.env N.mn.addr chance.draws p =
      .done ((n.mn.looked q).looked (ICMPPingResponder.plainReply q),[(.network,Annotated.fresh (DecIPTTL.plain
        { ICMPPingResponder.plainReply q with dstIpAnno := n.mn.node.currPrivateAddr }))]) :=
    NodeRouter.receive_echo h.mn hN.mn hN.gateways.2.2 hpass hq'.verifies hq'.echo hq'.ends.2 hN.node_ne hsrc hsrcne
      hq'.plain hq'.short
  have hanswers := ICMPPingResponder.plainReply_answers hq'.valid hq'.echo
  have hcurrent : n.mn.node.currPrivateAddr = (N.current n.place).privateAddr := h.current
  set r : Packet := { ICMPPingResponder.plainReply q with dstIpAnno := n.mn.node.currPrivateAddr } with hr
  have hreply : Reply N n.ping.icmpId seq r := hq'.reply.anno _
  obtain ⟨-,-,-,-,-,httl,hanno⟩ := plain_same hreply.valid
  refine ⟨{ n with mn := (n.mn.looked q).looked (ICMPPingResponder.plainReply q) },
    [⟨n.place.link,(N.current n.place).privateAddr,DecIPTTL.plain r⟩],?_,?_⟩
  · rw [atNode,hrun,← hcurrent]
    rfl
  · have hattached : Attached N { n with mn := (n.mn.looked q).looked (ICMPPingResponder.plainReply q) } :=
      (h.lookedNode q).lookedNode _
    refine .on _ _ hattached rfl rfl rfl (.back _ hreply.hop ?_)
    have hfresh : r.ip.ipTtl = 255 := hanswers.fresh.1
    rw [httl,hfresh]
    decide

/-- An agent with the source on its public network, on the private one. -/
theorem receive_back (chance : Chance) {c : AgentConfig} {s : Agent} (hs : Agent.Scripted c s) (hc : c.Separate)
    (hpublic : c.OnPublic N.cn.addr) (hown : ¬c.Own N.cn.addr) (hp : Reply N icmpId seq p) (httl : 1 < p.ip.ipTtl) :
    s.receive chance.env 20 .privateNet (Annotated.fresh p) = .done (s.looked { p with dstIpAnno := p.ip.ipDst },
      [(.forwarded .publicNet,Agent.sentOn .privateNet { p with dstIpAnno := p.ip.ipDst })]) := by
  have hpass := CheckIPHeader.simpleAction_of_valid hp.valid
  set q : Packet := { p with dstIpAnno := p.ip.ipDst } with hq
  have hq' : Reply N icmpId seq q := hp.anno _
  have hdst : q.ip.ipDst = N.cn.addr := hp.ends.2
  have hanno : q.dstIpAnno = N.cn.addr := hp.ends.2
  have hin : ¬c.OnPrivate N.cn.addr := fun hin => hc.disjoint _ hin hpublic
  have hroute : Agent.route c q = (2,q) := by
    rw [Agent.route,hanno,if_neg hown,if_neg hin,if_pos hpublic]
  have hrun : s.receive chance.env 20 .privateNet (Annotated.fresh p) = _ := Agent.receive_outward hs hc hpass (hq'.ordinary httl)
    (hdst ▸ hc.limited _ (.inr hpublic)) (hdst ▸ hown) (hdst ▸ hin)
  rw [hroute] at hrun
  exact hrun

/-- The agent of the network of the node, on the way back. -/
theorem arrive_back (h : Attached N n) (hN : N.Sound) (hp : Reply N n.ping.icmpId seq p) (httl : 1 < p.ip.ipTtl) :
    ∃ m fs, arrive N chance n ⟨n.place.link,(N.current n.place).privateAddr,p⟩ = some (m,fs) ∧ Moved N n seq 1 m fs := by
  obtain ⟨hha,hfa,hnha,hnfa⟩ := hN.source
  set q : Packet := { p with dstIpAnno := p.ip.ipDst } with hq
  have hq' : Reply N n.ping.icmpId seq q := hp.anno _
  have hframe : (⟨.publicNet,N.cn.addr,DecIPTTL.plain q⟩ : Frame) =
      ⟨.publicNet,(DecIPTTL.plain q).dstIpAnno,DecIPTTL.plain q⟩ := by
    rw [(plain_same hq'.valid).2.2.2.2.2.2,hq,hp.ends.2]
  cases hplace : n.place with
  | home =>
    have hrun := receive_back chance h.ha hN.ha hha hnha hp httl
    refine ⟨{ n with ha := n.ha.looked q },[⟨.publicNet,N.cn.addr,DecIPTTL.plain q⟩],?_,?_⟩
    · change (if N.ha.privateAddr = N.ha.privateAddr then atHomeAgent chance n .privateNet p else _) = _
      rw [if_pos rfl,atHomeAgent,hrun,hframe]
      rfl
    · exact .on _ _ (h.lookedHome q) rfl rfl rfl (.toSource _ hq'.hop)
  | visiting =>
    have hrun := receive_back chance h.fa hN.fa hfa hnfa hp httl
    refine ⟨{ n with fa := n.fa.looked q },[⟨.publicNet,N.cn.addr,DecIPTTL.plain q⟩],?_,?_⟩
    · change (if N.fa.privateAddr = N.fa.privateAddr then atForeignAgent chance n .privateNet p else _) = _
      rw [if_pos rfl,atForeignAgent,hrun,hframe]
      rfl
    · exact .on _ _ (h.lookedForeign q) rfl rfl rfl (.toSource _ hq'.hop)

theorem Reply.accepts {s : ICMPPingSource} (hp : Reply N s.icmpId seq p) : s.Accepts p :=
  ⟨hp.kind.1,hp.kind.2.1,hp.kind.2.2,ClickIcmp.identifier_of_padding hp.padding⟩

theorem arrive_source (hroom : n.ping.Room) (h : Attached N n) (hN : N.Sound) (hp : Reply N n.ping.icmpId seq p) :
    ∃ m fs, atSource N chance n p = some (m,fs) ∧ Moved N n seq 0 m fs := by
  have hpass := CheckIPHeader.simpleAction_of_valid hp.valid
  set q : Packet := { p with dstIpAnno := p.ip.ipDst } with hq
  have hq' : Reply N n.ping.icmpId seq q := hp.anno _
  have hown : q.dstIpAnno = N.cn.addr := hp.ends.2
  have hrun : n.cn.receive chance.env N.cn.addr p = .done (n.cn.looked q,[(.host,Annotated.fresh q)]) :=
    CorrespondingNode.receive_in h.cn hN.cn hpass hown
  obtain ⟨ping,hping⟩ := ICMPPingSource.push_isSome chance.arrival q hroom
  refine ⟨{ n with cn := n.cn.looked q, ping := ping },[],?_,?_⟩
  · have hhost : ([(.host,Annotated.fresh q)] : List (HostExit × Annotated)).filterMap hostPacket = [q] := rfl
    rw [atSource,hrun,result,Option.bind_some,hhost,List.foldlM_cons,hping]
    rfl
  · exact .answered _ q chance.arrival (h.lookedSource q _) rfl hq'.accepts
      (ClickIcmp.sequence_of_padding hq'.padding) hping rfl

/-- Wherever a ping is, the station that it arrives at sends it on, or it is the source and takes the reply. -/
theorem arrive_stage {f : Frame} {left : ℕ} (halloc : chance.env.alloc .tunnel = true) (hroom : n.ping.Room)
    (h : Attached N n) (hN : N.Sound)
    (hf : Stage N n.place n.ping.icmpId seq left f) : ∃ m fs, arrive N chance n f = some (m,fs) ∧ Moved N n seq left m fs := by
  obtain ⟨hha,hfa,hnha,hnfa⟩ := hN.source
  have hhasource : N.ha.publicAddr ≠ N.cn.addr := fun heq => hnha (.inr heq.symm)
  have hfasource : N.fa.publicAddr ≠ N.cn.addr := fun heq => hnfa (.inr heq.symm)
  cases hf with
  | toAgent p hp httl =>
    have hstation : arrive N chance n ⟨.publicNet,N.ha.publicAddr,p⟩ = atHomeAgent chance n .publicNet p := by
      rw [arrive,if_neg hhasource,if_pos rfl]
    rw [hstation]
    exact arrive_agent halloc h hN hp httl
  | tunnelled base p hp hplace =>
    have hstation : arrive N chance n ⟨.publicNet,N.fa.publicAddr,IpEncapsulation.encapsulate base N.fa.publicAddr p⟩ =
        atForeignAgent chance n .publicNet (IpEncapsulation.encapsulate base N.fa.publicAddr p) := by
      rw [arrive,if_neg hfasource,if_neg hN.agents.symm,if_pos rfl]
    rw [hstation]
    exact arrive_tunnel h hN hp hplace base
  | toNode p hp =>
    have hstation : arrive N chance n ⟨n.place.link,N.mn.addr,p⟩ = atNode N chance n p := by
      cases hplace : n.place with
      | home =>
        have hne : N.mn.addr ≠ N.ha.privateAddr := fun heq => hN.node.2.1 (.inl heq)
        rw [arrive]
        change (if _ then _ else if _ ∧ _ then _ else _) = _
        rw [if_neg hne,if_pos ⟨rfl,hplace⟩]
      | visiting =>
        have hne : N.mn.addr ≠ N.fa.privateAddr := fun heq => hN.node.2.2 (.inl heq)
        rw [arrive]
        change (if _ then _ else if _ ∧ _ then _ else _) = _
        rw [if_neg hne,if_pos ⟨rfl,hplace⟩]
    rw [hstation]
    exact arrive_node h hN hp
  | back p hp httl => exact arrive_back h hN hp httl
  | toSource p hp =>
    have hstation : arrive N chance n ⟨.publicNet,N.cn.addr,p⟩ = atSource N chance n p := by
      rw [arrive,if_pos rfl]
    rw [hstation]
    exact arrive_source hroom h hN hp

end Hops

end ClickMobileIP.Datapath
