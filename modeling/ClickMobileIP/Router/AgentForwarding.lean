import ClickMobileIP.Router.AgentGraph
import ClickMobileIP.Router.StaticIPLookup

/-! # What an agent does with a packet

The routes of `ha.click` and `fa.click` divide the addresses into four classes: the agent's
own, the private network, the public network and the rest. For each of them the whole run
of the router on a packet is computed from the functions of the elements.
-/
namespace ClickMobileIP
open ByteLayout PushGraph
open LinearIPLookup (hostRoute netRoute defaultRoute hostRoute_wellFormed netRoute_wellFormed defaultRoute_wellFormed
  contains_hostRoute contains_netRoute contains_defaultRoute)

/-- The arguments of `Agent`: two addresses with the masks of their networks, and the gateway. -/
structure AgentConfig where
  privateAddr : IPAddress
  privateMask : IPAddress
  publicAddr : IPAddress
  publicMask : IPAddress
  gateway : IPAddress
  lifetimeReg : ℤ := 25
  deriving DecidableEq, Repr

namespace AgentConfig

def routes (c : AgentConfig) : List IPRoute :=
  [hostRoute c.privateAddr,hostRoute c.publicAddr,netRoute c.privateAddr c.privateMask 1,
    netRoute c.publicAddr c.publicMask 2,defaultRoute c.gateway 2]

def Own (c : AgentConfig) (a : IPAddress) : Prop := a = c.privateAddr ∨ a = c.publicAddr

def OnPrivate (c : AgentConfig) (a : IPAddress) : Prop := a &&& c.privateMask = c.privateAddr &&& c.privateMask

def OnPublic (c : AgentConfig) (a : IPAddress) : Prop := a &&& c.publicMask = c.publicAddr &&& c.publicMask

/-- Prefixes of two networks, of more than one host each and without a common address or the limited
broadcast address. -/
structure Separate (c : AgentConfig) : Prop where
  privatePrefix : IsPrefixMask c.privateMask
  publicPrefix : IsPrefixMask c.publicMask
  privateHosts : c.privateMask ≠ 0xffffffff
  publicHosts : c.publicMask ≠ 0xffffffff
  disjoint : ∀ a, c.OnPrivate a → ¬c.OnPublic a
  limited : ∀ a, c.OnPrivate a ∨ c.OnPublic a → a ≠ 0xffffffff

instance (c : AgentConfig) (a : IPAddress) : Decidable (c.Own a) := inferInstanceAs (Decidable (_ ∨ _))

instance (c : AgentConfig) (a : IPAddress) : Decidable (c.OnPrivate a) := inferInstanceAs (Decidable (_ = _))

instance (c : AgentConfig) (a : IPAddress) : Decidable (c.OnPublic a) := inferInstanceAs (Decidable (_ = _))

end AgentConfig

namespace Agent

def configure (c : AgentConfig) : Option Agent :=
  (LinearIPLookup.configure 3 c.routes).map (fun rt =>
    { base := AgentBase.configure c.publicAddr c.privateAddr c.lifetimeReg, rt := rt })

structure Scripted (c : AgentConfig) (s : Agent) : Prop where
  publicAddr : s.base.publicAddr = c.publicAddr
  privateAddr : s.base.privateAddr = c.privateAddr
  rt : LinearIPLookup.Configured c.routes s.rt

end Agent

namespace AgentConfig
variable {c : AgentConfig} {a : IPAddress}

theorem Separate.own_ne (h : c.Separate) (ha : c.Own a) : a ≠ 0xffffffff := by
  rcases ha with rfl | rfl
  · exact h.limited _ (.inl rfl)
  · exact h.limited _ (.inr rfl)

theorem Separate.privateMask_ne (h : c.Separate) : c.privateMask ≠ 0 := by
  intro hzero
  refine h.disjoint c.publicAddr ?_ rfl
  rw [OnPrivate,hzero,UInt32.and_zero,UInt32.and_zero]

theorem Separate.publicMask_ne (h : c.Separate) : c.publicMask ≠ 0 := by
  intro hzero
  refine h.disjoint c.privateAddr rfl ?_
  rw [OnPublic,hzero,UInt32.and_zero,UInt32.and_zero]

theorem Separate.wellFormed (h : c.Separate) : ∀ r ∈ c.routes, r.WellFormed := by
  intro r hr
  simp only [routes,List.mem_cons,List.not_mem_nil,or_false] at hr
  rcases hr with rfl | rfl | rfl | rfl | rfl
  · exact hostRoute_wellFormed _
  · exact hostRoute_wellFormed _
  · exact netRoute_wellFormed h.privatePrefix (by decide)
  · exact netRoute_wellFormed h.publicPrefix (by decide)
  · exact defaultRoute_wellFormed _ (by decide)

theorem contains_routes {r : IPRoute} (hr : r ∈ c.routes) (ha : r.contains a = true) :
    (c.Own a ∧ r = hostRoute a) ∨ (c.OnPrivate a ∧ r = netRoute c.privateAddr c.privateMask 1) ∨
      (c.OnPublic a ∧ r = netRoute c.publicAddr c.publicMask 2) ∨ r = defaultRoute c.gateway 2 := by
  simp only [routes,List.mem_cons,List.not_mem_nil,or_false] at hr
  rcases hr with rfl | rfl | rfl | rfl | rfl
  · rw [contains_hostRoute] at ha
    exact .inl ⟨.inl ha,by rw [ha]⟩
  · rw [contains_hostRoute] at ha
    exact .inl ⟨.inr ha,by rw [ha]⟩
  · exact .inr (.inl ⟨contains_netRoute.mp ha,rfl⟩)
  · exact .inr (.inr (.inl ⟨contains_netRoute.mp ha,rfl⟩))
  · exact .inr (.inr (.inr rfl))

theorem separate_of_prefix {n : Fin 33} (hprivate : c.privateMask = makePrefix n) (hpublic : c.publicMask = makePrefix n)
    (hn : makePrefix n ≠ 0xffffffff) (hne : c.privateAddr &&& makePrefix n ≠ c.publicAddr &&& makePrefix n)
    (hlimited : 0xffffffff &&& makePrefix n ≠ c.privateAddr &&& makePrefix n ∧
      0xffffffff &&& makePrefix n ≠ c.publicAddr &&& makePrefix n) : c.Separate := by
  refine ⟨⟨n,hprivate⟩,⟨n,hpublic⟩,hprivate ▸ hn,hpublic ▸ hn,fun a hin hout => ?_,fun a ha => ?_⟩
  · rw [OnPrivate,hprivate] at hin
    rw [OnPublic,hpublic,hin] at hout
    exact hne hout
  · rintro rfl
    rw [OnPrivate,OnPublic,hprivate,hpublic] at ha
    rcases ha with ha | ha
    · exact hlimited.1 ha
    · exact hlimited.2 ha

/-- `home_agent_private_address`, `home_agent_public_address` and `foreign_agent_public_address`. -/
def homeAgent : AgentConfig where
  privateAddr := htonl 0xc0a802fe
  privateMask := makePrefix 24
  publicAddr := htonl 0xc0a80002
  publicMask := makePrefix 24
  gateway := htonl 0xc0a80003

theorem separate_homeAgent : homeAgent.Separate := separate_of_prefix (n := 24) rfl rfl (by decide) (by decide) (by decide)

end AgentConfig

namespace Agent
open AgentConfig
variable {c : AgentConfig} {s : Agent} {p : Packet}

def route (c : AgentConfig) (p : Packet) : ℤ × Packet :=
  if c.Own p.dstIpAnno then (0,p)
  else if c.OnPrivate p.dstIpAnno then (1,p)
  else if c.OnPublic p.dstIpAnno then (2,p)
  else (2,if c.gateway ≠ 0 then { p with dstIpAnno := c.gateway } else p)

theorem Scripted.push_rt (h : Scripted c s) (hc : c.Separate) (p : Packet) : (s.rt.push p).2 = [route c p] := by
  have hhost : ∀ m, maskAsSpecific 0xffffffff m = true := fun m => maskAsSpecific_iff.mpr UInt32.neg_one_and
  have hzero : ∀ m, maskAsSpecific m 0 = true := fun m => maskAsSpecific_iff.mpr UInt32.and_zero
  have hwell := hc.wellFormed
  unfold route
  by_cases hown : c.Own p.dstIpAnno
  · rw [if_pos hown]
    have hmem : hostRoute p.dstIpAnno ∈ c.routes := by
      rcases hown with ha | ha <;> simp [routes,ha]
    refine h.rt.push_eq hmem (hwell _ hmem) (contains_hostRoute.mpr rfl) (fun q hq hcontains => ?_)
    rcases contains_routes hq hcontains with ⟨-,rfl⟩ | ⟨-,rfl⟩ | ⟨-,rfl⟩ | rfl
    · exact .inl rfl
    · exact .inr ⟨hhost _,hc.privateHosts⟩
    · exact .inr ⟨hhost _,hc.publicHosts⟩
    · exact .inr ⟨hhost _,show (0 : UInt32) ≠ 0xffffffff by decide⟩
  · rw [if_neg hown]
    by_cases hin : c.OnPrivate p.dstIpAnno
    · rw [if_pos hin]
      have hmem : netRoute c.privateAddr c.privateMask 1 ∈ c.routes := by simp [routes]
      refine h.rt.push_eq hmem (hwell _ hmem) (contains_netRoute.mpr hin) (fun q hq hcontains => ?_)
      rcases contains_routes hq hcontains with ⟨ha,-⟩ | ⟨-,rfl⟩ | ⟨ha,-⟩ | rfl
      · exact absurd ha hown
      · exact .inl rfl
      · exact absurd ha (hc.disjoint _ hin)
      · exact .inr ⟨hzero _,hc.privateMask_ne.symm⟩
    · rw [if_neg hin]
      by_cases hout : c.OnPublic p.dstIpAnno
      · rw [if_pos hout]
        have hmem : netRoute c.publicAddr c.publicMask 2 ∈ c.routes := by simp [routes]
        refine h.rt.push_eq hmem (hwell _ hmem) (contains_netRoute.mpr hout) (fun q hq hcontains => ?_)
        rcases contains_routes hq hcontains with ⟨ha,-⟩ | ⟨ha,-⟩ | ⟨-,rfl⟩ | rfl
        · exact absurd ha hown
        · exact absurd ha hin
        · exact .inl rfl
        · exact .inr ⟨hzero _,hc.publicMask_ne.symm⟩
      · rw [if_neg hout]
        have hmem : defaultRoute c.gateway 2 ∈ c.routes := by simp [routes]
        refine h.rt.push_eq hmem (hwell _ hmem) contains_defaultRoute (fun q hq hcontains => ?_)
        rcases contains_routes hq hcontains with ⟨ha,-⟩ | ⟨ha,-⟩ | ⟨ha,-⟩ | rfl
        · exact absurd ha hown
        · exact absurd ha hin
        · exact absurd ha hout
        · exact .inl rfl

/-- The agent after a lookup: only the caches of the table have changed. -/
def looked (s : Agent) (p : Packet) : Agent := { s with rt := (s.rt.push p).1 }

theorem Scripted.looked (h : Scripted c s) (p : Packet) : Scripted c (s.looked p) :=
  ⟨h.publicAddr,h.privateAddr,h.rt.push p⟩

/-- The packet behind the header check. -/
def arrived (side : Side) (a : Annotated) (p : Packet) : Annotated := { a with packet := p, paint := side.color }

section Runs
variable {env : Env} {side : Side} {a : Annotated} {depth : ℕ}

theorem receive_rt (hp : CheckIPHeader.simpleAction {} a.packet = some p) (hdst : p.ip.ipDst ≠ 0xffffffff) :
    receive env (depth + 2) side a s = push (handler env) depth .rt (arrived side a p) s := by
  have hip : handler env .ip { a with paint := side.color } s = some (s,[(.inl .soli,arrived side a p)]) := by
    rw [handler]
    dsimp only
    rw [hp]
    rfl
  have hsoli : handler env .soli (arrived side a p) s = some (s,[(.inl .rt,arrived side a p)]) := by
    have hpass : SolicitationFilter.push (arrived side a p).packet = [⟨0,p⟩] := by
      simp [SolicitationFilter.push,arrived,hdst]
    rw [handler,hpass]
    rfl
  rw [receive,push_next hip,push_next hsoli]

theorem Scripted.push_routed (h : Scripted c s) (hc : c.Separate) {port : ℤ} {q : Packet} {e : Element}
    (hroute : route c a.packet = (port,q)) (htarget : routeTarget port = some e) :
    push (handler env) (depth + 1) .rt a s = push (handler env) depth e (a.withPacket q) (s.looked a.packet) := by
  refine push_next ?_
  rw [handler,h.push_rt hc,hroute]
  simp only [List.filterMap_cons,htarget,Option.map_some,List.filterMap_nil]
  rfl

/-- The forwarding path of an interface that the packet did not come from. -/
theorem push_paint (hpaint : a.paint ≠ side.color) (ha : a.packet.Valid) (hsmooth : Path.Smooth .ipgw a) :
    push (handler env) (depth + 5) (.paint side) a s = .done (s,[(.forwarded side,Path.hop (s.addr side) a)]) := by
  have hpaint : handler env (.paint side) a s = some (s,[(.inl (.path side .ipgw),a)]) := by
    rw [handler,PaintTee.simpleAction,if_neg hpaint]
    rfl
  have hembeds : Path.Embeds (handler env) env (s.addr side) (Element.path side) (pathTarget side) s := ⟨fun _ _ => rfl⟩
  rw [push_next hpaint]
  exact hembeds.push_smooth rfl ha hsmooth

theorem push_drop_public (htype : a.packetType = .host) :
    push (handler env) (depth + 1) (.drop .publicNet) a s = push (handler env) depth (.paint .publicNet) a s := by
  refine push_next ?_
  rw [handler,DropBroadcasts.simpleAction,if_neg (by simp [htype])]
  rfl

theorem push_drop_private (htype : a.packetType = .host) :
    push (handler env) (depth + 1) (.drop .privateNet) a s = push (handler env) depth .ipenc a s := by
  refine push_next ?_
  rw [handler,DropBroadcasts.simpleAction,if_neg (by simp [htype])]
  rfl

theorem encapsulation_home {b : AgentBase} (alloc : Bool) (hlen : 20 ≤ p.length) (hhome : b.table p.ip.ipDst = none) :
    IpEncapsulation.push alloc b p = some [⟨0,p⟩] := by
  have hisHome : b.isHome p.ip.ipDst = true := by
    simp only [AgentBase.isHome,HashMap.findPair,hhome]
  simp only [IpEncapsulation.push,load_ipDst hlen,hisHome,↓reduceIte]

theorem encapsulation_bound {b : AgentBase} {entry : HARegistrationEntry} (alloc : Bool) (hlen : 20 ≤ p.length)
    (hbound : b.table p.ip.ipDst = some entry) : IpEncapsulation.push alloc b p =
      some (if alloc = true then [⟨1,IpEncapsulation.encapsulate b entry.mobileNodeCoa p⟩] else []) := by
  have hhome : b.isHome p.ip.ipDst = false := AgentBase.isHome_eq_false.mpr ⟨entry,hbound⟩
  have hcoa : IpEncapsulation.getDesitination b p.ip.ipDst = some entry.mobileNodeCoa := by
    simp only [IpEncapsulation.getDesitination,HashMap.findPair,hbound,Option.map_some]
  cases alloc <;>
    simp only [IpEncapsulation.push,load_ipDst hlen,hhome,hcoa,Bool.false_eq_true,Bool.true_eq_false,↓reduceIte]

theorem push_ipenc_home (hlen : 20 ≤ a.packet.length) (hhome : s.base.table a.packet.ip.ipDst = none) :
    push (handler env) (depth + 1) .ipenc a s = push (handler env) depth (.paint .privateNet) a s := by
  refine push_next ?_
  rw [handler,encapsulation_home _ hlen hhome]
  rfl

theorem push_ipenc_bound {entry : HARegistrationEntry} (halloc : env.alloc .tunnel = true) (hlen : 20 ≤ a.packet.length)
    (hbound : s.base.table a.packet.ip.ipDst = some entry) :
    push (handler env) (depth + 1) .ipenc a s =
      .done (s,[(.tunnel,a.withPacket (IpEncapsulation.encapsulate s.base entry.mobileNodeCoa a.packet))]) := by
  refine push_out ?_
  rw [handler,halloc,encapsulation_bound _ hlen hbound]
  rfl

/-- The inner packet of a tunnel packet, behind the second header check. -/
theorem push_decap {ha : AgentBase} {coa : IPAddress} (hp : p.Valid) (hvisitor : s.base.inMapNode p.ip.ipDst = true) :
    push (handler env) (depth + 2) .ipdecap (arrived side a (IpEncapsulation.encapsulate ha coa p)) s =
      .done (s,[(.delivered,arrived side a { p with dstIpAnno := p.ip.ipDst })]) := by
  have hpull : (IpEncapsulation.encapsulate ha coa p).pull 20 = { p with dstIpAnno := coa } := by
    rw [Packet.pull,Tunnel.drop_encapsulate]
    rfl
  have hdecap : handler env .ipdecap (arrived side a (IpEncapsulation.encapsulate ha coa p)) s =
      some (s,[(.inl .inner,arrived side a { p with dstIpAnno := coa })]) := by
    have hpush : IpDecap.push s.base (arrived side a (IpEncapsulation.encapsulate ha coa p)).packet =
        some [⟨1,{ p with dstIpAnno := coa }⟩] := by
      rw [← hpull]
      exact Tunnel.push_encapsulate ha coa hp.headed.fixed hvisitor
    rw [handler,hpush]
    rfl
  have hinner : handler env .inner (arrived side a { p with dstIpAnno := coa }) s =
      some (s,[(.inr .delivered,arrived side a { p with dstIpAnno := p.ip.ipDst })]) := by
    have hpass : CheckIPHeader.simpleAction {} (arrived side a { p with dstIpAnno := coa }).packet =
        some { p with dstIpAnno := p.ip.ipDst } := CheckIPHeader.simpleAction_of_valid (hp.anno coa)
    rw [handler,hpass]
    rfl
  rw [push_next hdecap,push_out hinner]

end Runs

section Classes
variable {env : Env} {side : Side} {q : Packet} {a : Annotated}

/-- A packet with the time to live of the next hop, for the querier of an interface. -/
def sentOn (side : Side) (p : Packet) : Annotated := arrived side (Annotated.fresh p) (DecIPTTL.plain p)

theorem anno_of_passes (hp : CheckIPHeader.simpleAction {} q = some p) : p.dstIpAnno = p.ip.ipDst := by
  obtain ⟨-,hq,hip⟩ := CheckIPHeader.valid_of_simpleAction hp
  rw [hip,hq]

theorem route_own (hown : c.Own p.dstIpAnno) : route c p = (0,p) := if_pos hown

theorem route_private (hown : ¬c.Own p.dstIpAnno) (hin : c.OnPrivate p.dstIpAnno) : route c p = (1,p) := by
  rw [route,if_neg hown,if_pos hin]

theorem route_public (hown : ¬c.Own p.dstIpAnno) (hin : ¬c.OnPrivate p.dstIpAnno) :
    ∃ gw, route c p = (2,{ p with dstIpAnno := gw }) := by
  rw [route,if_neg hown,if_neg hin]
  split_ifs
  · exact ⟨p.dstIpAnno,rfl⟩
  · exact ⟨c.gateway,rfl⟩
  · exact ⟨p.dstIpAnno,rfl⟩

theorem receive_routed (h : Scripted c s) (hc : c.Separate) (hp : CheckIPHeader.simpleAction {} a.packet = some p)
    (hbroadcast : p.ip.ipDst ≠ 0xffffffff) {port : ℤ} {r : Packet} {e : Element} {depth : ℕ}
    (hroute : route c p = (port,r)) (htarget : routeTarget port = some e) :
    receive env (depth + 3) side a s = push (handler env) depth e (arrived side a r) (s.looked p) := by
  rw [receive_rt hp hbroadcast]
  exact h.push_routed hc (a := arrived side a p) hroute htarget

theorem receive_outward (h : Scripted c s) (hc : c.Separate) (hp : CheckIPHeader.simpleAction {} q = some p)
    (ha : Path.Ordinary p) (hbroadcast : p.ip.ipDst ≠ 0xffffffff) (hown : ¬c.Own p.ip.ipDst) (hin : ¬c.OnPrivate p.ip.ipDst) :
    receive env 20 .privateNet (Annotated.fresh q) s =
      .done (s.looked p,[(.forwarded .publicNet,sentOn .privateNet (route c p).2)]) := by
  obtain ⟨hvalid,-,-⟩ := CheckIPHeader.valid_of_simpleAction hp
  rw [← anno_of_passes hp] at hown hin
  obtain ⟨gw,hroute⟩ := route_public hown hin
  have hcolor : Side.privateNet.color ≠ Side.publicNet.color := by decide
  rw [receive_routed (a := Annotated.fresh q) h hc hp hbroadcast hroute rfl,push_drop_public rfl,hroute]
  exact push_paint hcolor (hvalid.anno gw) (Path.Ordinary.smooth (ha.anno gw))

theorem receive_home (h : Scripted c s) (hc : c.Separate) (hp : CheckIPHeader.simpleAction {} q = some p)
    (ha : Path.Ordinary p) (hown : ¬c.Own p.ip.ipDst) (hin : c.OnPrivate p.ip.ipDst)
    (hhome : s.base.table p.ip.ipDst = none) :
    receive env 20 .publicNet (Annotated.fresh q) s = .done (s.looked p,[(.forwarded .privateNet,sentOn .publicNet p)]) := by
  obtain ⟨hvalid,-,-⟩ := CheckIPHeader.valid_of_simpleAction hp
  have hbroadcast := hc.limited _ (.inl hin)
  rw [← anno_of_passes hp] at hown hin
  have hcolor : Side.publicNet.color ≠ Side.privateNet.color := by decide
  rw [receive_routed (a := Annotated.fresh q) h hc hp hbroadcast (route_private hown hin) rfl,push_drop_private rfl]
  have hhome' : (s.looked p).base.table (arrived .publicNet (Annotated.fresh q) p).packet.ip.ipDst = none := hhome
  rw [push_ipenc_home hvalid.headed.fixed hhome']
  exact push_paint hcolor hvalid (Path.Ordinary.smooth ha)

/-- To a bound node: into the tunnel, whatever the packet is like, if there is memory for the outer one. -/
theorem receive_tunnel (halloc : env.alloc .tunnel = true) (h : Scripted c s) (hc : c.Separate) (hp : CheckIPHeader.simpleAction {} q = some p)
    (hown : ¬c.Own p.ip.ipDst) (hin : c.OnPrivate p.ip.ipDst) {entry : HARegistrationEntry} (hbound : s.base.table p.ip.ipDst = some entry) :
    receive env 20 side (Annotated.fresh q) s = .done (s.looked p,[(.tunnel,arrived side (Annotated.fresh q)
      (IpEncapsulation.encapsulate s.base entry.mobileNodeCoa p))]) := by
  obtain ⟨hvalid,-,-⟩ := CheckIPHeader.valid_of_simpleAction hp
  have hbroadcast := hc.limited _ (.inl hin)
  rw [← anno_of_passes hp] at hown hin
  rw [receive_routed (a := Annotated.fresh q) h hc hp hbroadcast (route_private hown hin) rfl,push_drop_private rfl]
  have hbound' : (s.looked p).base.table (arrived side (Annotated.fresh q) p).packet.ip.ipDst = some entry := hbound
  exact push_ipenc_bound halloc hvalid.headed.fixed hbound'

theorem receive_visitor (h : Scripted c s) (hc : c.Separate) {ha : AgentBase} {coa : IPAddress} (hown : c.Own coa)
    (hp : p.Valid) (hlen : p.length ≤ 65515) (hvisitor : s.base.inMapNode p.ip.ipDst = true) :
    receive env 20 side (Annotated.fresh (IpEncapsulation.encapsulate ha coa p)) s =
      .done (s.looked (IpEncapsulation.encapsulate ha coa p),
        [(.delivered,arrived side (Annotated.fresh p) { p with dstIpAnno := p.ip.ipDst })]) := by
  have hpasses := Tunnel.simpleAction_encapsulate ha coa hlen
  have hip : (IpEncapsulation.encapsulate ha coa p).ip.ipDst = coa := by
    rw [Tunnel.ip_encapsulate]
    rfl
  have hroute : route c (IpEncapsulation.encapsulate ha coa p) = (0,IpEncapsulation.encapsulate ha coa p) :=
    route_own hown
  have hvisitor' : (s.looked (IpEncapsulation.encapsulate ha coa p)).base.inMapNode p.ip.ipDst = true := hvisitor
  rw [receive_routed (a := Annotated.fresh (IpEncapsulation.encapsulate ha coa p)) h hc hpasses
    (by rw [hip]; exact hc.own_ne hown) hroute rfl]
  exact push_decap hp hvisitor'

end Classes

end Agent

end ClickMobileIP
