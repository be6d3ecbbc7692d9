import ClickMobileIP.Router.AgentForwarding
import ClickMobileIP.System.Network

/-! # Registrations inside the router

The network model lets an agent process registrations by themselves. In the router they
share the routing table, the error elements and the tunnel with every other packet. The
router refines the model: over every run the information base and the registration
messages are those of the model on the packets that are registrations for the agent.
-/
namespace ClickMobileIP
open ByteLayout PushGraph

namespace Agent
variable {c : AgentConfig} {s t : Agent} {p q : Packet} {env : Env} {side : Side} {a : Annotated}

/-- The interfaces behind the outputs of the element that a message of the filter's output goes to. -/
def answerExits : ℕ → List Exit
  | 1 => [.registration .privateNet]
  | 2 => [.registration .publicNet,.registration .privateNet]
  | 3 => [.registration .privateNet,.registration .publicNet]
  | _ => []

section Filter

theorem filter_cases (s : AgentBase) (p : Packet) :
    MobileIPFilter.push s p = none ∨ ∃ k ≤ 3, MobileIPFilter.push s p = some [⟨k,p⟩] := by
  unfold MobileIPFilter.push
  split
  · exact .inl rfl
  · split_ifs
    · exact .inr ⟨1,by decide,rfl⟩
    · split
      · exact .inl rfl
      · split_ifs
        · exact .inr ⟨2,by decide,rfl⟩
        · exact .inr ⟨3,by decide,rfl⟩
    · exact .inr ⟨0,by decide,rfl⟩

theorem wire_exits (targets : List Exit) (sent : Pushes) :
    wire (targets.map (Sum.inr : Exit → Element ⊕ Exit)) sent = (wire targets sent).map (fun x => (.inr x.1,x.2)) := by
  unfold wire
  rw [List.map_filterMap]
  congr 1
  funext x
  rw [List.getElem?_map,Option.map_map,Option.map_map]
  rfl

theorem push_answer {e : Element} {result : Option (AgentBase × List Emission)} (targets : List Exit) (depth : ℕ)
    (h : handler env e a s = result.map (fun r =>
      ({ s with base := r.1 },wire (targets.map Sum.inr) (keep a r.2)))) :
    (result = none ∧ push (handler env) (depth + 1) e a s = .fault) ∨ ∃ base sent, result = some (base,sent) ∧
      push (handler env) (depth + 1) e a s = .done ({ s with base := base },wire targets (keep a sent)) := by
  cases result with
  | none => exact .inl ⟨rfl,push_fault h⟩
  | some r =>
    obtain ⟨base,sent⟩ := r
    refine .inr ⟨base,sent,rfl,push_outs ?_⟩
    rw [h,Option.map_some,wire_exits]

/-- Behind the filter the router does what the agent of the model does. -/
theorem push_mipfilter (depth : ℕ) :
    (System.receive env.uninit s.base a.packet (env.alloc .answer) = none ∧ push (handler env) (depth + 2) .mipfilter a s = .fault) ∨
    ∃ base sent k, System.receive env.uninit s.base a.packet (env.alloc .answer) = some (base,sent) ∧
      MobileIPFilter.push s.base a.packet = some [⟨k,a.packet⟩] ∧
      push (handler env) (depth + 2) .mipfilter a s = .done ({ s with base := base },wire (answerExits k) (keep a sent)) := by
  rcases filter_cases s.base a.packet with hnone | ⟨k,hk,hfilter⟩
  · refine .inl ⟨by rw [System.receive,hnone],push_fault ?_⟩
    rw [handler,hnone]
    rfl
  have hhandler : handler env .mipfilter a s = some (s,(keep a [⟨k,a.packet⟩]).filterMap (fun x =>
      if x.1 = 1 then some (.inl .reply,x.2) else if x.1 = 2 then some (.inl .regrep,x.2)
      else if x.1 = 3 then some (.inl .farp,x.2) else none)) := by
    rw [handler,hfilter]
    rfl
  obtain rfl | rfl | rfl | rfl : k = 0 ∨ k = 1 ∨ k = 2 ∨ k = 3 := by omega
  · refine .inr ⟨s.base,[],0,by rw [System.receive,hfilter]; rfl,hfilter,?_⟩
    exact push_nothing hhandler
  · have hreceive : System.receive env.uninit s.base a.packet (env.alloc .answer) = ForeignAgentReplyProcess.push env.uninit s.base a.packet := by
      rw [System.receive,hfilter]
      rfl
    have hnext : handler env .mipfilter a s = some (s,[(.inl .reply,a)]) := hhandler
    rw [push_next hnext,hreceive]
    rcases push_answer (answerExits 1) depth (rfl : handler env .reply a s = _) with h | ⟨base,sent,hsome,h⟩
    · exact .inl h
    · exact .inr ⟨base,sent,1,hsome,hfilter,h⟩
  · have hreceive : System.receive env.uninit s.base a.packet (env.alloc .answer) = RegistrationRequestReply.push (env.alloc .answer) s.base a.packet := by
      rw [System.receive,hfilter]
      rfl
    have hnext : handler env .mipfilter a s = some (s,[(.inl .regrep,a)]) := hhandler
    rw [push_next hnext,hreceive]
    rcases push_answer (answerExits 2) depth (rfl : handler env .regrep a s = _) with h | ⟨base,sent,hsome,h⟩
    · exact .inl h
    · exact .inr ⟨base,sent,2,hsome,hfilter,h⟩
  · have hreceive : System.receive env.uninit s.base a.packet (env.alloc .answer) =
        some (ForeignAgentReqProcess.push (env.alloc .answer) s.base a.packet) := by
      rw [System.receive,hfilter]
      rfl
    have hnext : handler env .mipfilter a s = some (s,[(.inl .farp,a)]) := hhandler
    rw [push_next hnext,hreceive]
    have hanswer : handler env .farp a s = (some (ForeignAgentReqProcess.push (env.alloc .answer) s.base a.packet)).map (fun r =>
        ({ s with base := r.1 },wire ((answerExits 3).map Sum.inr) (keep a r.2))) := rfl
    rcases push_answer (answerExits 3) depth hanswer with h | ⟨base,sent,hsome,h⟩
    · exact .inl h
    · exact .inr ⟨base,sent,3,hsome,hfilter,h⟩

theorem push_ipdecap_udp (depth : ℕ) (hlen : 20 ≤ a.packet.length) (hudp : a.packet.ip.ipP = 17) :
    push (handler env) (depth + 1) .ipdecap a s = push (handler env) depth .ipc a s := by
  have hpush : IpDecap.push s.base a.packet = some [⟨0,a.packet⟩] := by
    have hother : ¬(17 : UInt8) = 4 := by decide
    simp only [IpDecap.push,load_ipP hlen,hudp,hother,↓reduceIte]
  refine push_next ?_
  rw [handler,hpush]
  rfl

theorem udp_of_isRegistration (h : IPClassifier.isRegistration p = true) : p.ip.ipP = 17 := by
  unfold IPClassifier.isRegistration at h
  simp only [Bool.and_eq_true,beq_iff_eq] at h
  exact h.1.1

/-- A registration for the agent: what the router does with it is what the agent of the network model does,
and the answers leave by the interfaces that the script has for them. -/
theorem receive_registration (env : Env) (side : Side) (h : Scripted c s) (hc : c.Separate)
    (hp : CheckIPHeader.simpleAction {} a.packet = some p) (hown : c.Own p.ip.ipDst)
    (hreg : IPClassifier.isRegistration p = true) :
    (System.receive env.uninit s.base p (env.alloc .answer) = none ∧ receive env 20 side a s = .fault) ∨
    ∃ base sent k, System.receive env.uninit s.base p (env.alloc .answer) = some (base,sent) ∧
      MobileIPFilter.push s.base p = some [⟨k,p⟩] ∧
      receive env 20 side a s =
        .done ({ s.looked p with base := base },wire (answerExits k) (keep (arrived side a p) sent)) := by
  obtain ⟨hvalid,-,-⟩ := CheckIPHeader.valid_of_simpleAction hp
  have hanno := anno_of_passes hp
  have hroute : route c p = (0,p) := route_own (hanno ▸ hown)
  have hclass : handler env .ipc (arrived side a p) (s.looked p) =
      some (s.looked p,[(.inl .mipfilter,arrived side a p)]) := by
    have hreg' : IPClassifier.isRegistration (arrived side a p).packet = true := hreg
    rw [handler,if_pos hreg']
  rw [receive_routed h hc hp (hc.own_ne hown) hroute rfl,
    push_ipdecap_udp (a := arrived side a p) 16 hvalid.headed.fixed (udp_of_isRegistration hreg),
    push_next hclass]
  exact push_mipfilter (a := arrived side a p) (s := s.looked p) 13

end Filter

section Frame
variable {pushes : List ((Element ⊕ Exit) × Annotated)} {inside : Prop}

structure Plain (p : Packet) : Prop where
  other : IPClassifier.isRegistration p = false
  whole : p.ip.ipP = 4 → 40 ≤ p.length

/-- Bytes enough behind the options, and memory for a copy. -/
def Secure (env : Env) (p : Packet) : Prop := p.OptionsInside ∧ env.alloc .clone = true

/-- A packet that is not for the agent, and either its options end with it, or one byte earlier, so that an element
on its way may read behind them, or there is no memory for the copy that a redirect needs. -/
def AtRisk (c : AgentConfig) (env : Env) (q : Packet) : Prop :=
  ∃ p, CheckIPHeader.simpleAction {} q = some p ∧ ¬c.Own p.ip.ipDst ∧ ¬Secure env p

/-- A packet that does not concern the registration elements. `inside` is what promises that a packet for
somebody else is secure. -/
def Off (env : Env) (c : AgentConfig) (inside : Prop) : Element → Annotated → Prop
  | .ip, a => ∀ p, CheckIPHeader.simpleAction {} a.packet = some p →
      (c.Own p.ip.ipDst → Plain p) ∧ (inside → ¬c.Own p.ip.ipDst → Secure env p)
  | .soli, a | .rt, a => (c.Own a.packet.dstIpAnno → Plain a.packet) ∧
      (inside → ¬c.Own a.packet.dstIpAnno → Secure env a.packet)
  | .ipdecap, a | .ipc, a => Plain a.packet
  | .mipfilter, _ | .reply, _ | .regrep, _ | .farp, _ => False
  | .drop _, a | .ipenc, a | .paint _, a | .path _ _, a | .error _ _, a => inside → Secure env a.packet
  | .checkPaint, _ | .checkIcmp, _ | .inner, _ => True

def Silent : Exit → Prop
  | .registration _ => False
  | .forwarded _ | .tunnel | .delivered | .host | .advertiser => True

def LeadsOff (env : Env) (c : AgentConfig) (inside : Prop) : (Element ⊕ Exit) × Annotated → Prop
  | (.inl e,b) => Off env c inside e b
  | (.inr o,_) => Silent o

theorem packet_of_decap {b : AgentBase} {sent : List Emission} {m : Emission} (h : IpDecap.push b p = some sent)
    (hm : m ∈ sent) (hport : m.port = 0) : m.packet = p := by
  unfold IpDecap.push at h
  split at h
  · cases h
  · split_ifs at h
    · split at h
      · cases h
      · split_ifs at h
        · cases h
          rw [List.mem_singleton.mp hm] at hport
          cases hport
        · cases h
          rw [List.mem_singleton.mp hm]
    · cases h
      rw [List.mem_singleton.mp hm]

theorem rt_off (h : Scripted c s) (hc : c.Separate) (ha : Off env c inside .rt a)
    (hstep : handler env .rt a s = some (t,pushes)) :
    (Scripted c t ∧ t.base = s.base) ∧ ∀ x ∈ pushes, LeadsOff env c inside x := by
  cases hstep
  refine ⟨⟨h.looked a.packet,rfl⟩,fun x hx => ?_⟩
  obtain ⟨⟨port,p⟩,hmem,hsome⟩ := List.mem_filterMap.mp hx
  obtain ⟨e,he,rfl⟩ := Option.map_eq_some_iff.mp hsome
  rw [h.push_rt hc,List.mem_singleton] at hmem
  by_cases hown : c.Own a.packet.dstIpAnno
  · rw [route_own hown] at hmem
    obtain ⟨rfl,rfl⟩ := Prod.mk.inj hmem
    cases he
    exact ha.1 hown
  · by_cases hin : c.OnPrivate a.packet.dstIpAnno
    · rw [route_private hown hin] at hmem
      obtain ⟨rfl,rfl⟩ := Prod.mk.inj hmem
      cases he
      exact fun hinside => ha.2 hinside hown
    · obtain ⟨gw,hroute⟩ := route_public hown hin
      rw [hroute] at hmem
      obtain ⟨rfl,rfl⟩ := Prod.mk.inj hmem
      cases he
      exact fun hinside => ha.2 hinside hown

theorem error_off {side : Side} {problem : Problem} (h : Scripted c s) (hk : Known (.error side problem) a)
    (ha : Off env c inside (.error side problem) a) (hstep : handler env (.error side problem) a s = some (t,pushes)) :
    (Scripted c t ∧ t.base = s.base) ∧ ∀ x ∈ pushes, LeadsOff env c inside x := by
  rcases error_cases hk hstep with ⟨rfl,rfl⟩ | ⟨q,rfl,rfl,hreports,-⟩
  · exact ⟨⟨h,rfl⟩,fun x hx => absurd hx List.not_mem_nil⟩
  · refine ⟨⟨⟨h.publicAddr,h.privateAddr,h.rt⟩,rfl⟩,fun x hx => ?_⟩
    rw [List.mem_singleton.mp hx]
    have hicmp := hreports.fresh.2.2
    have hbehind := hreports.behind
    refine ⟨fun _ => ⟨Bool.eq_false_iff.mpr fun hreg => ?_,fun htunnel => ?_⟩,
      fun hinside _ => ⟨.inr (by omega),(ha hinside).2⟩⟩
    · exact absurd (hicmp.symm.trans (udp_of_isRegistration hreg)) (by decide)
    · exact absurd (hicmp.symm.trans htunnel) (by decide)

theorem handler_off (h : Scripted c s) (hc : c.Separate) (e : Element) (hk : Known e a) (ha : Off env c inside e a)
    (hstep : handler env e a s = some (t,pushes)) :
    (Scripted c t ∧ t.base = s.base) ∧ ∀ x ∈ pushes, LeadsOff env c inside x := by
  cases e with
  | ip =>
    cases hstep
    refine ⟨⟨h,rfl⟩,fun x hx => ?_⟩
    obtain ⟨p,hp,rfl⟩ := Option.map_eq_some_iff.mp (Option.mem_toList.mp hx)
    have hoff := ha p hp
    rw [← anno_of_passes hp] at hoff
    exact hoff
  | soli =>
    cases hstep
    refine ⟨⟨h,rfl⟩,wire_two (fun b hmem => ?_) (fun _ _ => trivial)⟩
    obtain ⟨m,hm,-,rfl⟩ := mem_keep hmem
    have hsame : (a.withPacket m.packet).packet = a.packet := packet_of_soli hm
    change (c.Own _ → Plain _) ∧ _
    rw [hsame]
    exact ha
  | rt => exact rt_off h hc ha hstep
  | ipdecap =>
    obtain ⟨sent,hsent,hresult⟩ := Option.map_eq_some_iff.mp hstep
    obtain ⟨rfl,rfl⟩ := Prod.mk.inj hresult
    refine ⟨⟨h,rfl⟩,wire_two (fun b hmem => ?_) (fun _ _ => trivial)⟩
    obtain ⟨m,hm,hport,rfl⟩ := mem_keep hmem
    change Plain m.packet
    rw [packet_of_decap hsent hm hport.symm]
    exact ha
  | ipc =>
    cases hstep
    refine ⟨⟨h,rfl⟩,fun x hx => ?_⟩
    rw [List.mem_singleton.mp hx,if_neg (Bool.eq_false_iff.mp ha.other)]
    trivial
  | mipfilter => exact absurd ha id
  | reply => exact absurd ha id
  | regrep => exact absurd ha id
  | farp => exact absurd ha id
  | checkPaint =>
    cases hstep
    exact ⟨⟨h,rfl⟩,wire_one (fun _ _ => trivial)⟩
  | checkIcmp =>
    cases hstep
    refine ⟨⟨h,rfl⟩,fun x hx => ?_⟩
    obtain ⟨p,-,rfl⟩ := Option.map_eq_some_iff.mp (Option.mem_toList.mp hx)
    trivial
  | inner =>
    cases hstep
    refine ⟨⟨h,rfl⟩,fun x hx => ?_⟩
    obtain ⟨p,-,rfl⟩ := Option.map_eq_some_iff.mp (Option.mem_toList.mp hx)
    trivial
  | drop side =>
    cases side with
    | privateNet | publicNet =>
      cases hstep
      refine ⟨⟨h,rfl⟩,wire_one (fun b hmem => ?_)⟩
      rw [DropBroadcasts.same hmem]
      exact ha
  | ipenc =>
    obtain ⟨sent,hsent,hresult⟩ := Option.map_eq_some_iff.mp hstep
    obtain ⟨rfl,rfl⟩ := Prod.mk.inj hresult
    refine ⟨⟨h,rfl⟩,wire_two (fun b hmem => ?_) (fun _ _ => trivial)⟩
    obtain ⟨m,hm,hport,rfl⟩ := mem_keep hmem
    rcases encapsulation_cases hsent with rfl | rfl | ⟨careOff,rfl⟩
    · rw [List.mem_singleton.mp hm]
      exact ha
    · exact absurd hm List.not_mem_nil
    · rw [List.mem_singleton.mp hm] at hport
      cases hport
  | paint side =>
    obtain ⟨sent,hsent,hresult⟩ := Option.map_eq_some_iff.mp hstep
    obtain ⟨rfl,rfl⟩ := Prod.mk.inj hresult
    refine ⟨⟨h,rfl⟩,wire_two (fun b hmem => ?_) (fun b hmem => ?_)⟩
    · rw [(PaintTee.same hsent hmem).1]
      exact ha
    · rw [(PaintTee.same hsent hmem).1]
      exact ha
  | path side e =>
    obtain ⟨xs,hxs,hresult⟩ := Option.map_eq_some_iff.mp hstep
    obtain ⟨rfl,rfl⟩ := Prod.mk.inj hresult
    refine ⟨⟨h,rfl⟩,fun x hx => ?_⟩
    obtain ⟨⟨target,b⟩,hmem,rfl⟩ := List.mem_map.mp hx
    have hleads := Path.pushes_leads e hk hxs _ hmem
    rcases target with e' | (_ | problem)
    · exact fun hinside => ⟨hleads.2 (ha hinside).1,(ha hinside).2⟩
    · trivial
    · exact fun hinside => ⟨hleads.2 (ha hinside).1,(ha hinside).2⟩
  | error side problem => exact error_off h hk ha hstep

/-- No element off the registration path goes wrong on a packet that keeps the promise. -/
theorem handler_ne_none (e : Element) (hk : Known e a) (ha : Off env c inside e a) (hinside : inside) :
    handler env e a s ≠ none := by
  cases e with
  | ipdecap =>
    have hlen : 20 ≤ a.packet.length := Packet.Valid.headed hk |>.fixed
    have hdecap : IpDecap.push s.base a.packet ≠ none := by
      rw [IpDecap.push,load_ipP hlen]
      dsimp only
      split_ifs with htunnel
      · have hb : 36 + Layout.u32.size ≤ a.packet.data.length := ha.whole htunnel
        rw [Layout.load_eq_some _ hb]
        dsimp only
        split_ifs <;> exact Option.some_ne_none _
      · exact Option.some_ne_none _
    rw [handler,ne_eq,Option.map_eq_none_iff]
    exact hdecap
  | ipenc =>
    have hlen : 20 ≤ a.packet.length := Packet.Valid.headed hk |>.fixed
    have hencap : IpEncapsulation.push (env.alloc .tunnel) s.base a.packet ≠ none := by
      cases hbound : s.base.table a.packet.ip.ipDst with
      | none =>
        rw [encapsulation_home _ hlen hbound]
        exact Option.some_ne_none _
      | some entry =>
        rw [encapsulation_bound _ hlen hbound]
        exact Option.some_ne_none _
    rw [handler,ne_eq,Option.map_eq_none_iff]
    exact hencap
  | path side e =>
    rw [handler,ne_eq,Option.map_eq_none_iff]
    exact Path.pushes_ne_none e hk (ha hinside).1
  | paint side =>
    rw [handler,ne_eq,Option.map_eq_none_iff,(ha hinside).2]
    exact PaintTee.simpleAction_ne_none side.color a
  | mipfilter => exact absurd ha id
  | reply => exact absurd ha id
  | regrep => exact absurd ha id
  | farp => exact absurd ha id
  | error side problem =>
    rw [handler,ne_eq,Option.map_eq_none_iff]
    exact (ICMPError.simpleAction_silent_iff _ _ (ha hinside).1).1
  | drop side => cases side <;> exact Option.some_ne_none _
  | ip | soli | checkPaint | checkIcmp | rt | inner | ipc => exact Option.some_ne_none _

theorem receive_other (h : Scripted c s) (hc : c.Separate)
    (hplain : ∀ p, CheckIPHeader.simpleAction {} a.packet = some p → c.Own p.ip.ipDst → Plain p) :
    (receive env 20 side a s).Ends (AtRisk c env a.packet)
      (fun r => (Scripted c r.1 ∧ r.1.base = s.base) ∧ ∀ x ∈ r.2, Silent x.1) := by
  have hstart : Off env c (¬AtRisk c env a.packet) .ip { a with paint := side.color } := by
    refine fun p hp => ⟨hplain p hp,fun hsafe hother => ?_⟩
    by_contra hinsecure
    exact hsafe ⟨p,hp,hother,hinsecure⟩
  refine push_ends (I := fun t => Scripted c t ∧ t.base = s.base)
    (P := fun e b => Known e b ∧ Off env c (¬AtRisk c env a.packet) e b) (Q := fun o _ => Silent o) ?_ ?_ ⟨h,rfl⟩
    ⟨trivial,hstart⟩ (show rank .ip { a with paint := side.color } < 20 from (show 19 < 20 by decide))
  · intro e b u _ hb hnone
    by_contra hsafe
    exact handler_ne_none e hb.1 hb.2 hsafe hnone
  intro e b u v sent hu hb hstep
  obtain ⟨⟨hv,hbase⟩,hoff⟩ := handler_off hu.1 hc e hb.1 hb.2 hstep
  refine ⟨⟨hv,hbase.trans hu.2⟩,fun x hx => ?_⟩
  have hleads := handler_leads e hb.1 hstep x hx
  have hoffx := hoff x hx
  match x, hleads, hoffx with
  | (.inl e',b'), hleads, hoffx => exact ⟨⟨hleads.1,hoffx⟩,hleads.2⟩
  | (.inr o,b'), _, hoffx => exact hoffx

end Frame

section Answers
variable {base b : AgentBase} {sent : List Emission} {uninit : UInt16} {alloc : Bool} {k : ℕ}

/-- An answer keeps the addresses of the agent and uses outputs that are wired to an interface. -/
structure Answered (base b : AgentBase) (k : ℕ) (sent : List Emission) : Prop where
  publicAddr : b.publicAddr = base.publicAddr
  privateAddr : b.privateAddr = base.privateAddr
  wired : ∀ m ∈ sent, m.port < (answerExits k).length

theorem answered_of_filter (hfilter : MobileIPFilter.push base p = some [⟨k,p⟩]) (hk : k ≤ 3) :
    ∃ b sent, System.receive uninit base p alloc = some (b,sent) ∧ Answered base b k sent := by
  obtain rfl | rfl | rfl | rfl : k = 0 ∨ k = 1 ∨ k = 2 ∨ k = 3 := by omega
  · refine ⟨base,[],?_,rfl,rfl,fun m hm => absurd hm List.not_mem_nil⟩
    rw [System.receive,hfilter]
    rfl
  · have hreceive : System.receive uninit base p alloc = ForeignAgentReplyProcess.push uninit base p := by
      rw [System.receive,hfilter]
      rfl
    rw [hreceive]
    by_cases hp : p.IsReply
    · refine ⟨_,_,ForeignAgentReplyProcess.push_reply uninit hp,rfl,rfl,fun m hm => ?_⟩
      rw [List.mem_singleton.mp hm]
      exact (by decide : 0 < 1)
    · exact ⟨_,_,ForeignAgentReplyProcess.push_other uninit hp,rfl,rfl,fun m hm => absurd hm List.not_mem_nil⟩
  · have hreceive : System.receive uninit base p alloc = RegistrationRequestReply.push alloc base p := by
      rw [System.receive,hfilter]
      rfl
    rw [hreceive]
    obtain ⟨b,sent,hpush,hpushed⟩ := RegistrationRequestReply.push_pushed alloc base p
    refine ⟨b,sent,hpush,?_⟩
    cases hpushed with
    | ignored _ => exact ⟨rfl,rfl,fun m hm => absurd hm List.not_mem_nil⟩
    | bound _ _ _ _ _ _ =>
      refine ⟨rfl,rfl,fun m hm => ?_⟩
      rw [List.mem_singleton.mp hm]
      exact (by decide : 0 < 2)
    | unbound _ _ _ _ _ _ =>
      refine ⟨?_,?_,fun m hm => ?_⟩
      · unfold RegistrationRequestReply.unbind
        split_ifs <;> rfl
      · unfold RegistrationRequestReply.unbind
        split_ifs <;> rfl
      · rw [List.mem_singleton.mp hm]
        exact (by decide : 1 < 2)
  · have hreceive : System.receive uninit base p alloc = some (ForeignAgentReqProcess.push alloc base p) := by
      rw [System.receive,hfilter]
      rfl
    rw [hreceive]
    refine ⟨(ForeignAgentReqProcess.push alloc base p).1,(ForeignAgentReqProcess.push alloc base p).2,rfl,?_⟩
    have hpushed := ForeignAgentReqProcess.push_pushed alloc base p
    generalize (ForeignAgentReqProcess.push alloc base p).1 = b at hpushed ⊢
    generalize (ForeignAgentReqProcess.push alloc base p).2 = sent at hpushed ⊢
    cases hpushed with
    | ignored _ => exact ⟨rfl,rfl,fun m hm => absurd hm List.not_mem_nil⟩
    | denied _ _ hout =>
      refine ⟨rfl,rfl,fun m hm => ?_⟩
      rcases hout with rfl | ⟨code,-,rfl⟩
      · exact absurd hm List.not_mem_nil
      · rw [List.mem_singleton.mp hm]
        exact (by decide : 0 < 2)
    | relayed _ =>
      refine ⟨rfl,rfl,fun m hm => ?_⟩
      rw [List.mem_singleton.mp hm]
      exact (by decide : 1 < 2)

/-- The agent of the model faults where the filter does: a type or an address that it reads is outside
the packet. -/
theorem receive_eq_none_iff : System.receive uninit base p alloc = none ↔
    p.length < 29 ∨ Layout.u8.read (p.data.drop 28) = 1 ∧ p.length < 40 := by
  have hfilter : System.receive uninit base p alloc = none ↔ MobileIPFilter.push base p = none := by
    rcases filter_cases base p with hnone | ⟨k,hk,hsome⟩
    · rw [System.receive,hnone]
      exact ⟨fun _ => rfl,fun _ => rfl⟩
    · obtain ⟨b,sent,hreceive,-⟩ : ∃ b sent, System.receive uninit base p alloc = some (b,sent) ∧ Answered base b k sent :=
        answered_of_filter hsome hk
      rw [hreceive,hsome]
      exact ⟨fun h => absurd h (Option.some_ne_none _),fun h => absurd h (Option.some_ne_none _)⟩
  rw [hfilter,MobileIPFilter.push]
  by_cases htype : 29 ≤ p.length
  · have hb : 28 + Layout.u8.size ≤ p.data.length := htype
    have hlong : ¬p.length < 29 := by omega
    rw [Layout.load_eq_some _ hb]
    dsimp only
    by_cases hrequest : Layout.u8.read (p.data.drop 28) = 1
    · have hreply : ¬(1 : UInt8) = 3 := by decide
      rw [hrequest,if_neg hreply,if_pos rfl]
      by_cases haddr : 40 ≤ p.length
      · have hb' : 36 + Layout.u32.size ≤ p.data.length := haddr
        rw [Layout.load_eq_some _ hb']
        dsimp only
        refine ⟨fun h => ?_,fun h => by omega⟩
        split_ifs at h
      · have hb' : p.data.length < 36 + Layout.u32.size := Nat.not_le.mp haddr
        rw [Layout.load_eq_none _ hb']
        exact ⟨fun _ => .inr ⟨rfl,by omega⟩,fun _ => rfl⟩
    · refine ⟨fun h => ?_,fun h => ?_⟩
      · rw [if_neg hrequest] at h
        split_ifs at h
      · rcases h with h | ⟨h,-⟩
        · exact absurd h hlong
        · exact absurd h hrequest
  · have hb : p.data.length < 28 + Layout.u8.size := Nat.not_le.mp htype
    rw [Layout.load_eq_none _ hb]
    exact ⟨fun _ => .inl (by omega),fun _ => rfl⟩

end Answers

section Run
open EventRun

/-- A packet from an interface and its type on the link, with what the code does not decide. -/
structure Arrival where
  env : Env
  side : Side
  packet : Packet
  packetType : PacketType := .host

def Arrival.annotated (e : Arrival) : Annotated := { packet := e.packet, packetType := e.packetType }

def step (s : Agent) (e : Arrival) : Option (Agent × List (Exit × Annotated)) :=
  match receive e.env 20 e.side e.annotated s with
  | .done r => some r
  | .fault | .tooDeep => none

/-- A registration for the agent; bytes of an uninitialised header; whether there is memory for an answer. -/
structure Registration where
  packet : Packet
  uninit : UInt16
  alloc : Bool

def registration (c : AgentConfig) (e : Arrival) : Option Registration :=
  match CheckIPHeader.simpleAction {} e.packet with
  | none => none
  | some p =>
    if c.Own p.ip.ipDst ∧ IPClassifier.isRegistration p = true then some ⟨p,e.env.uninit,e.env.alloc .answer⟩ else none

/-- The agent of the network model. -/
def serve (base : AgentBase) (r : Registration) : Option (AgentBase × List Emission) :=
  System.receive r.uninit base r.packet r.alloc

def registrationMessage (x : Exit × Annotated) : Option Packet :=
  match x.1 with
  | .registration _ => some x.2.packet
  | .forwarded _ | .tunnel | .delivered | .host | .advertiser => none

def registrationMessages (out : List (Exit × Annotated)) : List Packet := out.filterMap registrationMessage

/-- A packet for the agent that ends before a field that the agent reads. -/
def Overruns (c : AgentConfig) (q : Packet) : Prop :=
  ∃ p, CheckIPHeader.simpleAction {} q = some p ∧ c.Own p.ip.ipDst ∧
    (p.ip.ipP = 4 ∧ p.length < 40 ∨ IPClassifier.isRegistration p = true ∧
      (p.length < 29 ∨ Layout.u8.read (p.data.drop 28) = 1 ∧ p.length < 40))

theorem registrationMessages_silent {out : List (Exit × Annotated)} (h : ∀ x ∈ out, Silent x.1) :
    registrationMessages out = [] := by
  refine List.filterMap_eq_nil_iff.mpr (fun x hx => ?_)
  have hsilent := h x hx
  unfold registrationMessage
  match x.1, hsilent with
  | .forwarded _, _ => rfl
  | .tunnel, _ => rfl
  | .delivered, _ => rfl
  | .host, _ => rfl
  | .advertiser, _ => rfl
  | .registration _, hsilent => exact absurd hsilent id

theorem mem_answerExits {k : ℕ} {o : Exit} (h : o ∈ answerExits k) : ∃ side, o = .registration side := by
  unfold answerExits at h
  split at h <;> simp only [List.mem_cons,List.not_mem_nil,or_false] at h
  · exact ⟨_,h⟩
  · rcases h with h | h <;> exact ⟨_,h⟩
  · rcases h with h | h <;> exact ⟨_,h⟩

theorem registrationMessages_wire {k : ℕ} {sent : List Emission} (h : ∀ m ∈ sent, m.port < (answerExits k).length) :
    registrationMessages (wire (answerExits k) (keep a sent)) = sent.map Emission.packet := by
  induction sent with
  | nil => rfl
  | cons m sent ih =>
    have hrest := ih (fun n hn => h n (List.mem_cons_of_mem _ hn))
    have ho := List.getElem?_eq_getElem (h m List.mem_cons_self)
    obtain ⟨side,hside⟩ := mem_answerExits (List.mem_of_getElem? ho)
    rw [hside] at ho
    have hwire : wire (answerExits k) (keep a (m :: sent)) =
        (.registration side,a.withPacket m.packet) :: wire (answerExits k) (keep a sent) := by
      change List.filterMap _ ((m.port,a.withPacket m.packet) :: keep a sent) = _
      rw [List.filterMap_cons,ho]
      rfl
    rw [hwire,List.map_cons,← hrest]
    rfl

theorem receive_overrun (h : Scripted c s) (hc : c.Separate) (hp : CheckIPHeader.simpleAction {} a.packet = some p)
    (hown : c.Own p.ip.ipDst) (htunnel : p.ip.ipP = 4) (hshort : p.length < 40) :
    receive env 20 side a s = .fault := by
  obtain ⟨hvalid,-,-⟩ := CheckIPHeader.valid_of_simpleAction hp
  have hroute : route c p = (0,p) := route_own (anno_of_passes hp ▸ hown)
  have hdecap : IpDecap.push s.base p = none := by
    have hb : p.data.length < 36 + Layout.u32.size := hshort
    rw [IpDecap.push,load_ipP hvalid.headed.fixed,htunnel]
    dsimp only
    rw [if_pos rfl,Layout.load_eq_none _ hb]
  have hfault : handler env .ipdecap (arrived side a p) (s.looked p) = none := by
    rw [handler]
    exact Option.map_eq_none_iff.mpr hdecap
  rw [receive_routed h hc hp (hc.own_ne hown) hroute rfl]
  exact push_fault hfault

theorem step_other (h : Scripted c s) (hc : c.Separate) {e : Arrival}
    (hplain : ∀ p, CheckIPHeader.simpleAction {} e.packet = some p → c.Own p.ip.ipDst → Plain p) :
    (AtRisk c e.env e.packet ∧ step s e = none) ∨
      ∃ t out, step s e = some (t,out) ∧ Scripted c t ∧ t.base = s.base ∧ registrationMessages out = [] := by
  have hends : (receive e.env 20 e.side e.annotated s).Ends (AtRisk c e.env e.packet) (fun r =>
      (Scripted c r.1 ∧ r.1.base = s.base) ∧ ∀ x ∈ r.2, Silent x.1) := receive_other h hc hplain
  unfold step
  cases hr : receive e.env 20 e.side e.annotated s with
  | done r =>
    rw [hr] at hends
    exact .inr ⟨r.1,r.2,rfl,hends.1.1,hends.1.2,registrationMessages_silent hends.2⟩
  | fault =>
    rw [hr] at hends
    exact .inl ⟨hends,rfl⟩
  | tooDeep =>
    rw [hr] at hends
    exact absurd hends id

theorem step_registration (h : Scripted c s) (hc : c.Separate) {e : Arrival}
    (hp : CheckIPHeader.simpleAction {} e.packet = some p) (hown : c.Own p.ip.ipDst)
    (hreg : IPClassifier.isRegistration p = true) :
    (System.receive e.env.uninit s.base p (e.env.alloc .answer) = none ∧ step s e = none) ∨
      ∃ t out sent, step s e = some (t,out) ∧ Scripted c t ∧ System.receive e.env.uninit s.base p (e.env.alloc .answer) = some (t.base,sent) ∧
        registrationMessages out = sent.map Emission.packet := by
  unfold step
  have hreceived := receive_registration (a := e.annotated) e.env e.side h hc hp hown hreg
  rcases hreceived with ⟨hnone,hfault⟩ | ⟨base,sent,k,hsome,hfilter,hdone⟩
  · rw [hfault]
    exact .inl ⟨hnone,rfl⟩
  · rw [hdone]
    have hk : k ≤ 3 := by
      rcases filter_cases s.base p with hnone | ⟨k',hk',hfilter'⟩
      · rw [hfilter] at hnone
        cases hnone
      · rw [hfilter] at hfilter'
        cases hfilter'
        exact hk'
    obtain ⟨b,sent',hreceive,hanswered⟩ : ∃ b sent, System.receive e.env.uninit s.base p (e.env.alloc .answer) = some (b,sent) ∧
        Answered s.base b k sent := answered_of_filter hfilter hk
    rw [hsome] at hreceive
    obtain ⟨rfl,rfl⟩ := Prod.mk.inj (Option.some.inj hreceive)
    exact .inr ⟨_,_,sent,rfl,⟨hanswered.publicAddr.trans h.publicAddr,hanswered.privateAddr.trans h.privateAddr,h.rt.push p⟩,
      hsome,registrationMessages_wire hanswered.wired⟩

/-- A registration for the agent is served as in the model; any other packet leaves the information base alone. -/
def Served (c : AgentConfig) (s : Agent) (e : Arrival) (t : Agent) (out : List (Exit × Annotated)) : Prop :=
  (registration c e = none ∧ t.base = s.base ∧ registrationMessages out = []) ∨
    ∃ r sent, registration c e = some r ∧ serve s.base r = some (t.base,sent) ∧
      registrationMessages out = sent.map Emission.packet

theorem step_serves (h : Scripted c s) (hc : c.Separate) {e : Arrival}
    (hp : CheckIPHeader.simpleAction {} e.packet = some p) (hown : c.Own p.ip.ipDst)
    (hreg : IPClassifier.isRegistration p = true) :
    (step s e = none ∧ Overruns c e.packet) ∨
    (¬Overruns c e.packet ∧ ∃ t out, step s e = some (t,out) ∧ Scripted c t ∧ Served c s e t out) := by
  have hsome : registration c e = some ⟨p,e.env.uninit,e.env.alloc .answer⟩ := by
    rw [registration,hp]
    exact if_pos ⟨hown,hreg⟩
  rcases step_registration h hc hp hown hreg with ⟨hnone,hfault⟩ | ⟨t,out,sent,hstep,ht,hreceive,hmessages⟩
  · exact .inl ⟨hfault,p,hp,hown,.inr ⟨hreg,receive_eq_none_iff.mp hnone⟩⟩
  · refine .inr ⟨?_,t,out,hstep,ht,.inr ⟨_,sent,hsome,hreceive,hmessages⟩⟩
    rintro ⟨p',hp',-,hbad⟩
    rw [hp] at hp'
    obtain rfl := Option.some.inj hp'
    rcases hbad with ⟨htunnel,-⟩ | ⟨-,hearly⟩
    · rw [udp_of_isRegistration hreg] at htunnel
      exact absurd htunnel (by decide)
    · rw [receive_eq_none_iff.mpr hearly] at hreceive
      cases hreceive

/-- One packet: it is served, or it ends too early for an element and the router faults. -/
theorem step_cases (h : Scripted c s) (hc : c.Separate) (e : Arrival) :
    (step s e = none ∧ (Overruns c e.packet ∨ AtRisk c e.env e.packet)) ∨
    (¬Overruns c e.packet ∧ ∃ t out, step s e = some (t,out) ∧ Scripted c t ∧ Served c s e t out) := by
  -- Packets that are not for the registration elements.
  have hother : ¬Overruns c e.packet →
      (∀ p, CheckIPHeader.simpleAction {} e.packet = some p → c.Own p.ip.ipDst → Plain p) → registration c e = none →
      (step s e = none ∧ (Overruns c e.packet ∨ AtRisk c e.env e.packet)) ∨
      (¬Overruns c e.packet ∧ ∃ t out, step s e = some (t,out) ∧ Scripted c t ∧ Served c s e t out) := by
    intro hwhole hplain hnone
    rcases step_other h hc hplain with ⟨hcut,hfault⟩ | ⟨t,out,hstep,ht,hbase,hmessages⟩
    · exact .inl ⟨hfault,.inr hcut⟩
    · exact .inr ⟨hwhole,t,out,hstep,ht,.inl ⟨hnone,hbase,hmessages⟩⟩
  cases hp : CheckIPHeader.simpleAction {} e.packet with
  | none =>
    refine hother ?_ ?_ ?_
    · rintro ⟨p,hsome,-⟩
      rw [hp] at hsome
      cases hsome
    · intro p hsome
      rw [hp] at hsome
      cases hsome
    · rw [registration,hp]
  | some p =>
    have hunique : ∀ p', CheckIPHeader.simpleAction {} e.packet = some p' → p' = p :=
      fun p' h' => (Option.some.inj (hp.symm.trans h')).symm
    by_cases hown : c.Own p.ip.ipDst
    · by_cases hreg : IPClassifier.isRegistration p = true
      · exact (step_serves h hc hp hown hreg).imp_left (fun hfault => ⟨hfault.1,.inl hfault.2⟩)
      · have hnone : registration c e = none := by
          rw [registration,hp]
          exact if_neg (fun h => hreg h.2)
        by_cases hshort : p.ip.ipP = 4 ∧ p.length < 40
        · refine .inl ⟨?_,.inl ⟨p,hp,hown,.inl hshort⟩⟩
          rw [step,receive_overrun (a := e.annotated) h hc hp hown hshort.1 hshort.2]
        · refine hother ?_ ?_ hnone
          · rintro ⟨p',hp',-,hbad⟩
            rw [hunique p' hp'] at hbad
            rcases hbad with hbad | hbad
            · exact hshort hbad
            · exact hreg hbad.1
          · intro p' hp' _
            rw [hunique p' hp']
            exact ⟨Bool.eq_false_iff.mpr hreg,fun htunnel => Nat.not_lt.mp (fun hlt => hshort ⟨htunnel,hlt⟩)⟩
    · refine hother ?_ ?_ ?_
      · rintro ⟨p',hp',hown',-⟩
        rw [hunique p' hp'] at hown'
        exact hown hown'
      · intro p' hp' hown'
        rw [hunique p' hp'] at hown'
        exact absurd hown' hown
      · rw [registration,hp]
        exact if_neg (fun h => hown h.1)

theorem scripted_configure (hc : c.Separate) (h : configure c = some s) : Scripted c s := by
  obtain ⟨rt,hrt,rfl⟩ := Option.map_eq_some_iff.mp h
  exact ⟨rfl,rfl,LinearIPLookup.configured_of_configure hc.wellFormed hrt⟩

theorem configure_isSome (c : AgentConfig) : ∃ s, configure c = some s := by
  have hports : ∀ r ∈ c.routes, 0 ≤ r.port ∧ r.port < 3 := by
    intro r hr
    simp only [AgentConfig.routes,List.mem_cons,List.not_mem_nil,or_false] at hr
    rcases hr with rfl | rfl | rfl | rfl | rfl
    · exact (by decide : (0 : ℤ) ≤ 0 ∧ (0 : ℤ) < 3)
    · exact (by decide : (0 : ℤ) ≤ 0 ∧ (0 : ℤ) < 3)
    · exact (by decide : (0 : ℤ) ≤ 1 ∧ (1 : ℤ) < 3)
    · exact (by decide : (0 : ℤ) ≤ 2 ∧ (2 : ℤ) < 3)
    · exact (by decide : (0 : ℤ) ≤ 2 ∧ (2 : ℤ) < 3)
  obtain ⟨rt,hrt⟩ := LinearIPLookup.configure_isSome 3 c.routes hports
  rw [configure,hrt]
  exact ⟨_,rfl⟩

theorem run_cases (hc : c.Separate) (es : List Arrival) (h : Scripted c s) :
    (((∃ e ∈ es, Overruns c e.packet) → run step s es = none) ∧
      (run step s es = none → ∃ e ∈ es, Overruns c e.packet ∨ AtRisk c e.env e.packet)) ∧
      ∀ t out, run step s es = some (t,out) → ∃ sent,
        run serve s.base (es.filterMap (registration c)) = some (t.base,sent) ∧
          registrationMessages out = sent.map Emission.packet := by
  induction es generalizing s with
  | nil =>
    refine ⟨⟨fun ⟨e,he,_⟩ => absurd he List.not_mem_nil,fun hnone => absurd hnone (Option.some_ne_none _)⟩,?_⟩
    rintro t out hrun
    obtain ⟨rfl,rfl⟩ := Prod.mk.inj (Option.some.inj hrun)
    exact ⟨[],rfl,rfl⟩
  | cons e es ih =>
    rcases step_cases h hc e with ⟨hnone,hcause⟩ | ⟨hwhole,t,out,hstep,ht,hserved⟩
    · refine ⟨⟨fun _ => by rw [run,hnone],fun _ => ⟨e,List.mem_cons_self,hcause⟩⟩,fun u out hrun => ?_⟩
      rw [run,hnone] at hrun
      cases hrun
    · obtain ⟨⟨hover,hcause⟩,hrest⟩ := ih ht
      refine ⟨⟨fun hfault => ?_,fun hnone => ?_⟩,fun u out' hrun => ?_⟩
      · obtain ⟨e',he',hover'⟩ := hfault
        have hlater : e' ∈ es := by
          rcases List.mem_cons.mp he' with rfl | he'
          · exact absurd hover' hwhole
          · exact he'
        rw [run,hstep,Option.map_eq_none_iff]
        exact hover ⟨e',hlater,hover'⟩
      · rw [run,hstep,Option.map_eq_none_iff] at hnone
        obtain ⟨e',he',hcause'⟩ := hcause hnone
        exact ⟨e',List.mem_cons_of_mem _ he',hcause'⟩
      · obtain ⟨t',o,o',hstep',hes,rfl⟩ := run_cons_eq_some.mp hrun
        rw [hstep] at hstep'
        obtain ⟨rfl,rfl⟩ := Prod.mk.inj (Option.some.inj hstep')
        obtain ⟨sent,hsent,hmessages⟩ := hrest u o' hes
        have hsplit : registrationMessages (out ++ o') = registrationMessages out ++ registrationMessages o' :=
          List.filterMap_append
        rcases hserved with ⟨hnone,hbase,hsilent⟩ | ⟨r,first,hsome,hserve,hfirst⟩
        · refine ⟨sent,?_,?_⟩
          · rw [List.filterMap_cons_none hnone,← hbase]
            exact hsent
          · rw [hsplit,hsilent,hmessages]
            rfl
        · refine ⟨first ++ sent,?_,?_⟩
          · rw [List.filterMap_cons_some hsome]
            exact run_cons_eq_some.mpr ⟨_,first,sent,hserve,hsent,rfl⟩
          · rw [hsplit,hfirst,hmessages,List.map_append]

/-- Over every run of packets from both interfaces: the information base of the router and the
registration messages that it sends, in their order, are those of the agent of the network model on
the packets that are registrations for the agent. -/
theorem run_refines (hc : c.Separate) (hs : configure c = some s) (es : List Arrival) (out : List (Exit × Annotated))
    (hrun : run step s es = some (t,out)) :
    ∃ sent, run serve (AgentBase.configure c.publicAddr c.privateAddr c.lifetimeReg) (es.filterMap (registration c)) =
      some (t.base,sent) ∧ registrationMessages out = sent.map Emission.packet := by
  have hbase : s.base = AgentBase.configure c.publicAddr c.privateAddr c.lifetimeReg := by
    obtain ⟨rt,-,rfl⟩ := Option.map_eq_some_iff.mp hs
    rfl
  rw [← hbase]
  exact (run_cases hc es (scripted_configure hc hs)).2 t out hrun

/-- The request of a node behind the foreign agent, on its way from there to the home agent. -/
def relayedRequest : Packet where
  data := udpPacket { ipV := 4, ipHl := 5, ipLen := htons 52, ipTtl := 12, ipP := 17, ipSrc := htonl 0xc0a80003, ipDst := htonl 0xc0a80002 }
    { uhSport := htons 1001, uhDport := htons 434, uhUlen := htons 32 }
    (RegistrationRequestPacketheader.layout.write
      { type := 1, lifetime := htons 25, homeAddr := htonl 0xc0a80201, homeAgent := htonl 0xc0a80002,
        coAddr := htonl 0xc0a80003, id1 := 3, id2 := 4 }) 32

theorem run_refines_sample : ∃ s t out sent, configure .homeAgent = some s ∧
    run step s [⟨{},.publicNet,relayedRequest,.host⟩] = some (t,out) ∧
    run serve (AgentBase.configure (htonl 0xc0a80002) (htonl 0xc0a802fe) 25)
      [⟨{ relayedRequest with dstIpAnno := htonl 0xc0a80002 },0,true⟩] = some (t.base,sent) ∧
    registrationMessages out = sent.map Emission.packet ∧ sent.length = 1 := by
  obtain ⟨s,hs⟩ := configure_isSome .homeAgent
  have heval : ((configure .homeAgent).bind (fun s => run step s [⟨{},.publicNet,relayedRequest,.host⟩])).any
      (fun r => decide ((registrationMessages r.2).length = 1)) = true := by decide +kernel
  rw [hs,Option.bind_some,Option.any_eq_true_iff_get] at heval
  obtain ⟨hsome,hone⟩ := heval
  obtain ⟨⟨t,out⟩,hrun⟩ := Option.isSome_iff_exists.mp hsome
  have hregistration : [(⟨{},.publicNet,relayedRequest,.host⟩ : Arrival)].filterMap (registration .homeAgent) =
      [⟨{ relayedRequest with dstIpAnno := htonl 0xc0a80002 },0,true⟩] := by
    have hpasses : CheckIPHeader.simpleAction {} relayedRequest =
        some { relayedRequest with dstIpAnno := htonl 0xc0a80002 } := by decide +kernel
    have hmeant : AgentConfig.Own .homeAgent ({ relayedRequest with dstIpAnno := htonl 0xc0a80002 } : Packet).ip.ipDst ∧
        IPClassifier.isRegistration { relayedRequest with dstIpAnno := htonl 0xc0a80002 } = true := by decide +kernel
    rw [List.filterMap_cons,registration,hpasses]
    dsimp only
    rw [if_pos hmeant]
    rfl
  obtain ⟨sent,hserve,hmessages⟩ := run_refines AgentConfig.separate_homeAgent hs _ out hrun
  rw [hregistration] at hserve
  refine ⟨s,t,out,sent,hs,hrun,hserve,hmessages,?_⟩
  simp only [hrun,Option.get_some,decide_eq_true_eq] at hone
  rw [hmessages,List.length_map] at hone
  exact hone

end Run

end Agent

end ClickMobileIP
