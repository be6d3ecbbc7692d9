import ClickMobileIP.Node.KnownAgents
import ClickMobileIP.Router.HostGraph
import ClickMobileIP.Support.EventRun

/-! # The router of the mobile node and the node of the network model

The router of `mn.click` gives a packet to the elements of the registration if it is an
advertisement or a reply for the node; everything else it forwards or gives to the ping
responder. A reply of the responder goes through the router again, so an echo request from
the limited broadcast address can make the node take its own reply for an advertisement.
-/
namespace ClickMobileIP.NodeRouter
open ByteLayout PushGraph
open MobileNode (Event)

/-- The advertisement that a packet is taken for. -/
def announcement (draws : ℕ → Draw) (q : Packet) : Option Event :=
  match CheckIPHeader.simpleAction {} q with
  | none => none
  | some p =>
    if AdvFilter.push p = [⟨1,p⟩] ∧ CheckICMPHeader.simpleAction p = some p then some (.advertisement draws p) else none

/-- What a packet means to the registration elements. -/
def heard (c : HostConfig) (draws : ℕ → Draw) (q : Packet) : Option Event :=
  match CheckIPHeader.simpleAction {} q with
  | none => none
  | some p =>
    if AdvFilter.push p = [⟨0,p⟩] ∧ p.ip.ipDst = c.addr then
      if IPClassifier.isReply p = true then some (.reply p)
      else if ICMPPingResponder.IsEcho p then announcement draws (ICMPPingResponder.reply p)
      else none
    else announcement draws q

section Filters
variable {p : Packet}

theorem advFilter_cases (p : Packet) : AdvFilter.push p = [] ∨ AdvFilter.push p = [⟨0,p⟩] ∨ AdvFilter.push p = [⟨1,p⟩] := by
  unfold AdvFilter.push
  by_cases hlen : p.length = 48
  · rw [if_pos hlen]
    by_cases hicmp : p.ip.ipP = 1 ∧ p.ip.ipDst = 0xffffffff
    · rw [if_pos hicmp]
      dsimp only
      by_cases hformat : p.advertisement.typeEx = 16 ∧ p.advertisement.type = 9 ∧ p.advertisement.code = 0
      · exact .inr (.inr (if_pos hformat))
      · exact .inl (if_neg hformat)
    · exact .inr (.inl (if_neg hicmp))
  · exact .inr (.inl (if_neg hlen))

end Filters

section Quiet
variable {env : Env} {addr : IPAddress} {draws : ℕ → Draw} {c : HostConfig} {s t : NodeRouter} {a : Annotated}
  {pushes : List ((Element ⊕ HostExit) × Annotated)} {p q : Packet} {inside : Prop}

structure Plain (p : Packet) : Prop where
  other : IPClassifier.isReply p = false
  silent : ¬ICMPPingResponder.IsEcho p

/-- What the table gives to the host is plain; `inside` promises that a packet for somebody else has bytes enough. -/
structure Onward (c : HostConfig) (inside : Prop) (p : Packet) : Prop where
  plain : p.dstIpAnno = c.addr → Plain p
  whole : inside → p.dstIpAnno ≠ c.addr → p.OptionsInside

/-- A packet that reaches no registration element and is not answered. -/
def Off (c : HostConfig) (inside : Prop) : Element → Annotated → Prop
  | .ip, a => ∀ p, CheckIPHeader.simpleAction {} a.packet = some p →
      (AdvFilter.push p = [⟨1,p⟩] → CheckICMPHeader.simpleAction p = none) ∧
      (AdvFilter.push p = [⟨0,p⟩] → Onward c inside p)
  | .adv, a => a.packet.Valid ∧ (AdvFilter.push a.packet = [⟨1,a.packet⟩] → CheckICMPHeader.simpleAction a.packet = none) ∧
      (AdvFilter.push a.packet = [⟨0,a.packet⟩] → Onward c inside a.packet)
  | .advertisement, a => CheckICMPHeader.simpleAction a.packet = none
  | .rt, a => a.packet.Valid ∧ Onward c inside a.packet
  | .ipc, a | .responder, a => Plain a.packet
  | .regreq, _ => False
  | .gateway, a | .path _, a => a.packet.Valid ∧ (inside → a.packet.OptionsInside)
  | .error _, a => inside → a.packet.OptionsInside

def rank : Element → ℕ
  | .ip => 9
  | .adv => 8
  | .rt => 7
  | .ipc | .gateway => 6
  | .path e => e.left
  | .responder | .advertisement | .regreq | .error _ => 0

def LeadsOff (c : HostConfig) (inside : Prop) (e : Element) : (Element ⊕ HostExit) × Annotated → Prop
  | (.inl e',b) => Off c inside e' b ∧ rank e' < rank e
  | (.inr o,_) => o ≠ .registration

theorem adv_off (h : LinearIPLookup.Configured (c.routes 2) s.rt) (ha : Off c inside .adv a)
    (hstep : handler env addr draws .adv a s = some (t,pushes)) :
    (LinearIPLookup.Configured (c.routes 2) t.rt ∧ t.node = s.node) ∧ ∀ x ∈ pushes, LeadsOff c inside .adv x := by
  cases hstep
  obtain ⟨hvalid,hannounced,honward⟩ := ha
  have hsame : ∀ {i : ℕ} {b : Annotated}, (i,b) ∈ keep a (AdvFilter.push a.packet) →
      AdvFilter.push a.packet = [⟨i,a.packet⟩] ∧ b = a := by
    intro i b hmem
    obtain ⟨m,hm,rfl,rfl⟩ := mem_keep hmem
    rcases advFilter_cases a.packet with hnone | hzero | hone
    · rw [hnone] at hm
      exact absurd hm List.not_mem_nil
    · rw [hzero] at hm ⊢
      rw [List.mem_singleton.mp hm]
      exact ⟨rfl,rfl⟩
    · rw [hone] at hm ⊢
      rw [List.mem_singleton.mp hm]
      exact ⟨rfl,rfl⟩
  refine ⟨⟨h,rfl⟩,wire_two (fun b hmem => ?_) (fun b hmem => ?_)⟩
  · obtain ⟨hfilter,rfl⟩ := hsame hmem
    exact ⟨⟨hvalid,honward hfilter⟩,show 7 < 8 by decide⟩
  · obtain ⟨hfilter,rfl⟩ := hsame hmem
    exact ⟨hannounced hfilter,show 0 < 8 by decide⟩

theorem rt_off (h : LinearIPLookup.Configured (c.routes 2) s.rt) (hc : c.Proper) (ha : Off c inside .rt a)
    (hstep : handler env addr draws .rt a s = some (t,pushes)) :
    (LinearIPLookup.Configured (c.routes 2) t.rt ∧ t.node = s.node) ∧ ∀ x ∈ pushes, LeadsOff c inside .rt x := by
  cases hstep
  refine ⟨⟨h.push a.packet,rfl⟩,fun x hx => ?_⟩
  obtain ⟨⟨port,p⟩,hmem,hsome⟩ := List.mem_filterMap.mp hx
  obtain ⟨e,he,rfl⟩ := Option.map_eq_some_iff.mp hsome
  rw [HostConfig.push_rt h hc (by decide),List.mem_singleton] at hmem
  rw [HostConfig.route] at hmem
  split_ifs at hmem with hown hin hgateway
  · obtain ⟨rfl,rfl⟩ := Prod.mk.inj hmem
    cases he
    exact ⟨ha.2.plain hown,show 6 < 7 by decide⟩
  · obtain ⟨rfl,rfl⟩ := Prod.mk.inj hmem
    cases he
    exact ⟨⟨ha.1,fun hinside => ha.2.whole hinside hown⟩,show 4 < 7 by decide⟩
  · obtain ⟨rfl,rfl⟩ := Prod.mk.inj hmem
    cases he
    exact ⟨⟨ha.1.anno _,fun hinside => ha.2.whole hinside hown⟩,show 6 < 7 by decide⟩
  · obtain ⟨rfl,rfl⟩ := Prod.mk.inj hmem
    cases he
    exact ⟨⟨ha.1,fun hinside => ha.2.whole hinside hown⟩,show 6 < 7 by decide⟩

theorem path_off {e : Path} (h : LinearIPLookup.Configured (c.routes 2) s.rt) (ha : Off c inside (.path e) a)
    (hstep : handler env addr draws (.path e) a s = some (t,pushes)) :
    (LinearIPLookup.Configured (c.routes 2) t.rt ∧ t.node = s.node) ∧ ∀ x ∈ pushes, LeadsOff c inside (.path e) x := by
  obtain ⟨xs,hxs,hresult⟩ := Option.map_eq_some_iff.mp hstep
  obtain ⟨rfl,rfl⟩ := Prod.mk.inj hresult
  refine ⟨⟨h,rfl⟩,fun x hx => ?_⟩
  obtain ⟨⟨target,b⟩,hmem,rfl⟩ := List.mem_map.mp hx
  have hleads := Path.pushes_leads e ha.1 hxs _ hmem
  rcases target with e' | (_ | problem)
  · exact ⟨⟨hleads.1.1,fun hinside => hleads.2 (ha.2 hinside)⟩,hleads.1.2.1⟩
  · exact HostExit.noConfusion
  · exact ⟨fun hinside => hleads.2 (ha.2 hinside),e.left_pos⟩

theorem handler_off (h : LinearIPLookup.Configured (c.routes 2) s.rt) (hc : c.Proper) (e : Element) (ha : Off c inside e a)
    (hstep : handler env addr draws e a s = some (t,pushes)) :
    (LinearIPLookup.Configured (c.routes 2) t.rt ∧ t.node = s.node) ∧ ∀ x ∈ pushes, LeadsOff c inside e x := by
  cases e with
  | ip =>
    cases hstep
    refine ⟨⟨h,rfl⟩,fun x hx => ?_⟩
    obtain ⟨p,hp,rfl⟩ := Option.map_eq_some_iff.mp (Option.mem_toList.mp hx)
    exact ⟨⟨(CheckIPHeader.valid_of_simpleAction hp).1,ha p hp⟩,show 8 < 9 by decide⟩
  | adv => exact adv_off h ha hstep
  | advertisement =>
    have hnone : handler env addr draws .advertisement a s = some (s,[]) := by
      have hdropped : CheckICMPHeader.simpleAction a.packet = none := ha
      rw [handler,hdropped]
    rw [hnone] at hstep
    cases hstep
    exact ⟨⟨h,rfl⟩,fun x hx => absurd hx List.not_mem_nil⟩
  | rt => exact rt_off h hc ha hstep
  | ipc =>
    cases hstep
    refine ⟨⟨h,rfl⟩,fun x hx => ?_⟩
    have hplain : Plain a.packet := ha
    rw [List.mem_singleton.mp hx,if_neg (Bool.eq_false_iff.mp hplain.other)]
    exact ⟨hplain,show 0 < 6 by decide⟩
  | regreq => exact absurd ha id
  | responder =>
    have hplain : Plain a.packet := ha
    have hnone : handler env addr draws .responder a s = some (s,[]) := by
      rw [handler,ICMPPingResponder.simpleAction,if_neg hplain.silent,if_neg (by decide)]
      rfl
    rw [hnone] at hstep
    cases hstep
    exact ⟨⟨h,rfl⟩,fun x hx => absurd hx List.not_mem_nil⟩
  | gateway =>
    cases hstep
    refine ⟨⟨h,rfl⟩,wire_one (fun b hmem => ?_)⟩
    obtain ⟨m,hm,-,rfl⟩ := mem_keep hmem
    rw [List.mem_singleton.mp hm]
    exact ⟨⟨Packet.Valid.anno ha.1 _,ha.2⟩,show 4 < 6 by decide⟩
  | path e => exact path_off h ha hstep
  | error problem =>
    obtain ⟨message,-,hresult⟩ := Option.map_eq_some_iff.mp hstep
    cases message with
    | none =>
      obtain ⟨rfl,rfl⟩ := Prod.mk.inj hresult
      exact ⟨⟨h,rfl⟩,fun x hx => absurd hx List.not_mem_nil⟩
    | some q =>
      obtain ⟨rfl,rfl⟩ := Prod.mk.inj hresult
      refine ⟨⟨h,rfl⟩,fun x hx => ?_⟩
      rw [List.mem_singleton.mp hx]
      exact HostExit.noConfusion

theorem handler_ne_none (e : Element) (ha : Off c inside e a) (hinside : inside) : handler env addr draws e a s ≠ none := by
  cases e with
  | path e =>
    rw [handler,ne_eq,Option.map_eq_none_iff]
    exact Path.pushes_ne_none e ha.1 (ha.2 hinside)
  | advertisement =>
    rw [handler]
    split <;> exact Option.some_ne_none _
  | error problem =>
    rw [handler,ne_eq,Option.map_eq_none_iff]
    exact (ICMPError.simpleAction_silent_iff _ _ (ha hinside)).1
  | ip | adv | rt | ipc | regreq | responder | gateway => exact Option.some_ne_none _

end Quiet

section Messages
variable {env : Env} {draws : ℕ → Draw} {c : HostConfig} {s t : NodeRouter} {a : Annotated} {p q : Packet} {depth : ℕ}
  {inside : Prop}

def requests (out : List (HostExit × Annotated)) : List Packet :=
  out.filterMap (fun x => if x.1 = .registration then some x.2.packet else none)

end Messages

section Run
open EventRun

/-- A packet comes, with what the code does not decide; a timer of the registration elements fires. -/
inductive Happening
  | packet (env : Env) (draws : ℕ → Draw) (p : Packet)
  | handlerTimer (d : Draw)
  | sourceTimer
  | sourceTimer2 (d : Draw)

/-- A timer makes the elements of the registration send what they have. -/
def onNode (s : NodeRouter) (e : Event) : Option (NodeRouter × List (HostExit × Annotated)) :=
  (MobileNode.step s.node e).map (fun r =>
    ({ s with node := r.1 },r.2.map (fun m => (.registration,Annotated.fresh m.packet))))

def step (addr : IPAddress) (s : NodeRouter) : Happening → Option (NodeRouter × List (HostExit × Annotated))
  | .packet env draws p =>
    match receive env addr draws p s with
    | .done r => some r
    | .fault | .tooDeep => none
  | .handlerTimer d => s.onNode (.handlerTimer d)
  | .sourceTimer => s.onNode .sourceTimer
  | .sourceTimer2 d => s.onNode (.sourceTimer2 d)

variable {c : HostConfig} {s : NodeRouter}

/-- The advertisement of a foreign agent, a tick, and a packet without a header. -/
def visit : List Happening :=
  [.packet {} MobileNode.sampleDraws MobileNode.firstAdvertisement,.sourceTimer,.packet {} MobileNode.sampleDraws ⟨[],3⟩]

end Run

end ClickMobileIP.NodeRouter
