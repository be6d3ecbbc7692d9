import ClickMobileIP.Router.ICMPError
import ClickMobileIP.Support.PushGraph

/-! # The forwarding path of an interface

Every script puts the same four elements in front of a querier: options, source address,
time to live and fragmentation. Each of them but the second has an output for packets with
a problem, which is wired to an `ICMPError` of the interface. The path is a graph of its
own that the routers embed once for each interface.
-/
namespace ClickMobileIP
open PushGraph

/-- The reasons for which the scripts have an `ICMPError`. -/
inductive Problem
  | redirect
  | parameterproblem
  | timeexceeded
  | needfrag
  deriving DecidableEq, Repr

/-- The `ICMPError` of an interface for a problem, with the names of types and codes resolved. -/
def Problem.error (problem : Problem) (srcIp : IPAddress) : ICMPError :=
  match problem with
  | .redirect => { srcIp := srcIp, type := 5, code := 1 }
  | .parameterproblem => { srcIp := srcIp, type := 12 }
  | .timeexceeded => { srcIp := srcIp, type := 11 }
  | .needfrag => { srcIp := srcIp, type := 3, code := 4 }

/-- What a router asks memory for while it handles one packet: a message of a registration element, a packet
around another one, a copy of a packet, an error message, the `k`th fragment, an echo request. -/
inductive Allocation
  | answer
  | tunnel
  | clone
  | message (problem : Problem)
  | fragment (k : ℕ)
  | request
  deriving DecidableEq, Repr

/-- What the code does not decide: bytes of an uninitialised header, the time, a random number, and which
allocations succeed. -/
structure Env where
  uninit : UInt16 := 0
  ms : UInt32 := 0
  random : UInt16 := 0
  alloc : Allocation → Bool := fun _ => true

/-- Output `i` of an element is wired to the `i`th target; without one the packet is killed. -/
def wire {τ : Type} (targets : List τ) (pushes : Pushes) : List (τ × Annotated) :=
  pushes.filterMap (fun x => targets[x.1]?.map (fun target => (target,x.2)))

/-- The pushes of an element that knows of no annotation but the address. -/
def keep (a : Annotated) (sent : List Emission) : Pushes := sent.map (fun m => (m.port,a.withPacket m.packet))

inductive Path
  | ipgw
  | fix
  | ttl
  | frag
  deriving DecidableEq, Repr

namespace Path

inductive Exit
  | sent
  | problem (problem : Problem)
  deriving DecidableEq, Repr

/-- Where a step leads to in a graph that has the elements of the path and its exits somewhere. -/
def target {ε ω : Type} (element : Path → ε) (exit : Exit → ε ⊕ ω) : Path ⊕ Exit → ε ⊕ ω :=
  Sum.elim (fun e => .inl (element e)) exit

/-- `IPGWOptions -> FixIPSrc -> DecIPTTL -> IPFragmenter(1500)` for the address of an interface. -/
def pushes (env : Env) (addr : IPAddress) : Path → Annotated → Option (List ((Path ⊕ Exit) × Annotated))
  | .ipgw, a =>
    (IPGWOptions.simpleAction { preferredAddr := addr } env.ms a).map
      (wire [.inl .fix,.inr (.problem .parameterproblem)])
  | .fix, a => some [(.inl .ttl,FixIPSrc.simpleAction addr a)]
  | .ttl, a =>
    some (wire [.inl .frag,.inr (.problem .timeexceeded)] (keep a [DecIPTTL.simpleAction {} a.packet]))
  | .frag, a =>
    (IPFragmenter.push { mtu := 1500 } env.random a.packet (fun k => env.alloc (.fragment k))).map (fun sent =>
      wire [.inr .sent,.inr (.problem .needfrag)] (keep a sent))

end Path

section Wires
variable {τ : Type} {a b : Annotated} {R : τ × Annotated → Prop} {first second : τ} {sent : Pushes}

theorem wire_two (hfirst : ∀ b, (0,b) ∈ sent → R (first,b)) (hsecond : ∀ b, (1,b) ∈ sent → R (second,b)) :
    ∀ x ∈ wire [first,second] sent, R x := by
  intro x hx
  obtain ⟨⟨i,b⟩,hmem,hsome⟩ := List.mem_filterMap.mp hx
  obtain ⟨target,htarget,rfl⟩ := Option.map_eq_some_iff.mp hsome
  match i with
  | 0 =>
    cases htarget
    exact hfirst b hmem
  | 1 =>
    cases htarget
    exact hsecond b hmem
  | n + 2 => cases htarget

theorem wire_one (hfirst : ∀ b, (0,b) ∈ sent → R (first,b)) : ∀ x ∈ wire [first] sent, R x := by
  intro x hx
  obtain ⟨⟨i,b⟩,hmem,hsome⟩ := List.mem_filterMap.mp hx
  obtain ⟨target,htarget,rfl⟩ := Option.map_eq_some_iff.mp hsome
  match i with
  | 0 =>
    cases htarget
    exact hfirst b hmem
  | n + 1 => cases htarget

theorem mem_keep {sent : List Emission} {i : ℕ} (h : (i,b) ∈ keep a sent) :
    ∃ m ∈ sent, i = m.port ∧ b = a.withPacket m.packet := by
  obtain ⟨m,hm,heq⟩ := List.mem_map.mp h
  obtain ⟨rfl,rfl⟩ := Prod.mk.inj heq
  exact ⟨m,hm,rfl,rfl⟩

end Wires

namespace Path
variable {env : Env} {addr : IPAddress} {a b : Annotated} {xs : List ((Path ⊕ Exit) × Annotated)}

/-- Nothing to object to from here on: options, time to live and length, as far as they still count. -/
def Smooth : Path → Annotated → Prop
  | .ipgw, a => ICMPError.Inert a.packet ∧ 1 < a.packet.ip.ipTtl ∧ a.packet.length ≤ 1500
  | .fix, a | .ttl, a => 1 < a.packet.ip.ipTtl ∧ a.packet.length ≤ 1500
  | .frag, a => a.packet.length ≤ 1500

def left : Path → ℕ
  | .ipgw => 4
  | .fix => 3
  | .ttl => 2
  | .frag => 1

theorem left_pos (e : Path) : 0 < e.left := by cases e <;> decide

noncomputable instance (e : Path) (a : Annotated) : Decidable (Smooth e a) := Classical.propDecidable _

/-- What a step of a valid packet leads to: a valid packet further down the path, with nothing to
object to if there was nothing before; a valid packet that fits; or a packet with a problem, if
there was something to object to. -/
def Leads (e : Path) (a : Annotated) : (Path ⊕ Exit) × Annotated → Prop
  | (.inl e',b) => (b.packet.Valid ∧ left e' < left e ∧ (Smooth e a → Smooth e' b)) ∧
      (a.packet.OptionsInside → b.packet.OptionsInside)
  | (.inr .sent,b) => b.packet.Valid ∧ b.packet.length ≤ 1500
  | (.inr (.problem _),b) => (b.packet.headerLength ≤ b.packet.length ∧ ¬Smooth e a) ∧
      (a.packet.OptionsInside → b.packet.OptionsInside)

theorem optionsInside_of_same {p q : Packet} (hheader : q.headerLength = p.headerLength) (hlength : q.length = p.length) :
    p.OptionsInside → q.OptionsInside := by
  rw [Packet.OptionsInside,Packet.OptionsInside,hheader,hlength]
  exact id

theorem ipgw_leads (ha : a.packet.Valid) (h : pushes env addr .ipgw a = some xs) : ∀ x ∈ xs, Leads .ipgw a x := by
  obtain ⟨sent,hsent,rfl⟩ := Option.map_eq_some_iff.mp h
  by_cases hsmooth : Smooth .ipgw a
  · obtain rfl := Option.some.inj ((hsmooth.1 { preferredAddr := addr } env.ms a rfl).symm.trans hsent)
    refine wire_two (fun b hmem => ?_) (fun b hmem => ?_)
    · rw [(Prod.mk.inj (List.mem_singleton.mp hmem)).2]
      exact ⟨⟨ha,by decide,fun _ => hsmooth.2⟩,id⟩
    · cases (Prod.mk.inj (List.mem_singleton.mp hmem)).1
  · rcases IPGWOptions.simpleAction_processed { preferredAddr := addr } env.ms ha with
      ⟨q,hq,hprocessed⟩ | ⟨q,k,hq,-,-,hip,hlength⟩ | ⟨hq,-⟩
    · obtain rfl := Option.some.inj (hq.symm.trans hsent)
      have hheader : q.headerLength = a.packet.headerLength := by
        rw [Packet.headerLength,hprocessed.ip]
        rfl
      refine wire_two (fun b hmem => ?_) (fun b hmem => ?_)
      · rw [(Prod.mk.inj (List.mem_singleton.mp hmem)).2]
        exact ⟨⟨hprocessed.valid,by decide,fun h => absurd h hsmooth⟩,optionsInside_of_same hheader hprocessed.length⟩
      · cases (Prod.mk.inj (List.mem_singleton.mp hmem)).1
    · obtain rfl := Option.some.inj (hq.symm.trans hsent)
      have hheader : q.headerLength = a.packet.headerLength := by rw [Packet.headerLength,hip,Packet.headerLength]
      refine wire_two (fun b hmem => ?_) (fun b hmem => ?_)
      · cases (Prod.mk.inj (List.mem_singleton.mp hmem)).1
      · rw [(Prod.mk.inj (List.mem_singleton.mp hmem)).2]
        refine ⟨⟨?_,hsmooth⟩,optionsInside_of_same hheader hlength⟩
        change q.headerLength ≤ q.length
        rw [hheader,hlength]
        exact ha.room
    · rw [hq] at hsent
      cases hsent

theorem fix_leads (ha : a.packet.Valid) (h : pushes env addr .fix a = some xs) : ∀ x ∈ xs, Leads .fix a x := by
  cases h
  obtain ⟨hvalid,httl,hlength,hheader⟩ := FixIPSrc.simpleAction_spec addr ha
  intro x hx
  rw [List.mem_singleton.mp hx]
  refine ⟨⟨hvalid,by decide,fun hsmooth => ?_⟩,optionsInside_of_same hheader hlength⟩
  change 1 < _ ∧ _ ≤ 1500
  rw [httl,hlength]
  exact hsmooth

theorem ttl_leads (ha : a.packet.Valid) (h : pushes env addr .ttl a = some xs) : ∀ x ∈ xs, Leads .ttl a x := by
  cases h
  have hplain := (DecIPTTL.simpleAction_eq_plain ha.headed ha.verifies).1
  by_cases httl : a.packet.ip.ipTtl ≤ 1
  · rw [if_pos httl] at hplain
    rw [hplain]
    refine wire_two (fun b hmem => ?_) (fun b hmem => ?_)
    · cases (Prod.mk.inj (List.mem_singleton.mp hmem)).1
    · rw [(Prod.mk.inj (List.mem_singleton.mp hmem)).2]
      exact ⟨⟨ha.room,fun hsmooth => absurd httl (UInt8.not_le.mpr hsmooth.1)⟩,id⟩
  · rw [if_neg httl] at hplain
    rw [hplain]
    obtain ⟨hvalid,hlength⟩ := DecIPTTL.plain_valid ha
    refine wire_two (fun b hmem => ?_) (fun b hmem => ?_)
    · rw [(Prod.mk.inj (List.mem_singleton.mp hmem)).2]
      refine ⟨⟨hvalid,by decide,fun hsmooth => ?_⟩,optionsInside_of_same (DecIPTTL.headerLength_plain a.packet) hlength⟩
      change (DecIPTTL.plain a.packet).length ≤ 1500
      rw [hlength]
      exact hsmooth.2
    · cases (Prod.mk.inj (List.mem_singleton.mp hmem)).1

theorem payload_room (p : Packet) : 8 ≤ IPFragmenter.dlen { mtu := 1500 } p.headerLength := by
  have hle := p.headerLength_le
  change 8 ≤ (1500 - p.headerLength) / 8 * 8
  omega

theorem pushes_ne_none (e : Path) (ha : a.packet.Valid) (hinside : a.packet.OptionsInside) :
    pushes env addr e a ≠ none := by
  cases e with
  | ipgw =>
    rw [pushes,ne_eq,Option.map_eq_none_iff]
    rcases IPGWOptions.simpleAction_processed { preferredAddr := addr } env.ms ha with
      ⟨q,hq,-⟩ | ⟨q,k,hq,-⟩ | ⟨-,hcut⟩
    · rw [hq]
      exact Option.some_ne_none _
    · rw [hq]
      exact Option.some_ne_none _
    · exact absurd hinside hcut
  | frag =>
    rw [pushes,ne_eq,Option.map_eq_none_iff]
    rcases IPFragmenter.push_valid ha (payload_room a.packet) env.random (fun k => env.alloc (.fragment k)) with
      ⟨packets,hpush,-⟩ | ⟨hpush,-⟩
    · rw [hpush]
      exact Option.some_ne_none _
    · rw [hpush]
      exact Option.some_ne_none _
  | fix | ttl => exact Option.some_ne_none _

theorem frag_leads (ha : a.packet.Valid) (h : pushes env addr .frag a = some xs) : ∀ x ∈ xs, Leads .frag a x := by
  obtain ⟨sent,hsent,rfl⟩ := Option.map_eq_some_iff.mp h
  rcases IPFragmenter.push_valid ha (payload_room a.packet) env.random (fun k => env.alloc (.fragment k)) with
    ⟨packets,hpush,hvalid⟩ | ⟨hpush,hlong⟩
  · obtain rfl := Option.some.inj (hpush.symm.trans hsent)
    refine wire_two (fun b hmem => ?_) (fun b hmem => ?_)
    · obtain ⟨m,hm,-,rfl⟩ := mem_keep hmem
      obtain ⟨q,hq,rfl⟩ := List.mem_map.mp hm
      exact hvalid q hq
    · obtain ⟨m,hm,hport,-⟩ := mem_keep hmem
      obtain ⟨q,-,rfl⟩ := List.mem_map.mp hm
      cases hport
  · obtain rfl := Option.some.inj (hpush.symm.trans hsent)
    refine wire_two (fun b hmem => ?_) (fun b hmem => ?_)
    · cases (Prod.mk.inj (List.mem_singleton.mp hmem)).1
    · rw [(Prod.mk.inj (List.mem_singleton.mp hmem)).2]
      exact ⟨⟨ha.room,Nat.not_le.mpr hlong⟩,id⟩

theorem pushes_leads (e : Path) (ha : a.packet.Valid) (h : pushes env addr e a = some xs) : ∀ x ∈ xs, Leads e a x := by
  cases e with
  | ipgw => exact ipgw_leads ha h
  | fix => exact fix_leads ha h
  | ttl => exact ttl_leads ha h
  | frag => exact frag_leads ha h

theorem inert_of_plain {p : Packet} (h : p.headerLength ≤ 20) : ICMPError.Inert p := by
  intro g ms a ha
  have hsame : a.packet.headerLength = p.headerLength := by
    rw [Packet.headerLength,Packet.ip,ha,← Packet.ip,← Packet.headerLength]
  rw [IPGWOptions.simpleAction,hsame,if_pos h]

/-- Nothing to object to on a forwarding path. -/
structure Ordinary (p : Packet) : Prop where
  inert : ICMPError.Inert p
  ttl : 1 < p.ip.ipTtl
  short : p.length ≤ 1500

theorem Ordinary.anno {p : Packet} (h : Ordinary p) (gw : IPAddress) : Ordinary { p with dstIpAnno := gw } :=
  ⟨h.inert,h.ttl,h.short⟩

theorem Ordinary.smooth (h : Ordinary a.packet) : Smooth .ipgw a := ⟨h.inert,h.ttl,h.short⟩

def hop (addr : IPAddress) (a : Annotated) : Annotated :=
  (FixIPSrc.simpleAction addr a).withPacket (DecIPTTL.plain (FixIPSrc.simpleAction addr a).packet)

structure Embeds {ε ω σ : Type} (handler : Handler ε ω Annotated σ) (env : Env) (addr : IPAddress) (element : Path → ε)
    (exit : Exit → ε ⊕ ω) (s : σ) : Prop where
  steps : ∀ e a, handler (element e) a s = (pushes env addr e a).map (fun xs =>
    (s,xs.map (fun x => (target element exit x.1,x.2))))

section Embedded
variable {ε ω σ : Type} {handler : Handler ε ω Annotated σ} {element : Path → ε} {exit : Exit → ε ⊕ ω} {s : σ}
  {e e' : Path} {depth : ℕ}

theorem Embeds.push_next (h : Embeds handler env addr element exit s) (hstep : pushes env addr e a = some [(.inl e',b)]) :
    push handler (depth + 1) (element e) a s = push handler depth (element e') b s := by
  refine PushGraph.push_next ?_
  rw [h.steps,hstep]
  rfl

theorem Embeds.push_out (h : Embeds handler env addr element exit s) {o : ω} (hexit : exit .sent = .inr o)
    (hstep : pushes env addr e a = some [(.inr .sent,b)]) :
    push handler (depth + 1) (element e) a s = .done (s,[(o,b)]) := by
  refine PushGraph.push_out ?_
  rw [h.steps,hstep,Option.map_some,List.map_singleton]
  dsimp only [target,Sum.elim_inr]
  rw [hexit]

/-- A whole run along the path: one packet leaves, with its time to live decremented. -/
theorem Embeds.push_smooth (h : Embeds handler env addr element exit s) {o : ω} (hexit : exit .sent = .inr o)
    (ha : a.packet.Valid) (hsmooth : Smooth .ipgw a) :
    push handler (depth + 4) (element .ipgw) a s = .done (s,[(o,hop addr a)]) := by
  obtain ⟨hvalid,httl,hlength,-⟩ := FixIPSrc.simpleAction_spec addr ha
  have hgw : pushes env addr .ipgw a = some [(.inl .fix,a)] := by
    rw [pushes,hsmooth.1 _ _ a rfl]
    rfl
  have hdec : pushes env addr .ttl (FixIPSrc.simpleAction addr a) = some [(.inl .frag,hop addr a)] := by
    have hlarge : ¬(FixIPSrc.simpleAction addr a).packet.ip.ipTtl ≤ 1 := by
      rw [httl]
      exact UInt8.not_le.mpr hsmooth.2.1
    rw [pushes,(DecIPTTL.simpleAction_eq_plain hvalid.headed hvalid.verifies).1,if_neg hlarge]
    rfl
  have hshort : (hop addr a).packet.length ≤ 1500 := by
    change (DecIPTTL.plain (FixIPSrc.simpleAction addr a).packet).length ≤ 1500
    rw [(DecIPTTL.plain_valid hvalid).2,hlength]
    exact hsmooth.2.2
  have hfrag : pushes env addr .frag (hop addr a) = some [(.inr .sent,hop addr a)] := by
    rw [pushes,IPFragmenter.push,if_pos hshort]
    rfl
  have hfix : pushes env addr .fix a = some [(.inl .ttl,FixIPSrc.simpleAction addr a)] := rfl
  rw [h.push_next hgw,h.push_next hfix,h.push_next hdec,h.push_out hexit hfrag]

end Embedded

end Path

end ClickMobileIP
