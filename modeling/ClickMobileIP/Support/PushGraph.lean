import Mathlib.Data.List.Basic
import Mathlib.Tactic.Common

/-! # Push graphs

Elements of a graph hand packets to each other by nested calls: an element that pushes
several packets has the first one processed to its end before it pushes the second. The
graph may have cycles, so a bound on the depth of the calls is part of the run. The rules
give a bound on the depth for graphs whose cycles a packet cannot go round for ever, and
unfold runs along which every element pushes one packet.
-/
namespace ClickMobileIP.PushGraph
variable {ε ω α σ β : Type}

inductive Outcome (β : Type)
  | done (b : β)
  | fault
  | tooDeep
  deriving DecidableEq, Repr

/-- What an element does: the state it leaves behind and its pushes, to elements or out of the
graph, in order. -/
abbrev Handler (ε ω α σ : Type) := ε → α → σ → Option (σ × List ((ε ⊕ ω) × α))

/-- What is done first comes first; a fault ends the run. -/
def Outcome.append (first : Outcome (σ × List (ω × α))) (next : σ → Outcome (σ × List (ω × α))) :
    Outcome (σ × List (ω × α)) :=
  match first with
  | .done (s,out) =>
    match next s with
    | .done (t,out') => .done (t,out ++ out')
    | .fault => .fault
    | .tooDeep => .tooDeep
  | .fault => .fault
  | .tooDeep => .tooDeep

/-- Process the pushes of an element one after the other. -/
def pushAll (f : ε → α → σ → Outcome (σ × List (ω × α))) : List ((ε ⊕ ω) × α) → σ → Outcome (σ × List (ω × α))
  | [], s => .done (s,[])
  | (.inl e,a) :: rest, s => (f e a s).append (pushAll f rest)
  | (.inr o,a) :: rest, s => (Outcome.done (s,[(o,a)])).append (pushAll f rest)

/-- At most `depth` calls are nested. -/
def push (handler : Handler ε ω α σ) : ℕ → ε → α → σ → Outcome (σ × List (ω × α))
  | 0, _, _, _ => .tooDeep
  | depth + 1, e, a, s =>
    match handler e a s with
    | none => .fault
    | some (t,pushes) => pushAll (push handler depth) pushes t

/-- A run that is not cut short: it has a result that satisfies `R`, or it faults and `F` says why. -/
def Outcome.Ends (F : Prop) (R : β → Prop) : Outcome β → Prop
  | .done b => R b
  | .fault => F
  | .tooDeep => False

theorem Outcome.Ends.mono {F F' : Prop} {R R' : β → Prop} {r : Outcome β} (h : r.Ends F R) (hF : F → F')
    (hR : ∀ b, R b → R' b) : r.Ends F' R' := by
  cases r with
  | done b => exact hR b h
  | fault => exact hF h
  | tooDeep => exact h

section Rules
variable {handler : Handler ε ω α σ} {I : σ → Prop} {P : ε → α → Prop} {Q : ω → α → Prop} {rank : ε → α → ℕ}
  {F : Prop}

def Result (I : σ → Prop) (Q : ω → α → Prop) (r : σ × List (ω × α)) : Prop := I r.1 ∧ ∀ x ∈ r.2, Q x.1 x.2

theorem append_ends {first : Outcome (σ × List (ω × α))} {next : σ → Outcome (σ × List (ω × α))}
    (hfirst : first.Ends F (Result I Q)) (hnext : ∀ s, I s → (next s).Ends F (Result I Q)) :
    (first.append next).Ends F (Result I Q) := by
  match first, hfirst with
  | .fault, hfault => exact hfault
  | .done (s,out), hdone =>
    have hrest := hnext s hdone.1
    unfold Outcome.append
    dsimp only
    cases hr : next s with
    | fault =>
      rw [hr] at hrest
      exact hrest
    | tooDeep =>
      rw [hr] at hrest
      exact hrest
    | done b =>
      rw [hr] at hrest
      obtain ⟨t,out'⟩ := b
      refine ⟨hrest.1,fun x hx => ?_⟩
      rcases List.mem_append.mp hx with hx | hx
      · exact hdone.2 x hx
      · exact hrest.2 x hx

def Leads (P : ε → α → Prop) (Q : ω → α → Prop) (rank : ε → α → ℕ) (n : ℕ) : (ε ⊕ ω) × α → Prop
  | (.inl e,a) => P e a ∧ rank e a < n
  | (.inr o,a) => Q o a

/-- If every element keeps the invariant of the state and hands packets only to elements of lower
rank, then the rank bounds the depth of the calls and what is known of the packets where they leave
holds of all of them. A run faults only where an element does. -/
theorem push_ends (hfault : ∀ e a s, I s → P e a → handler e a s = none → F)
    (hstep : ∀ e a s t pushes, I s → P e a → handler e a s = some (t,pushes) →
      I t ∧ ∀ x ∈ pushes, Leads P Q rank (rank e a) x)
    {depth : ℕ} {e : ε} {a : α} {s : σ} (hs : I s) (ha : P e a) (hrank : rank e a < depth) :
    (push handler depth e a s).Ends F (Result I Q) := by
  induction depth generalizing e a s with
  | zero => exact absurd hrank (Nat.not_lt_zero _)
  | succ depth ih =>
    rw [push]
    cases hh : handler e a s with
    | none => exact hfault e a s hs ha hh
    | some r =>
      obtain ⟨t,pushes⟩ := r
      obtain ⟨ht,hpushes⟩ := hstep e a s t pushes hs ha hh
      dsimp only
      clear hh
      induction pushes generalizing t with
      | nil => exact ⟨ht,fun x hx => absurd hx List.not_mem_nil⟩
      | cons x rest ihrest =>
        have hx := hpushes x List.mem_cons_self
        have hrest : ∀ u, I u → (pushAll (push handler depth) rest u).Ends F (Result I Q) :=
          fun u hu => ihrest u hu (fun y hy => hpushes y (List.mem_cons_of_mem _ hy))
        match x, hx with
        | (.inl e',b), hx =>
          rw [pushAll]
          exact append_ends (ih ht hx.1 (by have := hx.2; omega)) hrest
        | (.inr o,b), hx =>
          rw [pushAll]
          refine append_ends ⟨ht,fun y hy => ?_⟩ hrest
          rw [List.mem_singleton.mp hy]
          exact hx

end Rules

section Chains
variable {handler : Handler ε ω α σ} {depth : ℕ} {e e' : ε} {a b : α} {s t : σ} {o : ω}

theorem append_nil (r : Outcome (σ × List (ω × α))) : r.append (fun s => .done (s,[])) = r := by
  match r with
  | .done (s,out) => simp [Outcome.append]
  | .fault => rfl
  | .tooDeep => rfl

theorem push_next (h : handler e a s = some (t,[(.inl e',b)])) :
    push handler (depth + 1) e a s = push handler depth e' b t := by
  rw [push,h]
  exact append_nil _

theorem push_out (h : handler e a s = some (t,[(.inr o,b)])) :
    push handler (depth + 1) e a s = .done (t,[(o,b)]) := by
  rw [push,h]
  exact append_nil _

theorem pushAll_outs {f : ε → α → σ → Outcome (σ × List (ω × α))} (outs : List (ω × α)) (s : σ) :
    pushAll f (outs.map (fun x => (.inr x.1,x.2))) s = .done (s,outs) := by
  induction outs with
  | nil => rfl
  | cons x outs ih =>
    change (Outcome.done (s,[(x.1,x.2)])).append (pushAll f (outs.map (fun x => (.inr x.1,x.2)))) = _
    simp only [Outcome.append,ih]
    rfl

theorem push_outs {outs : List (ω × α)} (h : handler e a s = some (t,outs.map (fun x => (.inr x.1,x.2)))) :
    push handler (depth + 1) e a s = .done (t,outs) := by
  rw [push,h]
  exact pushAll_outs outs t

theorem push_fault (h : handler e a s = none) : push handler (depth + 1) e a s = .fault := by
  rw [push,h]

theorem push_nothing (h : handler e a s = some (t,[])) : push handler (depth + 1) e a s = .done (t,[]) := by
  rw [push,h]
  rfl

end Chains

end ClickMobileIP.PushGraph
