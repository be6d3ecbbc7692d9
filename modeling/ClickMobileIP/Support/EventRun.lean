import Mathlib.Data.List.Basic
import Mathlib.Tactic.Common

/-! # Runs of a machine over a list of events

One step takes a state and an event to a new state and some output, or faults.
The rules below turn facts about one step into facts about whole runs.
-/
namespace ClickMobileIP.EventRun
variable {σ τ ε ω : Type}

/-- Outputs are collected in the order of the steps; a fault ends the run. -/
def run (step : σ → ε → Option (σ × List ω)) : σ → List ε → Option (σ × List ω)
  | s, [] => some (s,[])
  | s, e :: es =>
    match step s e with
    | none => none
    | some (t,out) => (run step t es).map (fun r => (r.1,out ++ r.2))

section Rules
variable {step : σ → ε → Option (σ × List ω)}

@[simp] theorem run_nil (s : σ) : run step s [] = some (s,[]) := rfl

theorem run_cons_eq_some {s u : σ} {e : ε} {es : List ε} {out : List ω} :
    run step s (e :: es) = some (u,out) ↔
      ∃ t o o', step s e = some (t,o) ∧ run step t es = some (u,o') ∧ out = o ++ o' := by
  rw [run]
  cases h : step s e with
  | none => simp
  | some r =>
    obtain ⟨t,o⟩ := r
    simp only [Option.map_eq_some_iff,Prod.mk.injEq,Option.some.injEq]
    constructor
    · rintro ⟨⟨u',o'⟩,hr,rfl,rfl⟩
      exact ⟨t,o,o',⟨rfl,rfl⟩,hr,rfl⟩
    · rintro ⟨t',o₁,o',⟨rfl,rfl⟩,hr,rfl⟩
      exact ⟨(u,o'),hr,rfl,rfl⟩

theorem run_append_eq_some {s u : σ} {es fs : List ε} {out : List ω} :
    run step s (es ++ fs) = some (u,out) ↔
      ∃ t o o', run step s es = some (t,o) ∧ run step t fs = some (u,o') ∧ out = o ++ o' := by
  induction es generalizing s out with
  | nil => simp
  | cons e es ih =>
    simp only [List.cons_append,run_cons_eq_some,ih]
    constructor
    · rintro ⟨a,o₁,_,he,⟨t,o₂,o₃,hes,hfs,rfl⟩,rfl⟩
      exact ⟨t,o₁ ++ o₂,o₃,⟨a,o₁,o₂,he,hes,rfl⟩,hfs,by rw [List.append_assoc]⟩
    · rintro ⟨t,_,o₃,⟨a,o₁,o₂,he,hes,rfl⟩,hfs,rfl⟩
      exact ⟨a,o₁,o₂ ++ o₃,he,⟨t,o₂,o₃,hes,hfs,rfl⟩,by rw [List.append_assoc]⟩

theorem run_concat_eq_some {s u : σ} {es : List ε} {e : ε} {out : List ω} :
    run step s (es ++ [e]) = some (u,out) ↔
      ∃ t o o', run step s es = some (t,o) ∧ step t e = some (u,o') ∧ out = o ++ o' := by
  rw [run_append_eq_some]
  constructor
  · rintro ⟨t,o,o',hes,hlast,rfl⟩
    obtain ⟨_,o₁,o₂,hstep,hnil,rfl⟩ := run_cons_eq_some.mp hlast
    cases hnil
    exact ⟨t,o,o₁,hes,hstep,by rw [List.append_nil]⟩
  · rintro ⟨t,o,o',hes,hstep,rfl⟩
    exact ⟨t,o,o',hes,run_cons_eq_some.mpr ⟨u,o',[],hstep,rfl,by rw [List.append_nil]⟩,rfl⟩

/-- What one step preserves of the state and the output so far, every run preserves. -/
theorem run_invariant {P : σ → List ω → Prop}
    (hstep : ∀ s l e t out, P s l → step s e = some (t,out) → P t (l ++ out)) {s u : σ}
    {es : List ε} {l out : List ω} (hs : P s l) (hr : run step s es = some (u,out)) :
    P u (l ++ out) := by
  induction es generalizing s l out with
  | nil =>
    simp only [run_nil,Option.some.injEq,Prod.mk.injEq] at hr
    rw [← hr.1,← hr.2,List.append_nil]
    exact hs
  | cons e es ih =>
    obtain ⟨t,o,o',he,hes,rfl⟩ := run_cons_eq_some.mp hr
    rw [← List.append_assoc]
    exact ih (hstep s l e t o hs he) hes

theorem run_preserves {P : σ → Prop}
    (hstep : ∀ s e t out, P s → step s e = some (t,out) → P t) {s u : σ} {es : List ε}
    {out : List ω} (hs : P s) (hr : run step s es = some (u,out)) : P u :=
  run_invariant (P := fun s _ => P s) (l := []) (fun s _ e t out h he => hstep s e t out h he) hs hr

/-- The same for an invariant that speaks of the events of the run. -/
theorem run_preserves_mem {P : σ → Prop} {s u : σ} {es : List ε} {out : List ω}
    (hstep : ∀ e ∈ es, ∀ s t out, P s → step s e = some (t,out) → P t) (hs : P s)
    (hr : run step s es = some (u,out)) : P u := by
  induction es generalizing s out with
  | nil =>
    simp only [run_nil,Option.some.injEq,Prod.mk.injEq] at hr
    exact hr.1 ▸ hs
  | cons e es ih =>
    obtain ⟨t,o,o',he,hes,-⟩ := run_cons_eq_some.mp hr
    exact ih (fun e' h => hstep e' (List.mem_cons_of_mem _ h)) (hstep e List.mem_cons_self s t o hs he) hes

theorem run_total {P : σ → Prop}
    (hstep : ∀ s e, P s → ∃ t out, step s e = some (t,out) ∧ P t) {s : σ} (hs : P s)
    (es : List ε) : ∃ t out, run step s es = some (t,out) ∧ P t := by
  induction es generalizing s with
  | nil => exact ⟨s,[],rfl,hs⟩
  | cons e es ih =>
    obtain ⟨t,o,he,ht⟩ := hstep s e hs
    obtain ⟨u,o',hes,hu⟩ := ih ht
    exact ⟨u,o ++ o',run_cons_eq_some.mpr ⟨t,o,o',he,hes,rfl⟩,hu⟩

theorem run_defined (hstep : ∀ s e, ∃ t out, step s e = some (t,out)) (s : σ) (es : List ε) :
    ∃ t out, run step s es = some (t,out) := by
  have htotal : ∀ s e, True → ∃ t out, step s e = some (t,out) ∧ True := by
    intro s e _
    obtain ⟨t,out,h⟩ := hstep s e
    exact ⟨t,out,h,trivial⟩
  obtain ⟨t,out,hr,-⟩ := run_total htotal (s := s) trivial es
  exact ⟨t,out,hr⟩

end Rules
end ClickMobileIP.EventRun
