import Mathlib.Data.List.Basic
import Mathlib.Tactic.Common

/-! # Marks beside the elements of a list

An element is followed through list operations by a mark that stands beside it and
that the operations do not look at.
-/
namespace ClickMobileIP.Marked
variable {α β : Type}

def chosen (m : List (Bool × α)) : List α := (m.filter Prod.fst).map Prod.snd

@[simp] theorem chosen_nil : chosen ([] : List (Bool × α)) = [] := rfl

@[simp] theorem chosen_append (l m : List (Bool × α)) : chosen (l ++ m) = chosen l ++ chosen m := by
  simp [chosen]

@[simp] theorem chosen_reverse (m : List (Bool × α)) : chosen m.reverse = (chosen m).reverse := by
  simp [chosen]

@[simp] theorem chosen_const (b : Bool) (l : List α) :
    chosen (l.map (fun a => (b,a))) = if b then l else [] := by
  cases b <;> simp [chosen,List.filter_map,Function.comp_def]

theorem chosen_cons (b : Bool) (a : α) (m : List (Bool × α)) :
    chosen ((b,a) :: m) = (if b then [a] else []) ++ chosen m := by
  cases b <;> rfl

theorem chosen_filterMap (f : α → Option β) (m : List (Bool × α)) :
    chosen (m.filterMap (fun x => (f x.2).map (fun b => (x.1,b)))) = (chosen m).filterMap f := by
  induction m with
  | nil => rfl
  | cons x m ih =>
    obtain ⟨b,a⟩ := x
    cases hf : f a with
    | none => cases b <;> simp [chosen_cons,hf,ih]
    | some c => cases b <;> simp [chosen_cons,hf,ih]

theorem chosen_flatMap (g : α → List β) (m : List (Bool × α)) :
    chosen (m.flatMap (fun x => (g x.2).map (fun b => (x.1,b)))) = (chosen m).flatMap g := by
  induction m with
  | nil => rfl
  | cons x m ih =>
    obtain ⟨b,a⟩ := x
    cases b <;> simp [chosen_cons,ih]

theorem chosen_eraseP {q : α → Bool} {m : List (Bool × α)} (h : ∀ a ∈ chosen m, q a = false) :
    chosen (m.eraseP (fun x => q x.2)) = chosen m := by
  induction m with
  | nil => rfl
  | cons x m ih =>
    obtain ⟨b,a⟩ := x
    rw [chosen_cons] at h
    have hm := ih (fun c hc => h c (List.mem_append_right _ hc))
    cases hq : q a with
    | false => rw [List.eraseP_cons_of_neg (by simp [hq]),chosen_cons,chosen_cons,hm]
    | true =>
      cases b with
      | false =>
        have herase : ((false,a) :: m).eraseP (fun x => q x.2) = m := List.eraseP_cons_of_pos (by simpa using hq)
        rw [herase]
        rfl
      | true => exact absurd (h a (by simp)) (by simp [hq])

end ClickMobileIP.Marked
