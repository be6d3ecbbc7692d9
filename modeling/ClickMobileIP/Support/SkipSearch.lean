import Mathlib.Data.List.Basic
import Mathlib.Tactic.Common

/-! # Linear search with skip pointers

A table is searched for the finest of the entries that hit. The search stops at the first hit
and goes on from the place its skip pointer names, where no finer entry lies in between. The
entries stand for themselves only through their indices: `hit i`, `finer j i` (`j` is at least
as fine as `i`) and `skip i`.
-/
namespace ClickMobileIP.SkipSearch

section Search
variable (hit : ℕ → Bool) (finer : ℕ → ℕ → Bool)

/-- One pass over `js`, starting from `found`. -/
def refine (found : ℕ) (js : List ℕ) : ℕ :=
  js.foldl (fun found j => if hit j = true ∧ finer j found = true then j else found) found

def search (skip : ℕ → ℕ) (n : ℕ) : Option ℕ :=
  match (List.range n).find? hit with
  | none => none
  | some i => some (refine hit finer i (List.range' (skip i) (n - skip i)))

structure IsFinest (n b : ℕ) : Prop where
  inside : b < n
  hits : hit b = true
  finest : ∀ j < n, hit j = true → finer b j = true

end Search

section Correct
variable {hit : ℕ → Bool} {finer : ℕ → ℕ → Bool} {skip : ℕ → ℕ} {n : ℕ}

/-- The hits of a table are linearly ordered, and what a skip pointer jumps over is not finer. -/
structure Ordered (hit : ℕ → Bool) (finer : ℕ → ℕ → Bool) (skip : ℕ → ℕ) (n : ℕ) : Prop where
  total : ∀ i < n, ∀ j < n, hit i = true → hit j = true → finer i j = true ∨ finer j i = true
  trans : ∀ i j k, finer i j = true → finer j k = true → finer i k = true
  antisymm : ∀ i < n, ∀ j < n, hit i = true → hit j = true → finer i j = true → finer j i = true → i = j
  skipped : ∀ i < n, ∀ j < n, hit i = true → hit j = true → i < j → j < skip i → finer j i = false

/-- The pass ends at a hit that is as fine as the start and as everything passed. -/
theorem refine_spec (h : Ordered hit finer skip n) (js : List ℕ) (hjs : ∀ j ∈ js, j < n) {found : ℕ}
    (hfound : found < n) (hhit : hit found = true) :
    refine hit finer found js < n ∧ hit (refine hit finer found js) = true ∧
      finer (refine hit finer found js) found = true ∧
      ∀ j ∈ js, hit j = true → finer (refine hit finer found js) j = true := by
  induction js generalizing found with
  | nil =>
    have hself : finer found found = true := (h.total found hfound found hfound hhit hhit).elim id id
    exact ⟨hfound,hhit,hself,fun j hj => absurd hj List.not_mem_nil⟩
  | cons j js ih =>
    have hj : j < n := hjs j List.mem_cons_self
    have hrest : ∀ k ∈ js, k < n := fun k hk => hjs k (List.mem_cons_of_mem _ hk)
    by_cases hstep : hit j = true ∧ finer j found = true
    · have hunfold : refine hit finer found (j :: js) = refine hit finer j js := by
        simp only [refine,List.foldl_cons,hstep,and_self,↓reduceIte]
      obtain ⟨hlt,hhit',hfine,hall⟩ := ih hrest hj hstep.1
      rw [hunfold]
      refine ⟨hlt,hhit',h.trans _ _ _ hfine hstep.2,fun k hk hkhit => ?_⟩
      rcases List.mem_cons.mp hk with rfl | hk
      · exact hfine
      · exact hall k hk hkhit
    · have hunfold : refine hit finer found (j :: js) = refine hit finer found js := by
        simp only [refine,List.foldl_cons,hstep,↓reduceIte]
      obtain ⟨hlt,hhit',hfine,hall⟩ := ih hrest hfound hhit
      rw [hunfold]
      refine ⟨hlt,hhit',hfine,fun k hk hkhit => ?_⟩
      rcases List.mem_cons.mp hk with rfl | hk
      · have hless : finer found k = true :=
          (h.total found hfound k hj hhit hkhit).resolve_right (fun hf => hstep ⟨hkhit,hf⟩)
        exact h.trans _ _ _ hfine hless
      · exact hall k hk hkhit

theorem search_isFinest (h : Ordered hit finer skip n) {b : ℕ} (hb : search hit finer skip n = some b) :
    IsFinest hit finer n b := by
  unfold search at hb
  cases hfind : (List.range n).find? hit with
  | none =>
    rw [hfind] at hb
    cases hb
  | some i =>
    rw [hfind] at hb
    cases hb
    obtain ⟨hihit,hbefore⟩ := List.find?_range_eq_some.mp hfind
    have hi : i < n := List.mem_range.mp hbefore.1
    have hjs : ∀ j ∈ List.range' (skip i) (n - skip i), j < n := by
      intro j hj
      have := List.mem_range'_1.mp hj
      omega
    obtain ⟨hlt,hhit,hfine,hall⟩ := refine_spec h _ hjs hi hihit
    refine ⟨hlt,hhit,fun j hj hjhit => ?_⟩
    -- a hit is the first one, lies behind the skip pointer, or is not finer than the first one
    have hfirst : ¬j < i := by
      intro hlt
      have hno := hbefore.2 j hlt
      simp [hjhit] at hno
    by_cases hjump : skip i ≤ j
    · exact hall j (List.mem_range'_1.mpr ⟨hjump,by omega⟩) hjhit
    · have hcoarse : finer i j = true := by
        rcases Nat.eq_or_lt_of_le (Nat.not_lt.mp hfirst) with rfl | hij
        · exact (h.total i hi i hi hihit hihit).elim id id
        · have hnot := h.skipped i hi j hj hihit hjhit hij (by omega)
          exact (h.total i hi j hj hihit hjhit).resolve_right (by simp [hnot])
      exact h.trans _ _ _ hfine hcoarse

theorem search_eq_none : search hit finer skip n = none ↔ ∀ j < n, hit j = false := by
  unfold search
  cases hfind : (List.range n).find? hit with
  | none =>
    simp only [true_iff]
    intro j hj
    have hno := List.find?_eq_none.mp hfind j (List.mem_range.mpr hj)
    exact Bool.eq_false_iff.mpr hno
  | some i =>
    obtain ⟨hihit,hbefore⟩ := List.find?_range_eq_some.mp hfind
    simp only [reduceCtorEq,false_iff]
    intro hall
    have hno := hall i (List.mem_range.mp hbefore.1)
    rw [hno] at hihit
    cases hihit

end Correct
end ClickMobileIP.SkipSearch
