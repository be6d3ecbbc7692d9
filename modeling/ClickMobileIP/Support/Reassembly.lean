import Mathlib.Data.List.Basic
import Mathlib.Tactic.Common

/-! # Putting a sequence together from its pieces

A piece of a sequence is a place in it and the entries found from there on. Pieces that are
copied into a buffer of the right length leave the sequence behind as soon as every index is
covered, in whatever order they come and however often one comes again.
-/
namespace ClickMobileIP.Reassembly
variable {α : Type}

def overwrite (buf : List α) (piece : ℕ × List α) : List α :=
  buf.take piece.1 ++ (piece.2 ++ buf.drop (piece.1 + piece.2.length))

/-- The piece lies inside `xs` and agrees with it. -/
structure IsPiece (xs : List α) (piece : ℕ × List α) : Prop where
  inside : piece.1 + piece.2.length ≤ xs.length
  agrees : ∀ i < piece.2.length, piece.2[i]? = xs[piece.1 + i]?

def Covers (piece : ℕ × List α) (i : ℕ) : Prop := piece.1 ≤ i ∧ i < piece.1 + piece.2.length

section Overwrite
variable {xs buf : List α} {piece : ℕ × List α}

theorem length_overwrite (h : piece.1 + piece.2.length ≤ buf.length) :
    (overwrite buf piece).length = buf.length := by
  simp only [overwrite,List.length_append,List.length_take,List.length_drop]
  omega

theorem getElem?_overwrite_of_not_covers (h : piece.1 + piece.2.length ≤ buf.length) {i : ℕ}
    (hi : ¬Covers piece i) : (overwrite buf piece)[i]? = buf[i]? := by
  have htake : (buf.take piece.1).length = piece.1 := by
    rw [List.length_take]
    omega
  unfold Covers at hi
  by_cases hlow : i < piece.1
  · rw [overwrite,List.getElem?_append_left (by omega),List.getElem?_take_of_lt hlow]
  · rw [overwrite,List.getElem?_append_right (by omega),htake,List.getElem?_append_right (by omega),
      List.getElem?_drop]
    congr 1
    omega

theorem getElem?_overwrite_of_covers (hp : IsPiece xs piece) (hbuf : buf.length = xs.length) {i : ℕ}
    (hi : Covers piece i) : (overwrite buf piece)[i]? = xs[i]? := by
  have hinside := hp.inside
  have htake : (buf.take piece.1).length = piece.1 := by
    rw [List.length_take]
    omega
  obtain ⟨hlow,hhigh⟩ := hi
  rw [overwrite,List.getElem?_append_right (by omega),htake,List.getElem?_append_left (by omega),
    hp.agrees _ (by omega)]
  congr 1
  omega

end Overwrite

/-- Two sequences of one length that differ at most from `lo` on and before `hi`. -/
structure SameOutside (lo hi : ℕ) (xs ys : List α) : Prop where
  length : ys.length = xs.length
  outside : ∀ i, i < lo ∨ hi ≤ i → ys[i]? = xs[i]?

namespace SameOutside
variable {lo hi : ℕ} {xs ys zs : List α}

theorem refl (lo hi : ℕ) (xs : List α) : SameOutside lo hi xs xs := ⟨rfl,fun _ _ => rfl⟩

theorem trans (h : SameOutside lo hi xs ys) (h' : SameOutside lo hi ys zs) : SameOutside lo hi xs zs :=
  ⟨h'.length.trans h.length,fun i hi => (h'.outside i hi).trans (h.outside i hi)⟩

theorem mono {lo' hi' : ℕ} (h : SameOutside lo hi xs ys) (hlo : lo' ≤ lo) (hhi : hi ≤ hi') :
    SameOutside lo' hi' xs ys := by
  refine ⟨h.length,fun i hi => h.outside i ?_⟩
  omega

theorem overwrite {piece : ℕ × List α} (hlo : lo ≤ piece.1) (hhi : piece.1 + piece.2.length ≤ hi)
    (hroom : piece.1 + piece.2.length ≤ xs.length) : SameOutside lo hi xs (overwrite xs piece) := by
  refine ⟨length_overwrite hroom,fun i hi => getElem?_overwrite_of_not_covers hroom ?_⟩
  unfold Covers
  omega

theorem set {i : ℕ} {x : α} (hlo : lo ≤ i) (hhi : i < hi) : SameOutside lo hi xs (xs.set i x) := by
  refine ⟨List.length_set,fun j hj => ?_⟩
  rw [List.getElem?_set_ne (by omega)]

theorem take {n : ℕ} (h : SameOutside lo hi xs ys) (hn : n ≤ lo) : ys.take n = xs.take n := by
  apply List.ext_getElem?
  intro i
  by_cases hi : i < n
  · rw [List.getElem?_take_of_lt hi,List.getElem?_take_of_lt hi,h.outside i (by omega)]
  · rw [List.getElem?_take_eq_none (by omega),List.getElem?_take_eq_none (by omega)]

theorem drop {n : ℕ} (h : SameOutside lo hi xs ys) (hn : hi ≤ n) : ys.drop n = xs.drop n := by
  apply List.ext_getElem?
  intro i
  rw [List.getElem?_drop,List.getElem?_drop,h.outside (n + i) (by omega)]

end SameOutside

/-- A run of pieces: covered indices show the sequence, the others what was there before. -/
theorem foldl_overwrite {xs : List α} (pieces : List (ℕ × List α)) (hp : ∀ q ∈ pieces, IsPiece xs q)
    (buf : List α) (hbuf : buf.length = xs.length) :
    (pieces.foldl overwrite buf).length = xs.length ∧
      ∀ i, (buf[i]? = xs[i]? ∨ ∃ q ∈ pieces, Covers q i) → (pieces.foldl overwrite buf)[i]? = xs[i]? := by
  induction pieces generalizing buf with
  | nil =>
    refine ⟨hbuf,fun i h => ?_⟩
    rcases h with h | ⟨q,hq,-⟩
    · exact h
    · cases hq
  | cons piece rest ih =>
    have hpiece : IsPiece xs piece := hp piece List.mem_cons_self
    have hinside : piece.1 + piece.2.length ≤ buf.length := hbuf ▸ hpiece.inside
    have hlength : (overwrite buf piece).length = xs.length := (length_overwrite hinside).trans hbuf
    obtain ⟨hlen,hrest⟩ := ih (fun q hq => hp q (List.mem_cons_of_mem _ hq)) (overwrite buf piece) hlength
    refine ⟨hlen,fun i h => hrest i ?_⟩
    by_cases hc : Covers piece i
    · exact Or.inl (getElem?_overwrite_of_covers hpiece hbuf hc)
    · rcases h with h | ⟨q,hq,hqi⟩
      · exact Or.inl ((getElem?_overwrite_of_not_covers hinside hc).trans h)
      · rcases List.mem_cons.mp hq with rfl | hq
        · exact absurd hqi hc
        · exact Or.inr ⟨q,hq,hqi⟩

/-- Pieces that cover every index put the sequence together, whatever stood in the buffer. -/
theorem foldl_overwrite_eq {xs : List α} {pieces : List (ℕ × List α)} (hp : ∀ q ∈ pieces, IsPiece xs q)
    (hcover : ∀ i < xs.length, ∃ q ∈ pieces, Covers q i) {buf : List α} (hbuf : buf.length = xs.length) :
    pieces.foldl overwrite buf = xs := by
  obtain ⟨hlen,hget⟩ := foldl_overwrite pieces hp buf hbuf
  apply List.ext_getElem?
  intro i
  by_cases hi : i < xs.length
  · exact hget i (Or.inr (hcover i hi))
  · rw [List.getElem?_eq_none (by omega),List.getElem?_eq_none (by omega)]

end ClickMobileIP.Reassembly
