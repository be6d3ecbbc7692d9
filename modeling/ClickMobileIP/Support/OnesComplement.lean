import Mathlib.Data.List.Basic
import Mathlib.Algebra.Group.Nat.Even
import Mathlib.Tactic.Common
import Mathlib.Tactic.Ring

/-! # Ones-complement sums of little-endian words

The sum of the sixteen-bit words of a buffer is folded to sixteen bits by adding
the carries back. Folding is reduction modulo `2^16 - 1` with representatives
from `1` for every sum that is not zero, which is why a buffer whose checksum
field holds the complement of its folded sum folds to `0xffff`.
-/
namespace ClickMobileIP.OnesComplement

/-- Words are read low byte first; an odd last byte is a word of its own. -/
def sumWords : List UInt8 → ℕ
  | a :: b :: rest => a.toNat + 256 * b.toNat + sumWords rest
  | [a] => a.toNat
  | [] => 0

/-- Add the carries of a thirty-two bit sum back into its low half, twice. -/
def fold (s : ℕ) : ℕ :=
  (s % 65536 + s / 65536 + (s % 65536 + s / 65536) / 65536) % 65536

theorem sumWords_append {xs : List UInt8} (ys : List UInt8) (h : Even xs.length) :
    sumWords (xs ++ ys) = sumWords xs + sumWords ys := by
  induction xs using sumWords.induct with
  | case1 a b rest ih =>
    have hr : Even rest.length := by
      simpa [Nat.even_add_one] using h
    simp only [List.cons_append,sumWords,ih hr]
    omega
  | case2 a => simp at h
  | case3 => simp [sumWords]

theorem sumWords_lt (xs : List UInt8) : sumWords xs ≤ 65535 * ((xs.length + 1) / 2) := by
  induction xs using sumWords.induct with
  | case1 a b rest ih =>
    have ha := a.toNat_lt
    have hb := b.toNat_lt
    simp only [sumWords,List.length_cons]
    omega
  | case2 a =>
    have ha := a.toNat_lt
    simp only [sumWords,List.length_singleton]
    omega
  | case3 => simp [sumWords]

theorem sumWords_zeros (n : ℕ) : sumWords (List.replicate n 0) = 0 := by
  induction n using Nat.twoStepInduction with
  | zero => rfl
  | one => rfl
  | more n ih _ => simpa [List.replicate_succ,sumWords] using ih

theorem fold_cases {s : ℕ} (hs : s < 2 ^ 32) :
    (s % 65536 + s / 65536 < 65536 ∧ fold s = s % 65536 + s / 65536) ∨
      (65536 ≤ s % 65536 + s / 65536 ∧ fold s + 65535 = s % 65536 + s / 65536) := by
  unfold fold
  generalize ht : s % 65536 + s / 65536 = t
  have hbound : t < 131071 := by omega
  by_cases h : t < 65536
  · left
    rw [Nat.div_eq_of_lt h]
    omega
  · right
    have hcarry : t / 65536 = 1 := by omega
    rw [hcarry]
    omega

theorem fold_le (s : ℕ) : fold s ≤ 65535 := by
  unfold fold
  omega

/-- On thirty-two bit sums the fold is the residue modulo `0xffff` whose zero is
written as `0xffff`. -/
theorem fold_mod {s : ℕ} (hs : s < 2 ^ 32) : fold s % 65535 = s % 65535 := by
  rcases fold_cases hs with ⟨-,h⟩ | ⟨-,h⟩
  · rw [h]
    omega
  · have hs' : s % 65535 = (fold s + 65535) % 65535 := by
      rw [h]
      omega
    rw [hs',Nat.add_mod_right]

theorem fold_pos {s : ℕ} (hs : s < 2 ^ 32) (h : 0 < s) : 0 < fold s := by
  rcases fold_cases hs with ⟨-,hf⟩ | ⟨hge,hf⟩ <;> omega

theorem fold_eq_top {s : ℕ} (hs : s < 2 ^ 32) (h : 0 < s) : fold s = 65535 ↔ s % 65535 = 0 := by
  have hle := fold_le s
  have hmod := fold_mod hs
  have hpos := fold_pos hs h
  omega

/-- Folding early does not change the outcome. -/
theorem fold_fold_add {s t : ℕ} (ht : 0 < t) (h : s + t + 65535 < 2 ^ 32) :
    fold (fold s + t) = fold (s + t) := by
  have hle := fold_le s
  have hmod := fold_mod (s := s) (by omega)
  have hmod' := fold_mod (s := fold s + t) (by omega)
  have hmod'' := fold_mod (s := s + t) (by omega)
  have hpos' := fold_pos (s := fold s + t) (by omega) (by omega)
  have hpos'' := fold_pos (s := s + t) (by omega) (by omega)
  have hle' := fold_le (fold s + t)
  have hle'' := fold_le (s + t)
  omega

/-- Storing the complement of the fold makes the whole sum fold to all ones. -/
theorem fold_add_complement {s : ℕ} (hs : s + 65535 < 2 ^ 32) (h : 0 < s) :
    fold (s + (65535 - fold s)) = 65535 := by
  have hle := fold_le s
  have hmod := fold_mod (s := s) (by omega)
  have hpos := fold_pos (s := s) (by omega) h
  have hmod' := fold_mod (s := s + (65535 - fold s)) (by omega)
  have hpos' := fold_pos (s := s + (65535 - fold s)) (by omega) (by omega)
  have hle' := fold_le (s + (65535 - fold s))
  omega

/-- The checksum after one covered word has been exchanged, without a look at the others. -/
def updated (c old new : ℕ) : ℕ := 65535 - fold (65535 - c + (65535 - old) + new)

section Updated
variable {s c old new : ℕ}

theorem updated_mod (hc : c ≤ 65535) (hold : old ≤ 65535) (hnew : new ≤ 65535)
    (h : (s + old + c) % 65535 = 0) : (s + new + updated c old new) % 65535 = 0 := by
  have hle := fold_le (65535 - c + (65535 - old) + new)
  have hmod := fold_mod (s := 65535 - c + (65535 - old) + new) (by omega)
  rw [updated]
  omega

theorem updated_lt (hc : c ≤ 65535) (hold : old ≤ 65535) (hnew : new ≤ 65535)
    (h : c < 65535 ∨ old < 65535 ∨ 0 < new) : updated c old new < 65535 := by
  have hpos := fold_pos (s := 65535 - c + (65535 - old) + new) (by omega) (by omega)
  rw [updated]
  omega

end Updated

theorem completion_unique {s c c' : ℕ} (hc : c < 65535) (hc' : c' < 65535) (h : (s + c) % 65535 = 0)
    (h' : (s + c') % 65535 = 0) : c = c' := by
  omega

end ClickMobileIP.OnesComplement
