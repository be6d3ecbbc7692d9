import Mathlib.Data.Int.Notation
import Mathlib.Data.List.Basic
import Mathlib.Logic.Function.Iterate
import Mathlib.Tactic.Common

/-! # Network byte order on a little-endian host

Sixteen and thirty-two bit header fields are kept as the host reads them, so a
field in network byte order is the byte-swapped value. The elements count seconds
down by subtracting `htons(1)` from the swapped value; `aged` is that subtraction
repeated, and the lemmas say when it reaches zero.
-/
namespace ClickMobileIP

def htons (n : UInt16) : UInt16 := UInt16.ofNat (n.toNat % 256 * 256 + n.toNat / 256)

def ntohs (n : UInt16) : UInt16 := htons n

def htonl (n : UInt32) : UInt32 :=
  UInt32.ofNat (n.toNat % 256 * 16777216 + n.toNat / 256 % 256 * 65536 +
    n.toNat / 65536 % 256 * 256 + n.toNat / 16777216)

/-- A C `int` stored in a `uint16_t`. -/
def toUInt16 (n : ℤ) : UInt16 := UInt16.ofNat (Int.toNat (n % 65536))

theorem toUInt16_toNat (n : ℤ) : ((toUInt16 n).toNat : ℤ) = n % 65536 := by
  have hlt : Int.toNat (n % 65536) < 2 ^ 16 := by omega
  rw [toUInt16,UInt16.toNat_ofNat_of_lt' hlt]
  omega

theorem htons_toNat (n : UInt16) : (htons n).toNat = n.toNat % 256 * 256 + n.toNat / 256 := by
  have hn := n.toNat_lt
  rw [htons,UInt16.toNat_ofNat']
  omega

@[simp] theorem htons_htons (n : UInt16) : htons (htons n) = n := by
  have hn := n.toNat_lt
  apply UInt16.toNat_inj.mp
  rw [htons_toNat,htons_toNat]
  omega

@[simp] theorem ntohs_htons (n : UInt16) : ntohs (htons n) = n := htons_htons n
@[simp] theorem htons_ntohs (n : UInt16) : htons (ntohs n) = n := htons_htons n

theorem htons_eq_zero {n : UInt16} : htons n = 0 ↔ n = 0 := by
  constructor
  · intro h
    rw [← htons_htons n,h]
    rfl
  · rintro rfl
    rfl

theorem htons_one_toNat : (htons 1).toNat = 256 := rfl

/-- One tick of a countdown in network byte order. -/
def tickDown (t : UInt16) : UInt16 := t - htons 1

def aged (n : ℕ) (t : UInt16) : UInt16 := tickDown^[n] t

@[simp] theorem aged_zero (t : UInt16) : aged 0 t = t := rfl

theorem aged_succ (n : ℕ) (t : UInt16) : aged (n + 1) t = tickDown (aged n t) :=
  Function.iterate_succ_apply' tickDown n t

theorem tickDown_toNat (t : UInt16) : (tickDown t).toNat = (t.toNat + 65280) % 65536 := by
  rw [tickDown,UInt16.toNat_sub,htons_one_toNat]
  omega

theorem aged_toNat (n : ℕ) (t : UInt16) : (aged n t).toNat = (t.toNat + 65280 * n) % 65536 := by
  induction n with
  | zero =>
    have ht := t.toNat_lt
    simp only [aged_zero]
    omega
  | succ n ih =>
    rw [aged_succ,tickDown_toNat,ih]
    omega

/-- A countdown from `L` seconds shows zero exactly after `L` ticks, modulo 256,
and only if `L` fits in one byte: the high byte of `L` is never decremented. -/
theorem aged_htons_eq_zero {L : UInt16} {n : ℕ} :
    aged n (htons L) = 0 ↔ L.toNat < 256 ∧ n % 256 = L.toNat := by
  have hL := L.toNat_lt
  rw [← UInt16.toNat_inj,aged_toNat,htons_toNat,UInt16.toNat_zero]
  constructor
  · intro h
    have hhigh : L.toNat / 256 = 0 := by omega
    rw [hhigh] at h
    omega
  · rintro ⟨hlt,hn⟩
    have hhigh : L.toNat / 256 = 0 := by omega
    rw [hhigh]
    omega

end ClickMobileIP
