import Mathlib.Data.List.Basic
import Mathlib.Logic.Equiv.Prod
import Mathlib.Tactic.Common

/-! # Fixed-size byte layouts

A layout is the image of one value in a byte buffer: how it is stored, how it is
loaded, and the proofs that the two undo each other. Multi-byte scalars are
little-endian. Records are assembled from their members with `prod` and `equiv`,
so a record layout carries its round trips without any further argument.
-/
namespace ClickMobileIP.ByteLayout

/-- A value of `α` occupies the first `size` bytes of a buffer. -/
structure Layout (α : Type) where
  size : ℕ
  write : α → List UInt8
  read : List UInt8 → α
  length_write : ∀ a, (write a).length = size
  read_write : ∀ a rest, read (write a ++ rest) = a
  write_read : ∀ bs, size ≤ bs.length → write (read bs) = bs.take size

namespace Layout
variable {α β : Type}

attribute [simp] length_write read_write

@[simp] theorem read_write_self (L : Layout α) (a : α) : L.read (L.write a) = a := by
  simpa using L.read_write a []

theorem write_append_drop (L : Layout α) {bs : List UInt8} (h : L.size ≤ bs.length) :
    L.write (L.read bs) ++ bs.drop L.size = bs := by
  rw [L.write_read bs h,List.take_append_drop]

@[simp] theorem drop_write_append (L : Layout α) (a : α) (rest : List UInt8) :
    (L.write a ++ rest).drop L.size = rest := List.drop_left' (L.length_write a)

@[simp] theorem take_write_append (L : Layout α) (a : α) (rest : List UInt8) :
    (L.write a ++ rest).take L.size = L.write a := List.take_left' (L.length_write a)

/-- A bounded load: `none` when some byte of the value lies outside the buffer. -/
def load (L : Layout α) (bs : List UInt8) (off : ℕ) : Option α :=
  if off + L.size ≤ bs.length then some (L.read (bs.drop off)) else none

theorem load_eq_some (L : Layout α) {bs : List UInt8} {off : ℕ} (h : off + L.size ≤ bs.length) :
    L.load bs off = some (L.read (bs.drop off)) := by
  simp only [load,h,↓reduceIte]

theorem load_eq_none (L : Layout α) {bs : List UInt8} {off : ℕ} (h : bs.length < off + L.size) :
    L.load bs off = none := if_neg (by omega)

theorem load_drop (L : Layout α) (hL : 0 < L.size) (bs : List UInt8) (m n : ℕ) :
    L.load (bs.drop m) n = L.load bs (m + n) := by
  unfold load
  rw [List.length_drop,List.drop_drop]
  by_cases h : m + n + L.size ≤ bs.length
  · rw [if_pos h,if_pos (by omega)]
  · rw [if_neg h,if_neg (by omega)]

theorem read_append (L : Layout α) {bs rest : List UInt8} (h : L.size ≤ bs.length) :
    L.read (bs ++ rest) = L.read bs := by
  have hsplit : bs ++ rest = L.write (L.read bs) ++ (bs.drop L.size ++ rest) := by
    rw [← List.append_assoc,L.write_append_drop h]
  rw [hsplit,L.read_write]

theorem read_take (L : Layout α) {bs : List UInt8} {n : ℕ} (hbs : L.size ≤ bs.length) (hn : L.size ≤ n) :
    L.read (bs.take n) = L.read bs := by
  have hlen : L.size ≤ (bs.take n).length := by
    rw [List.length_take]
    omega
  rw [← L.read_append hlen,List.take_append_drop]

theorem load_take (L : Layout α) (hL : 0 < L.size) (bs : List UInt8) (n k : ℕ) :
    L.load (bs.take n) k = if k + L.size ≤ n then L.load bs k else none := by
  unfold load
  rw [List.length_take]
  by_cases hn : k + L.size ≤ n
  · by_cases hbs : k + L.size ≤ bs.length
    · rw [if_pos (by omega),if_pos hn,if_pos hbs,List.drop_take,L.read_take]
      · rw [List.length_drop]
        omega
      · omega
    · rw [if_neg (by omega),if_pos hn,if_neg hbs]
  · rw [if_neg (by omega),if_neg hn]

def u8 : Layout UInt8 where
  size := 1
  write b := [b]
  read bs := bs.headD 0
  length_write _ := rfl
  read_write _ _ := rfl
  write_read bs h := by
    cases bs with
    | nil => simp at h
    | cons b rest => simp

/-- Sixteen bits, low byte first. -/
def u16 : Layout UInt16 where
  size := 2
  write n := [UInt8.ofNat (n.toNat % 256), UInt8.ofNat (n.toNat / 256)]
  read bs := UInt16.ofNat ((bs.getD 0 0).toNat + 256 * (bs.getD 1 0).toNat)
  length_write _ := rfl
  read_write n rest := by
    have hn := n.toNat_lt
    apply UInt16.toNat_inj.mp
    simp only [List.cons_append,List.getD_cons_zero,List.getD_cons_succ,UInt8.toNat_ofNat',
      UInt16.toNat_ofNat']
    omega
  write_read bs h := by
    match bs with
    | [] | [_] => simp at h
    | a :: b :: rest =>
      have ha := a.toNat_lt
      have hb := b.toNat_lt
      have hhigh : UInt8.ofNat ((a.toNat + 256 * b.toNat) % 65536 / 256) = b := by
        apply UInt8.toNat_inj.mp
        rw [UInt8.toNat_ofNat']
        omega
      simp [hhigh]

def prod (L : Layout α) (M : Layout β) : Layout (α × β) where
  size := L.size + M.size
  write p := L.write p.1 ++ M.write p.2
  read bs := (L.read bs, M.read (bs.drop L.size))
  length_write p := by simp
  read_write p rest := by
    rw [List.append_assoc,L.read_write,L.drop_write_append,M.read_write]
  write_read bs h := by
    have hL : L.size ≤ bs.length := by omega
    have hM : M.size ≤ (bs.drop L.size).length := by
      rw [List.length_drop]
      omega
    rw [L.write_read bs hL,M.write_read _ hM,List.take_add]

/-- The same bytes seen as another type. -/
def equiv (L : Layout α) (e : α ≃ β) : Layout β where
  size := L.size
  write b := L.write (e.symm b)
  read bs := e (L.read bs)
  length_write b := L.length_write _
  read_write b rest := by rw [L.read_write,Equiv.apply_symm_apply]
  write_read bs h := by rw [Equiv.symm_apply_apply,L.write_read bs h]

/-- Thirty-two bits as two little-endian halves, low half first. -/
def u32 : Layout UInt32 :=
  (u16.prod u16).equiv
    { toFun p := UInt32.ofNat (p.1.toNat + 65536 * p.2.toNat)
      invFun n := (UInt16.ofNat (n.toNat % 65536), UInt16.ofNat (n.toNat / 65536))
      left_inv p := by
        have h1 := p.1.toNat_lt
        have h2 := p.2.toNat_lt
        apply Prod.ext
        · apply UInt16.toNat_inj.mp
          simp only [UInt16.toNat_ofNat',UInt32.toNat_ofNat']
          omega
        · apply UInt16.toNat_inj.mp
          simp only [UInt16.toNat_ofNat',UInt32.toNat_ofNat']
          omega
      right_inv n := by
        have hn := n.toNat_lt
        apply UInt32.toNat_inj.mp
        simp only [UInt16.toNat_ofNat',UInt32.toNat_ofNat']
        omega }

/-- Two four-bit fields in one byte, the first in the low bits. -/
def nibbles : Layout (BitVec 4 × BitVec 4) :=
  u8.equiv
    { toFun b := (BitVec.ofNat 4 b.toNat, BitVec.ofNat 4 (b.toNat / 16))
      invFun p := UInt8.ofNat (p.1.toNat + 16 * p.2.toNat)
      left_inv b := by
        have hb := b.toNat_lt
        apply UInt8.toNat_inj.mp
        simp only [BitVec.toNat_ofNat,UInt8.toNat_ofNat']
        omega
      right_inv p := by
        have h1 := p.1.isLt
        have h2 := p.2.isLt
        apply Prod.ext
        · apply BitVec.eq_of_toNat_eq
          simp only [BitVec.toNat_ofNat,UInt8.toNat_ofNat']
          omega
        · apply BitVec.eq_of_toNat_eq
          simp only [BitVec.toNat_ofNat,UInt8.toNat_ofNat']
          omega }

@[simp] theorem size_u8 : u8.size = 1 := rfl
@[simp] theorem size_u16 : u16.size = 2 := rfl
@[simp] theorem size_u32 : u32.size = 4 := rfl
@[simp] theorem size_nibbles : nibbles.size = 1 := rfl
@[simp] theorem size_prod (L : Layout α) (M : Layout β) : (L.prod M).size = L.size + M.size := rfl
@[simp] theorem size_equiv (L : Layout α) (e : α ≃ β) : (L.equiv e).size = L.size := rfl

end Layout
end ClickMobileIP.ByteLayout
