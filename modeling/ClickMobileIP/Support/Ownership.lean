import Mathlib.Algebra.GroupWithZero.Nat
import Mathlib.Data.List.Count
import Mathlib.Tactic.Common

/-! # Ownership of handles along a trace

A trace lists what a piece of code does with its handles. Each handle that is live must
be released once, by giving it away, freeing it or exchanging it for a successor, and may
be used only while it is live. `settle` follows the live handles through a trace; a
release or a use of a handle that is not live is a fault.
-/
namespace ClickMobileIP.Ownership
variable {η : Type} [DecidableEq η]

inductive Op (η : Type)
  | make (h : η)
  | exchange (h successor : η)
  | use (h : η)
  | kill (h : η)
  | push (port : ℕ) (h : η)
  | fault
  deriving DecidableEq, Repr

def Op.perform (live : List η) : Op η → Option (List η)
  | .make h => if h ∈ live then none else some (h :: live)
  | .exchange h successor =>
    if h ∈ live ∧ successor ∉ live.erase h then some (successor :: live.erase h) else none
  | .use h => if h ∈ live then some live else none
  | .kill h => if h ∈ live then some (live.erase h) else none
  | .push _ h => if h ∈ live then some (live.erase h) else none
  | .fault => none

def settle (live : List η) : List (Op η) → Option (List η)
  | [] => some live
  | op :: ops => (op.perform live).bind (fun rest => settle rest ops)

/-- All handles, the given ones and those made on the way, are released and none of them
is touched afterwards. -/
def Conserved (given : List η) (ops : List (Op η)) : Prop := settle given ops = some []

instance (given : List η) (ops : List (Op η)) : Decidable (Conserved given ops) :=
  inferInstanceAs (Decidable (_ = _))

def Op.gained (h : η) : Op η → ℕ
  | .make h' => if h' = h then 1 else 0
  | .exchange _ successor => if successor = h then 1 else 0
  | _ => 0

def Op.released (h : η) : Op η → ℕ
  | .exchange h' _ => if h' = h then 1 else 0
  | .kill h' => if h' = h then 1 else 0
  | .push _ h' => if h' = h then 1 else 0
  | _ => 0

def gained (h : η) (ops : List (Op η)) : ℕ := (ops.map (Op.gained h)).sum
def released (h : η) (ops : List (Op η)) : ℕ := (ops.map (Op.released h)).sum

/-- The ports that packets leave through, in order. -/
def Op.port : Op η → Option ℕ
  | .push port _ => some port
  | _ => none

def ports (ops : List (Op η)) : List ℕ := ops.filterMap Op.port

theorem count_erase_of_mem {h : η} {live : List η} (hmem : h ∈ live) (k : η) :
    (live.erase h).count k + (if h = k then 1 else 0) = live.count k := by
  by_cases hk : h = k
  · subst hk
    have hpos : 0 < live.count h := List.count_pos_iff.mpr hmem
    rw [List.count_erase_self,if_pos rfl]
    omega
  · rw [List.count_erase_of_ne (fun h' => hk h'.symm),if_neg hk]
    rfl

theorem perform_count {live rest : List η} {op : Op η} (h : op.perform live = some rest) (k : η) :
    live.count k + op.gained k = rest.count k + op.released k := by
  cases op with
  | make x =>
    simp only [Op.perform] at h
    split at h
    · cases h
    · cases h
      simp [Op.gained,Op.released,List.count_cons]
  | exchange x y =>
    simp only [Op.perform] at h
    split at h
    · rename_i hmem
      cases h
      have hcount := count_erase_of_mem hmem.1 k
      simp only [Op.gained,Op.released,List.count_cons,beq_iff_eq]
      omega
    · cases h
  | use x =>
    simp only [Op.perform] at h
    split at h
    · cases h
      rfl
    · cases h
  | kill x =>
    simp only [Op.perform] at h
    split at h
    · rename_i hmem
      cases h
      exact (count_erase_of_mem hmem k).symm
    · cases h
  | push port x =>
    simp only [Op.perform] at h
    split at h
    · rename_i hmem
      cases h
      exact (count_erase_of_mem hmem k).symm
    · cases h
  | fault => cases h

/-- The ledger of a trace: what was live or made is released or still live. -/
theorem settle_count {live rest : List η} {ops : List (Op η)} (h : settle live ops = some rest) (k : η) :
    live.count k + gained k ops = rest.count k + released k ops := by
  induction ops generalizing live with
  | nil =>
    cases h
    rfl
  | cons op ops ih =>
    obtain ⟨mid,hop,hops⟩ := Option.bind_eq_some_iff.mp h
    have hfirst := perform_count hop k
    have hlater := ih hops
    simp only [gained,released,List.map_cons,List.sum_cons] at hlater ⊢
    omega

theorem Conserved.released_eq {live : List η} {ops : List (Op η)} (h : Conserved live ops) (k : η) :
    released k ops = live.count k + gained k ops := by
  have hcount := settle_count h k
  simp only [List.count_nil] at hcount
  omega

/-- A live handle that is released only as often as it is made leaks. -/
theorem not_conserved_of_leak {h : η} {live : List η} {ops : List (Op η)} (hlive : h ∈ live)
    (hbalance : released h ops = gained h ops) : ¬Conserved live ops := by
  intro hconserved
  have hcount := hconserved.released_eq h
  have hpos : 0 < live.count h := List.count_pos_iff.mpr hlive
  omega

end ClickMobileIP.Ownership
