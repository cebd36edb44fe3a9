import LLMFusion.Lib.Slices
import Mathlib.Algebra.GroupWithZero.Nat
import Mathlib.Data.List.Forall2

/-! Tensors whose rows have lengths of their own: the values of the rows one behind the other,
with the offsets at which a row ends and the next one starts. -/

universe u v w
variable {α : Type u} {β : Type w} {κ : Type v}

/-- Rows of any lengths. -/
@[ext] structure Nested (α : Type u) where
  rows : List (List α)
  deriving DecidableEq, Repr

namespace Nested
open Slices List

def values (tensor : Nested α) : List α := tensor.rows.flatten

/-- `offsets().diff()` -/
def lengths (tensor : Nested α) : List Nat := tensor.rows.map List.length

/-- Nothing, the first length, the sum of the first two, and so on. -/
def cumulative (lengths : List Nat) : List Nat := lengths.scanl (· + ·) 0

def offsets (tensor : Nested α) : List Nat := cumulative tensor.lengths

/-- `nested_tensor_from_jagged` -/
def fromJagged (values : List α) (offsets : List Nat) : Nested α :=
  ⟨List.zipWith (slice values) offsets offsets.tail⟩

theorem scanl_shape (start : Nat) (lengths : List Nat) : ∃ later, lengths.scanl (· + ·) start = start :: later := by
  cases lengths with
  | nil => exact ⟨[], scanl_nil⟩
  | cons length lengths => exact ⟨_, scanl_cons⟩

theorem cut_rows (before : List α) (rows : List (List α)) :
    let offsets := (rows.map length).scanl (· + ·) before.length
    zipWith (slice (before ++ rows.flatten)) offsets offsets.tail = rows := by
  induction rows generalizing before with
  | nil => simp
  | cons row rows ih =>
    have first : slice (before ++ (row ++ rows.flatten)) before.length (before.length + row.length) = row := by
      have shifted := slice_shift before (row ++ rows.flatten) 0 row.length
      rw [Nat.add_zero] at shifted
      rw [shifted, slice_append_left _ _ _ _ (Nat.le_refl _), slice_full _ _ (Nat.le_refl _)]
    have rest := ih (before ++ row)
    rw [length_append, append_assoc] at rest
    obtain ⟨later, shape⟩ := scanl_shape (before.length + row.length) (rows.map length)
    simp only [shape, tail_cons] at rest
    simp only [map_cons, scanl_cons, tail_cons, flatten_cons, shape, zipWith_cons_cons,
      first, rest]

theorem fromJagged_values (tensor : Nested α) : fromJagged tensor.values tensor.offsets = tensor := by
  rw [Nested.ext_iff]
  exact cut_rows [] tensor.rows

/-- What is cut out of the values at the end of every row depends only on that row, when it does
so wherever the row lies. -/
theorem cut_ends {cut : List α → κ → Nat → List β} {inRow : κ → List α → List β} {keys : List κ}
    {rows : List (List α)} (before : List α) (inside : List.Forall₂ (fun key row => ∀ before after : List α,
      cut (before ++ (row ++ after)) key (before.length + row.length) = inRow key row) keys rows) :
    zipWith (cut (before ++ rows.flatten)) keys ((rows.map length).scanl (· + ·) before.length).tail =
      zipWith inRow keys rows := by
  induction inside generalizing before with
  | nil => simp
  | @cons key row keys rows first _ ih =>
    have rest := ih (before ++ row)
    rw [length_append, append_assoc] at rest
    obtain ⟨later, shape⟩ := scanl_shape (before.length + row.length) (rows.map length)
    simp only [shape, tail_cons] at rest
    simp only [map_cons, scanl_cons, tail_cons, flatten_cons, shape, zipWith_cons_cons,
      first, rest]

theorem cumulative_last {lengths : List Nat} (nonempty : lengths ≠ []) :
    (cumulative lengths).tail.getLast? = some lengths.sum := by
  cases lengths with
  | nil => exact absurd rfl nonempty
  | cons length lengths =>
    rw [cumulative, scanl_cons, tail_cons, getLast?_scanl, sum_eq_foldl, foldl_cons]

end Nested
