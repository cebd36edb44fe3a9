import Mathlib.Data.List.DropRight

/-! Lists that are split at a separator and trimmed of blanks. -/

namespace Splitting
open List

universe u
variable {α : Type u}

/-- Without the blanks at both ends. -/
def trim (blank : α → Bool) (items : List α) : List α := (items.dropWhile blank).rdropWhile blank

/-- Before and after the first separator. -/
def cut [DecidableEq α] (separator : α) (items : List α) : Option (List α × List α) :=
  if separator ∈ items then
    some (items.takeWhile (fun item => decide (item ≠ separator)),
      (items.dropWhile (fun item => decide (item ≠ separator))).tail)
  else none

theorem trim_subset (blank : α → Bool) (items : List α) : trim blank items ⊆ items := by
  intro item member
  exact (dropWhile_sublist blank).subset (( rdropWhile_prefix blank _).subset member)

theorem trim_head {blank : α → Bool} {items rest : List α} {first : α} (starts : trim blank items = first :: rest) :
    blank first = false := by
  obtain ⟨dropped, whole⟩ := rdropWhile_prefix blank (items.dropWhile blank)
  rw [← trim, starts, cons_append] at whole
  have kept := head_dropWhile_not blank (show items.dropWhile blank ≠ [] from whole ▸ cons_ne_nil _ _)
  simpa only [← whole, head_cons] using kept

@[simp] theorem trim_trim (blank : α → Bool) (items : List α) : trim blank (trim blank items) = trim blank items := by
  have front : (trim blank items).dropWhile blank = trim blank items := by
    cases trimmed : trim blank items with
    | nil => rfl
    | cons first rest => exact dropWhile_cons_of_neg (by simp [trim_head trimmed])
  rw [trim, front, trim, rdropWhile_idempotent]

theorem splitOn_single [DecidableEq α] {separator : α} {items : List α} (absent : separator ∉ items) :
    items.splitOn separator = [items] := by
  apply splitOnP_eq_singleton
  intro item member
  simp only [beq_eq_false_iff_ne]
  exact fun same => absent (same ▸ member)

theorem splitOn_free [DecidableEq α] {separator : α} {items part : List α} (member : part ∈ items.splitOn separator) :
    separator ∉ part := by
  rw [splitOn_eq_splitOnP] at member
  induction items generalizing part with
  | nil =>
    cases mem_singleton.mp member
    exact not_mem_nil
  | cons item items ih =>
    rw [splitOnP_cons_eq_if_modifyHead] at member
    split at member
    · cases member with
      | head => exact not_mem_nil
      | tail _ later => exact ih later
    · next other =>
      cases parts : items.splitOnP (· == separator) with
      | nil => exact absurd parts (splitOnP_ne_nil _ _)
      | cons first rest =>
        rw [parts] at member ih
        cases member with
        | head =>
          rw [mem_cons, not_or]
          exact ⟨fun same => other (beq_iff_eq.mpr same.symm), ih mem_cons_self⟩
        | tail _ later => exact ih (mem_cons_of_mem _ later)

end Splitting
