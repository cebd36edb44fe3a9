import Mathlib.Data.List.Basic

/-! Sequences that are produced item by item from what is there already, up to a bound
or an item that stops them. Cutting such a sequence and producing the rest from the cut
gives the same sequence. -/

namespace Continuation
open List

universe u v
variable {α : Type u} {β : Type v}

/-- At most `count` items behind those that are there; an item that stops is the last. -/
def continuation (next : List α → α) (stops : α → Bool) : Nat → List α → List α
  | 0, _ => []
  | count + 1, before =>
    next before :: if stops (next before) then [] else continuation next stops count (before ++ [next before])

/-- A value for each item, from the items before it. -/
def along (value : List α → β) (before items : List α) : List β :=
  (List.range items.length).map (fun i => value (before ++ items.take i))

section Cuts
variable {next : List α → α} {stops : α → Bool} {count : Nat} {before : List α}

theorem continuation_length_le (next : List α → α) (stops : α → Bool) (count : Nat) (before : List α) :
    (continuation next stops count before).length ≤ count := by
  induction count generalizing before with
  | zero => exact Nat.le_refl 0
  | succ count ih =>
    rw [continuation, length_cons]
    split
    · exact Nat.succ_le_succ (Nat.zero_le count)
    · exact Nat.succ_le_succ (ih _)

theorem continuation_length (running : ∀ item ∈ continuation next stops count before, stops item = false) :
    (continuation next stops count before).length = count := by
  induction count generalizing before with
  | zero => rfl
  | succ count ih =>
    have here := running (next before) (by simp [continuation])
    rw [continuation, here] at running ⊢
    simp only [Bool.false_eq_true, ite_false, mem_cons, forall_eq_or_imp] at running ⊢
    rw [length_cons, ih running.2]

theorem continuation_append (running : ∀ item ∈ continuation next stops count before, stops item = false) (more : Nat) :
    continuation next stops (count + more) before = continuation next stops count before ++
      continuation next stops more (before ++ continuation next stops count before) := by
  induction count generalizing before with
  | zero => simp [continuation]
  | succ count ih =>
    have here := running (next before) (by simp [continuation])
    rw [Nat.succ_add, continuation, continuation, here]
    rw [continuation, here] at running
    simp only [Bool.false_eq_true, ite_false, mem_cons, forall_eq_or_imp] at running ⊢
    rw [ih running.2, append_assoc, singleton_append, cons_append]

end Cuts

theorem along_append (value : List α → β) (before items more : List α) :
    along value before (items ++ more) = along value before items ++ along value (before ++ items) more := by
  rw [along, length_append, range_add, map_append, map_map]
  congr 1
  · apply map_congr_left
    intro i member
    rw [take_append_of_le_length (Nat.le_of_lt (mem_range.mp member))]
  · apply map_congr_left
    intro i _
    rw [Function.comp_apply, take_length_add_append, append_assoc]

end Continuation
