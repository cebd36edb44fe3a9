import LLMFusion.Lib.Slices
import Mathlib.Algebra.Order.Group.Nat

/-! A row that is extended to a multiple of a number of ranks and cut into one part for each of them. -/

namespace Shards
open Slices List

universe u v w
variable {α : Type u} {β : Type v} {γ : Type w}

/-- How many items are missing to a multiple. -/
def missing (ranks length : Nat) : Nat := (ranks - length % ranks) % ranks

def extend (ranks : Nat) (blank : α) (items : List α) : List α :=
  items ++ List.replicate (missing ranks items.length) blank

/-- The part of a rank. -/
def shard (ranks rank : Nat) (items : List α) : List α :=
  slice items (rank * (items.length / ranks)) ((rank + 1) * (items.length / ranks))

theorem missing_of_mod {ranks length : Nat} (uneven : length % ranks ≠ 0) : missing ranks length = ranks - length % ranks := by
  by_cases present : ranks = 0
  · simp [missing, present]
  · have rest := Nat.mod_lt length (Nat.pos_of_ne_zero present)
    exact Nat.mod_eq_of_lt (by omega)

theorem missing_of_dvd {ranks length : Nat} (even : length % ranks = 0) : missing ranks length = 0 := by
  rw [missing, even, Nat.sub_zero, Nat.mod_self]

theorem dvd_missing (ranks length : Nat) (present : 0 < ranks) : ranks ∣ length + missing ranks length := by
  by_cases even : length % ranks = 0
  · rw [missing_of_dvd even]
    exact Nat.dvd_of_mod_eq_zero even
  · rw [missing_of_mod even]
    have rest := Nat.mod_lt length present
    have whole := Nat.div_add_mod length ranks
    refine ⟨length / ranks + 1, ?_⟩
    rw [Nat.mul_succ]
    omega

theorem mem_of_mem_shard {ranks rank : Nat} {items : List α} {item : α} (member : item ∈ shard ranks rank items) : item ∈ items :=
  mem_of_mem_take (mem_of_mem_drop member)

theorem shard_map (f : α → β) (ranks rank : Nat) (items : List α) : shard ranks rank (items.map f) = (shard ranks rank items).map f := by
  rw [shard, shard, length_map, slice_map]

theorem shard_zip {items : List α} {others : List β} (aligned : items.length = others.length) (ranks rank : Nat) :
    shard ranks rank (items.zip others) = (shard ranks rank items).zip (shard ranks rank others) := by
  rw [shard, length_zip, aligned, Nat.min_self]
  simp only [shard, slice, aligned, zip_eq_zipWith, take_zipWith, drop_zipWith]

theorem flatMap_shards (ranks count : Nat) (items : List α) :
    (range count).flatMap (fun rank => shard ranks rank items) = items.take (count * (items.length / ranks)) := by
  induction count with
  | zero => simp
  | succ count ih =>
    have grows := Nat.mul_le_mul_right (items.length / ranks) (Nat.le_succ count)
    have front : (items.take ((count + 1) * (items.length / ranks))).take (count * (items.length / ranks)) =
        items.take (count * (items.length / ranks)) := by rw [take_take, Nat.min_eq_left grows]
    rw [range_succ, flatMap_append, ih, flatMap_singleton, shard, slice, ← front]
    exact take_append_drop _ _

theorem shards_whole {ranks : Nat} {items : List α} (even : ranks ∣ items.length) :
    (range ranks).flatMap (fun rank => shard ranks rank items) = items := by
  rw [flatMap_shards, Nat.mul_div_cancel' even, take_length]

end Shards
