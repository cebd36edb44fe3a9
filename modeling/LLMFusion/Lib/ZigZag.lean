import LLMFusion.Lib.Slices
import Mathlib.Data.List.Perm.Basic
import Mathlib.Tactic.Ring

/-! The zig-zag split. A list is cut into twice as many chunks as there are ranks;
a rank holds one chunk from the front and its mirror image from the back. Every
item is held once, and writing both chunks of every rank to where they came from
gives back the list. -/

namespace ZigZag
open Slices List

universe u v
variable {α : Type u} {β : Type v}

def chunk (size index : Nat) (items : List α) : List α := slice items (size * index) (size * (index + 1))

def split (ranks size rank : Nat) (items : List α) : List α :=
  chunk size rank items ++ chunk size (2 * ranks - 1 - rank) items

theorem chunk_map (f : α → β) (size index : Nat) (items : List α) :
    chunk size index (items.map f) = (chunk size index items).map f := slice_map f ..

theorem split_map (f : α → β) (ranks size rank : Nat) (items : List α) :
    split ranks size rank (items.map f) = (split ranks size rank items).map f := by
  rw [split, chunk_map, chunk_map, ← map_append, split]

variable {items : List α}

theorem chunk_length {size index : Nat} (inside : size * (index + 1) ≤ items.length) :
    (chunk size index items).length = size := by
  rw [chunk, slice_length, Nat.min_eq_left inside, Nat.mul_succ]
  omega

theorem mirror_bound {ranks rank : Nat} (size : Nat) (inside : rank < ranks) :
    size * (2 * ranks - 1 - rank) = size * (2 * ranks) - size * (rank + 1) ∧
      size * (2 * ranks - 1 - rank + 1) = size * (2 * ranks) - size * rank ∧
      size * (rank + 1) ≤ size * ranks ∧ size * (2 * ranks) = size * ranks + size * ranks := by
  refine ⟨?_, ?_, Nat.mul_le_mul_left size inside, by ring⟩
  · rw [← Nat.mul_sub]
    congr 1
    omega
  · rw [← Nat.mul_sub]
    congr 1
    omega

variable {ranks size rank : Nat}

theorem split_length (inside : rank < ranks)
    (whole : items.length = size * (2 * ranks)) : (split ranks size rank items).length = 2 * size := by
  obtain ⟨_, last, front, double⟩ := mirror_bound size inside
  rw [split, length_append, chunk_length (by omega), chunk_length (by omega)]
  omega

theorem split_getElem? {ranks size rank place : Nat} (inside : rank < ranks)
    (whole : items.length = size * (2 * ranks)) (within : place < 2 * size) :
    (split ranks size rank items)[place]? =
      items[if place < size then size * rank + place else size * (2 * ranks - 1 - rank) + (place - size)]? := by
  obtain ⟨_, last, front, double⟩ := mirror_bound size inside
  have frontLength : (chunk size rank items).length = size := chunk_length (by omega)
  rw [split]
  by_cases first : place < size
  · rw [getElem?_append_left (by omega), chunk, slice_getElem?, if_pos (by rw [Nat.mul_succ]; omega), if_pos first]
  · rw [getElem?_append_right (by omega), chunk, slice_getElem?, frontLength,
      if_pos (by rw [Nat.mul_succ]; omega), if_neg first]

theorem split_halves (inside : rank < ranks) (whole : items.length = size * (2 * ranks)) :
    slice (split ranks size rank items) 0 size = chunk size rank items ∧
      slice (split ranks size rank items) size (2 * size) = chunk size (2 * ranks - 1 - rank) items := by
  obtain ⟨_, last, front, double⟩ := mirror_bound size inside
  have frontLength : (chunk size rank items).length = size := chunk_length (by omega)
  have backLength : (chunk size (2 * ranks - 1 - rank) items).length = size := chunk_length (by omega)
  constructor
  · rw [split, slice_append_left _ _ _ _ (by omega), slice_full _ _ (by omega)]
  · have shifted := slice_shift (chunk size rank items) (chunk size (2 * ranks - 1 - rank) items) 0 size
    rwa [frontLength, Nat.add_zero, ← Nat.two_mul, slice_full _ _ (Nat.le_of_eq backLength)] at shifted

theorem split_take (inside : rank < ranks)
    (whole : items.length = size * (2 * ranks)) : (split ranks size rank items).take size = chunk size rank items := by
  obtain ⟨_, last, front, double⟩ := mirror_bound size inside
  have frontLength : (chunk size rank items).length = size := chunk_length (by omega)
  rw [split, take_append_of_le_length (by omega), take_of_length_le (by omega)]

theorem split_drop (inside : rank < ranks) (whole : items.length = size * (2 * ranks)) :
    (split ranks size rank items).drop size = chunk size (2 * ranks - 1 - rank) items := by
  obtain ⟨_, last, front, double⟩ := mirror_bound size inside
  have frontLength : (chunk size rank items).length = size := chunk_length (by omega)
  rw [split, drop_append_of_le_length (by omega), drop_of_length_le (by omega), nil_append]

theorem chunks_flatten (size count : Nat) (items : List α) :
    (range count).flatMap (fun index => chunk size index items) = slice items 0 (size * count) := by
  induction count with
  | zero => simp [slice]
  | succ count ih =>
    rw [range_succ, flatMap_append, ih, flatMap_singleton]
    exact slice_append_slice items (Nat.zero_le _) (Nat.mul_le_mul_left size (Nat.le_succ count))

private theorem mirrors_perm (ranks : Nat) :
    (range ranks ++ (range ranks).map (fun rank => 2 * ranks - 1 - rank)).Perm
      (range (2 * ranks)) := by
  have mirrored : (range ranks).map (fun rank => 2 * ranks - 1 - rank) =
      ((range ranks).map (ranks + ·)).reverse := by
    apply ext_getElem (by simp)
    intro index first second
    have : index < ranks := by simpa using first
    simp
    omega
  rw [mirrored, Nat.two_mul, range_add]
  exact (reverse_perm _).append_left _

theorem split_perm {ranks size : Nat} (whole : items.length = size * (2 * ranks)) :
    ((range ranks).flatMap (fun rank => split ranks size rank items)).Perm items := by
  have all := (mirrors_perm ranks).flatMap_right (fun index => chunk size index items)
  rw [chunks_flatten, slice_full items _ (Nat.le_of_eq whole), flatMap_append, flatMap_map] at all
  exact (flatMap_append_perm _ _ _).symm.trans all

/-- The parts of all ranks in the order of the list they were split from. -/
def join (ranks size : Nat) (parts : Nat → List α) : List α :=
  (List.range ranks).flatMap (fun rank => (parts rank).take size) ++
    (List.range ranks).reverse.flatMap (fun rank => (parts rank).drop size)

theorem join_split {ranks size : Nat} {parts : Nat → List α}
    (whole : items.length = size * (2 * ranks)) (held : ∀ rank < ranks, parts rank = split ranks size rank items) :
    join ranks size parts = items := by
  have front : (range ranks).flatMap (fun rank => (parts rank).take size) =
      (range ranks).flatMap (fun rank => chunk size rank items) := by
    apply flatMap_congr
    intro rank member
    have inside := mem_range.mp member
    rw [held rank inside, split_take inside whole]
  have back : (range ranks).reverse.flatMap (fun rank => (parts rank).drop size) =
      (range ranks).flatMap (fun index => chunk size (ranks + index) items) := by
    have mirrored : (range ranks).reverse = (range ranks).map (fun index => ranks - 1 - index) := by
      apply ext_getElem (by simp)
      intro index first second
      simp
    rw [mirrored, flatMap_map]
    apply flatMap_congr
    intro index member
    have inside := mem_range.mp member
    rw [held _ (by omega), split_drop (by omega) whole]
    congr 1
    omega
  have all := chunks_flatten size (2 * ranks) items
  rw [slice_full items _ (Nat.le_of_eq whole), Nat.two_mul, range_add, flatMap_append, flatMap_map] at all
  rw [join, front, back]
  exact all

/-- The buffer agrees with the items on the chunks of the ranks before `done`. -/
structure Assembled (size : Nat) (items : List α) (done : Nat) (buffer : List α) : Prop where
  length : buffer.length = items.length
  outer : ∀ index, index < size * done ∨ items.length - size * done ≤ index → buffer[index]? = items[index]?

theorem Assembled.start {size : Nat} {items buffer : List α} (length : buffer.length = items.length) :
    Assembled size items 0 buffer where
  length := length
  outer index outside := by
    have past : items.length ≤ index := by omega
    rw [getElem?_eq_none past, getElem?_eq_none (by omega)]

theorem Assembled.step {ranks size done : Nat} {items buffer : List α}
    (assembled : Assembled size items done buffer) (inside : done < ranks)
    (whole : items.length = size * (2 * ranks)) :
    ∃ middle next, assign buffer (size * done) (size * (done + 1)) (chunk size done items) = some middle ∧
      assign middle (items.length - size * (done + 1)) (items.length - size * done)
        (chunk size (2 * ranks - 1 - done) items) = some next ∧
      Assembled size items (done + 1) next := by
  obtain ⟨first, last, front, double⟩ := mirror_bound size inside
  have length := assembled.length
  have grows : size * (done + 1) = size * done + size := Nat.mul_succ size done
  have frontLength : (chunk size done items).length = size := chunk_length (by omega)
  have backLength : (chunk size (2 * ranks - 1 - done) items).length = size := chunk_length (by omega)
  obtain ⟨middle, written, middleLength, values⟩ := assign_spec
    (show size * done ≤ size * (done + 1) by omega) (show size * (done + 1) ≤ buffer.length by omega)
    (show (chunk size done items).length = _ by omega)
  obtain ⟨next, written', nextLength, values'⟩ := assign_spec
    (show items.length - size * (done + 1) ≤ items.length - size * done by omega)
    (show items.length - size * done ≤ middle.length by omega)
    (show (chunk size (2 * ranks - 1 - done) items).length = _ by omega)
  refine ⟨middle, next, written, written', by omega, ?_⟩
  intro index outer
  rw [values', values]
  by_cases back : items.length - size * (done + 1) ≤ index ∧ index < items.length - size * done
  · rw [if_pos back, chunk, slice_getElem?, if_pos (by omega)]
    congr 1
    omega
  · rw [if_neg back]
    by_cases middle : size * done ≤ index ∧ index < size * (done + 1)
    · rw [if_pos middle, chunk, slice_getElem?, if_pos (by omega)]
      congr 1
      omega
    · rw [if_neg middle]
      exact assembled.outer index (by omega)

theorem Assembled.complete {ranks size : Nat} {items buffer : List α}
    (assembled : Assembled size items ranks buffer) (whole : items.length = size * (2 * ranks)) : buffer = items := by
  apply ext_getElem?
  intro index
  have double : size * (2 * ranks) = size * ranks + size * ranks := by ring
  exact assembled.outer index (by omega)

end ZigZag
