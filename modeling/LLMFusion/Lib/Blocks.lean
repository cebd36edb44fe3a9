import LLMFusion.Lib.Fallible
import LLMFusion.Lib.Slices
import Mathlib.Algebra.Order.Group.Nat

/-! A list as consecutive blocks of one size. -/

namespace Blocks
open Slices List

universe u v
variable {α : Type u} {β : Type v}

def block (size : Nat) (items : List α) (index : Nat) : List α := slice items (index * size) ((index + 1) * size)

/-- `torch.chunk`: blocks of the size that suffices for the number of them; the last one may be
shorter, and fewer blocks may do. -/
def chunk (chunks : Nat) (items : List α) : Option (List (List α)) :=
  if chunks = 0 then none
  else if items.length = 0 then some (List.replicate chunks [])
  else
    let size := (items.length + chunks - 1) / chunks
    some ((List.range ((items.length + size - 1) / size)).map (block size items))

/-- Write blocks into a buffer, one behind the other. -/
def copyBlocks (count size : Nat) (part : List α → Nat → Option (List α)) (buffer : List α) : Option (List α) :=
  (List.range count).foldlM (fun buffer index => do assign buffer (index * size) ((index + 1) * size) (← part buffer index)) buffer

theorem block_length {size count : Nat} {items : List α} (whole : items.length = count * size) {index : Nat} (inside : index < count) :
    (block size items index).length = size := by
  have bound := Nat.mul_le_mul_right size inside
  rw [block, slice_length, whole, Nat.min_eq_left bound, Nat.succ_mul, Nat.add_sub_cancel_left]

theorem blocks_take (size count : Nat) (items : List α) :
    (range count).flatMap (block size items) = items.take (count * size) := by
  induction count with
  | zero => simp
  | succ count ih =>
    have grows := Nat.mul_le_mul_right size (Nat.le_succ count)
    have front : (items.take ((count + 1) * size)).take (count * size) = items.take (count * size) := by
      rw [take_take, Nat.min_eq_left grows]
    rw [range_succ, flatMap_append, ih, flatMap_singleton, block, slice, ← front]
    exact take_append_drop _ _

theorem blocks_whole {size count : Nat} {items : List α} (whole : items.length = count * size) :
    (range count).flatMap (block size items) = items := by
  rw [blocks_take, ← whole, take_length]

theorem flatMap_length {size count : Nat} {part : Nat → List α} (sizes : ∀ index < count, (part index).length = size) :
    ((range count).flatMap part).length = count * size := by
  induction count with
  | zero => simp
  | succ count ih =>
    rw [range_succ, flatMap_append, flatMap_singleton, length_append,
      ih (fun index inside => sizes index (Nat.lt_succ_of_lt inside)), sizes count (Nat.lt_succ_self count), Nat.succ_mul]

theorem block_flatMap {size count : Nat} {part : Nat → List α} (sizes : ∀ index < count, (part index).length = size) {index : Nat}
    (inside : index < count) : block size ((range count).flatMap part) index = part index := by
  apply slice_block
  · intro place member
    exact sizes place (mem_range.mp member)
  · exact getElem?_range inside

theorem block_block (size count : Nat) (items : List α) (index : Nat) {place : Nat} (inside : place < count) :
    block size (block (count * size) items index) place = block size items (index * count + place) := by
  have bound := Nat.mul_le_mul_right size inside
  apply ext_getElem?
  intro offset
  simp only [block, slice_getElem?]
  have first : (index * count + place) * size = index * (count * size) + place * size := by
    rw [Nat.add_mul, Nat.mul_assoc]
  have last : (index * count + place + 1) * size = index * (count * size) + (place + 1) * size := by
    rw [Nat.add_assoc, Nat.add_mul, Nat.mul_assoc]
  have outer : (index + 1) * (count * size) = index * (count * size) + count * size := Nat.succ_mul _ _
  rw [first, last, outer]
  have bound : (place + 1) * size ≤ count * size := bound
  by_cases within : place * size + offset < (place + 1) * size
  · rw [if_pos within, if_pos (by omega), if_pos (by omega), Nat.add_assoc]
  · rw [if_neg within, if_neg (by omega)]

theorem flatMap_range_mul (outer count : Nat) (part : Nat → List α) :
    (range outer).flatMap (fun index => (range count).flatMap (fun place => part (index * count + place))) =
      (range (outer * count)).flatMap part := by
  induction outer with
  | zero => simp
  | succ outer ih =>
    rw [range_succ, flatMap_append, ih, flatMap_singleton, Nat.succ_mul, range_add, flatMap_append,
      flatMap_map]

theorem chunk_even {chunks size : Nat} {items : List α} (some : 0 < chunks) (whole : items.length = chunks * size) :
    chunk chunks items = Option.some ((range chunks).map (block size items)) := by
  rw [chunk, if_neg (by omega)]
  split
  · rename_i empty
    have nil := eq_nil_of_length_eq_zero empty
    congr 1
    apply ext_getElem
    · simp
    · intro index _ _
      simp [nil, block, slice]
  · rename_i present
    have positive : 0 < size := by
      by_cases none : size = 0
      · rw [none, Nat.mul_zero] at whole
        exact absurd whole present
      · omega
    have width : (items.length + chunks - 1) / chunks = size := by
      rw [whole, Nat.add_sub_assoc some, Nat.mul_add_div some, Nat.div_eq_of_lt (by omega), Nat.add_zero]
    have number : (items.length + size - 1) / size = chunks := by
      rw [whole, Nat.add_sub_assoc positive, Nat.mul_comm, Nat.mul_add_div positive, Nat.div_eq_of_lt (by omega), Nat.add_zero]
    simp only [width, number]

theorem copyBlocks_whole {count size : Nat} {part : List α → Nat → Option (List α)} (result : Nat → List α) {buffer : List α}
    (whole : buffer.length = count * size) (sizes : ∀ index < count, (result index).length = size)
    (parts : ∀ index < count, ∀ buffer : List α, buffer.length = count * size → part buffer index = some (result index)) :
    copyBlocks count size part buffer = some ((range count).flatMap result) := by
  have run : ∀ done ≤ count, (range done).foldlM (fun buffer index => do
      assign buffer (index * size) ((index + 1) * size) (← part buffer index)) buffer =
        some ((range done).flatMap result ++ buffer.drop (done * size)) := by
    intro done
    induction done with
    | zero => simp
    | succ done ih =>
      intro inside
      have written := flatMap_length (fun index earlier => sizes index (Nat.lt_trans earlier inside))
      have room := Nat.mul_le_mul_right size inside
      rw [Nat.succ_mul] at room
      have rest : buffer.drop (done * size) = (buffer.drop (done * size)).take size ++ buffer.drop ((done + 1) * size) := by
        rw [Nat.succ_mul, ← drop_drop, take_append_drop]
      have middle : ((buffer.drop (done * size)).take size).length = size := by
        rw [length_take, length_drop, whole]
        omega
      have step := assign_middle ((range done).flatMap result) ((buffer.drop (done * size)).take size)
        (buffer.drop ((done + 1) * size)) (result done) (by rw [middle, sizes done inside])
      rw [written, middle, append_assoc, ← rest, ← Nat.succ_mul] at step
      have length : ((range done).flatMap result ++ buffer.drop (done * size)).length = count * size := by
        rw [length_append, written, length_drop, whole]
        omega
      rw [range_succ, foldlM_append, ih (Nat.le_of_succ_le inside), flatMap_append, flatMap_singleton]
      simp only [Option.bind_eq_bind, Option.bind_some, foldlM_cons, foldlM_nil, parts done inside _ length, step]
      rfl
  have final := run count (Nat.le_refl count)
  rw [drop_eq_nil_of_le (Nat.le_of_eq whole), append_nil] at final
  exact final

end Blocks
