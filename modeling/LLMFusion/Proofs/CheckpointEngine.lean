import LLMFusion.CheckpointEngine

/-! Splitting weights and merging the chunks gives the weights that have bytes. -/

namespace LLMFusion.CheckpointEngine
open Fallible

variable {memory : Nat → UInt8} {bucketSize : Nat} {weight : Weight}

def transferred (weights : List Weight) : List (String × Tensor) :=
  (weights.filter (fun weight => weight.tensor.nbytes ≠ 0)).map (fun weight => (weight.name, weight.tensor))

/-! ### Rounds of the loop -/

theorem splitLoop_end (bucketSize : Nat) {rounds chunkOffset : Nat} (ends : weight.tensor.nbytes ≤ chunkOffset) :
    splitLoop bucketSize weight rounds chunkOffset = [] := by
  cases rounds with
  | zero => rfl
  | succ rounds => rw [splitLoop, if_neg (Nat.not_lt.mpr ends)]

theorem splitLoop_round (bucketSize : Nat) {rounds chunkOffset : Nat} (inside : chunkOffset < weight.tensor.nbytes)
    (enough : weight.tensor.nbytes - chunkOffset ≤ rounds) :
    let chunkSize := min bucketSize (weight.tensor.nbytes - chunkOffset)
    splitLoop bucketSize weight rounds chunkOffset =
      (weight.chunkMeta chunkOffset chunkSize, weight.buffer.slice chunkOffset (chunkOffset + chunkSize)) ::
        splitLoop bucketSize weight (rounds - 1) (chunkOffset + chunkSize) := by
  cases rounds with
  | zero => omega
  | succ rounds => rw [splitLoop, if_pos inside, Nat.add_sub_cancel]

/-! ### Weights that fit -/

theorem view_whole (weight : Weight) :
    (weight.buffer.slice 0 weight.tensor.nbytes).view weight.tensor.shape weight.tensor.dtype = .ok weight.tensor := by
  have bytes : Slices.slice weight.tensor.bytes 0 weight.tensor.nbytes = weight.tensor.bytes :=
    Slices.slice_full _ _ (Nat.le_of_eq weight.tensor.sized)
  rw [Chunk.view, if_pos (by simp [Chunk.slice, Weight.buffer])]
  simp only [Chunk.slice, Weight.buffer, bytes]
  rw [dif_pos weight.tensor.sized]

theorem splitWeight_small (some : weight.tensor.nbytes ≠ 0) (fits : weight.tensor.nbytes ≤ bucketSize) :
    splitWeight bucketSize weight =
      [(weight.chunkMeta 0 weight.tensor.nbytes, weight.buffer.slice 0 weight.tensor.nbytes)] := by
  rw [splitWeight, splitLoop_round bucketSize (Nat.pos_of_ne_zero some) (Nat.sub_le _ _), Nat.sub_zero,
    Nat.min_eq_right fits, Nat.zero_add, splitLoop_end bucketSize (Nat.le_refl _)]

private theorem merge_small (some : weight.tensor.nbytes ≠ 0) (fits : weight.tensor.nbytes ≤ bucketSize)
    (rest : List (TensorMeta × Chunk)) :
    mergeLoop memory bucketSize none (splitWeight bucketSize weight ++ rest) =
      mergeLoop memory bucketSize none rest >>= fun merged => .ok ((weight.name, weight.tensor) :: merged) := by
  have whole : mergeChunk memory bucketSize none (weight.chunkMeta 0 weight.tensor.nbytes)
      (weight.buffer.slice 0 weight.tensor.nbytes) = .ok (none, [(weight.name, weight.tensor)]) := by
    rw [mergeChunk, if_pos (show (weight.chunkMeta 0 weight.tensor.nbytes).nbytes ≤ bucketSize from fits)]
    simp only [Option.isSome_none, Bool.false_eq_true, if_false, Weight.chunkMeta, view_whole, ok_bind]
  rw [splitWeight_small some fits, List.singleton_append, mergeLoop, whole]
  rfl

/-! ### Weights that do not fit -/

def copied (memory : Nat → UInt8) (tensor : Tensor) (offset : Nat) : Tensor where
  shape := tensor.shape
  dtype := tensor.dtype
  bytes := tensor.bytes.take offset ++ (Tensor.empty memory tensor.shape tensor.dtype).bytes.drop offset
  sized := by
    have sized := tensor.sized
    have blank := (Tensor.empty memory tensor.shape tensor.dtype).sized
    simp only [List.length_append, List.length_take, List.length_drop]
    change min offset tensor.bytes.length + (_ - offset) = _
    rw [blank, sized]
    simp only [Tensor.empty]
    omega

theorem copied_zero (tensor : Tensor) : copied memory tensor 0 = .empty memory tensor.shape tensor.dtype := by
  simp [copied, Tensor.empty]

theorem copied_all (tensor : Tensor) : copied memory tensor tensor.nbytes = tensor := by
  have whole : tensor.bytes.take tensor.nbytes = tensor.bytes := List.take_of_length_le (Nat.le_of_eq tensor.sized)
  have nothing : (Tensor.empty memory tensor.shape tensor.dtype).bytes.drop tensor.nbytes = [] :=
    List.drop_eq_nil_of_le (Nat.le_of_eq (Tensor.empty memory tensor.shape tensor.dtype).sized)
  cases tensor
  simp only [copied, whole, nothing, List.append_nil]

private theorem write_copied (memory : Nat → UInt8) {start stop : Nat} (ordered : start ≤ stop) (inside : stop ≤ weight.tensor.nbytes) :
    (copied memory weight.tensor start).write start stop (weight.buffer.slice start stop) =
      .ok (copied memory weight.tensor stop) := by
  have written : Slices.assign (copied memory weight.tensor start).bytes start stop (weight.buffer.slice start stop).bytes =
      some (copied memory weight.tensor stop).bytes :=
    Slices.assign_copied
      ((Tensor.empty memory weight.tensor.shape weight.tensor.dtype).sized.trans weight.tensor.sized.symm) ordered
      (Nat.le_trans inside (Nat.le_of_eq weight.tensor.sized.symm))
  rw [Tensor.write, written]
  exact dif_pos (copied memory weight.tensor stop).sized

/-- The state of the loop when a weight is merged up to an offset. -/
private def merging (memory : Nat → UInt8) (weight : Weight) (offset : Nat) : Option Merge :=
  if offset = 0 then none else some ⟨weight.name, copied memory weight.tensor offset, offset⟩

private theorem merging_getD (offset : Nat) :
    (merging memory weight offset).getD ⟨weight.name, .empty memory weight.tensor.shape weight.tensor.dtype, 0⟩ =
      ⟨weight.name, copied memory weight.tensor offset, offset⟩ := by
  rw [merging]
  split
  · rename_i start
    rw [start, copied_zero]
    rfl
  · rfl

private theorem mergeChunk_large (memory : Nat → UInt8) (large : bucketSize < weight.tensor.nbytes) {offset size : Nat}
    (some : 0 < size) (inside : offset + size ≤ weight.tensor.nbytes) :
    mergeChunk memory bucketSize (merging memory weight offset) (weight.chunkMeta offset size)
        (weight.buffer.slice offset (offset + size)) =
      .ok (if offset + size = weight.tensor.nbytes then (none, [(weight.name, weight.tensor)])
        else (merging memory weight (offset + size), [])) := by
  have begun : ¬ ((merging memory weight offset).isNone ∧ offset ≠ 0) := by
    rintro ⟨none, later⟩
    simp [merging, later] at none
  have written := write_copied memory (Nat.le_add_right offset size) inside
  rw [mergeChunk, if_neg (show ¬ (weight.chunkMeta offset size).nbytes ≤ bucketSize from Nat.not_le.mpr large),
    if_neg (show ¬ ((merging memory weight offset).isNone ∧ (weight.chunkMeta offset size).chunkOffset ≠ 0) from begun)]
  simp only [Weight.chunkMeta, merging_getD, ne_eq, not_true, or_self, if_false, written, ok_bind]
  change (if offset + size = weight.tensor.nbytes then _ else _) = _
  by_cases ends : offset + size = weight.tensor.nbytes
  · rw [if_pos ends, if_pos ends, ends, copied_all]
  · rw [if_neg ends, if_neg ends, merging, if_neg (by omega)]

private theorem merge_large (memory : Nat → UInt8) (positive : 0 < bucketSize) (large : bucketSize < weight.tensor.nbytes)
    (rest : List (TensorMeta × Chunk)) {rounds offset : Nat} (enough : weight.tensor.nbytes - offset ≤ rounds)
    (inside : offset < weight.tensor.nbytes) :
    mergeLoop memory bucketSize (merging memory weight offset) (splitLoop bucketSize weight rounds offset ++ rest) =
      mergeLoop memory bucketSize none rest >>= fun merged => .ok ((weight.name, weight.tensor) :: merged) := by
  induction rounds generalizing offset with
  | zero => omega
  | succ rounds ih =>
    rw [splitLoop_round bucketSize inside enough, List.cons_append, mergeLoop,
      mergeChunk_large memory large (by omega) (by omega), ok_bind, Nat.add_sub_cancel]
    by_cases ends : offset + min bucketSize (weight.tensor.nbytes - offset) = weight.tensor.nbytes
    · rw [if_pos ends, splitLoop_end bucketSize (Nat.le_of_eq ends.symm)]
      rfl
    · rw [if_neg ends, ih (by omega) (by omega)]
      cases mergeLoop memory bucketSize none rest with
      | ok merged => rfl
      | error failure => rfl

/-! ### All weights -/

theorem merge_split (memory : Nat → UInt8) (positive : 0 < bucketSize) (weights : List Weight) :
    mergeWeightChunks memory (splitWeightChunks weights bucketSize) bucketSize = .ok (transferred weights) := by
  rw [mergeWeightChunks]
  induction weights with
  | nil => rfl
  | cons weight weights ih =>
    rw [splitWeightChunks] at ih ⊢
    rw [List.flatMap_cons]
    by_cases empty : weight.tensor.nbytes = 0
    · have nothing : splitWeight bucketSize weight = [] := by rw [splitWeight, empty, splitLoop]
      rw [nothing, List.nil_append, ih]
      simp [transferred, empty]
    · have merged : mergeLoop memory bucketSize none (splitWeight bucketSize weight ++ weights.flatMap (splitWeight bucketSize)) =
          mergeLoop memory bucketSize none (weights.flatMap (splitWeight bucketSize)) >>= fun merged =>
            .ok ((weight.name, weight.tensor) :: merged) := by
        by_cases fits : weight.tensor.nbytes ≤ bucketSize
        · exact merge_small empty fits _
        · exact merge_large memory positive (Nat.not_le.mp fits) _ (Nat.le_refl _) (Nat.pos_of_ne_zero empty)
      rw [merged, ih]
      simp [transferred, empty]

/-- The weights come back exactly when none of them is empty. -/
theorem merge_split_iff (positive : 0 < bucketSize) (memory : Nat → UInt8) (weights : List Weight) :
    mergeWeightChunks memory (splitWeightChunks weights bucketSize) bucketSize =
        .ok (weights.map (fun weight => (weight.name, weight.tensor))) ↔
      ∀ weight ∈ weights, weight.tensor.shape.prod ≠ 0 := by
  have itemsize : ∀ weight : Weight, weight.tensor.nbytes ≠ 0 ↔ weight.tensor.shape.prod ≠ 0 := by
    intro weight
    have positive := weight.tensor.dtype.positive
    rw [Tensor.nbytes, ne_eq, Nat.mul_eq_zero]
    omega
  rw [merge_split memory positive, Except.ok.injEq]
  constructor
  · intro same
    have lengths := congrArg List.length same
    rw [transferred, List.length_map, List.length_map, List.length_filter_eq_length_iff] at lengths
    exact fun weight member => (itemsize weight).mp (by simpa using lengths weight member)
  · intro some
    rw [transferred, List.filter_eq_self.mpr]
    exact fun weight member => by simpa using (itemsize weight).mpr (some weight member)

private def float32 : DType := ⟨"float32", 4, by decide⟩

private def pair : Weight := ⟨"pair", ⟨[2], float32, [1, 2, 3, 4, 5, 6, 7, 8], rfl⟩, 0⟩

private def nothing : Weight := ⟨"nothing", ⟨[0, 3], float32, [], rfl⟩, 0⟩

theorem merge_split_iff_pair :
    mergeWeightChunks (fun _ => 0) (splitWeightChunks [pair] 3) 3 = .ok [("pair", pair.tensor)] ↔
      ∀ weight ∈ [pair], weight.tensor.shape.prod ≠ 0 :=
  merge_split_iff (by decide) (fun _ => 0) [pair]

/-- An empty weight is lost. -/
theorem empty_weight_lost :
    mergeWeightChunks (fun _ => 0) (splitWeightChunks [nothing, pair] 8) 8 = .ok [("pair", pair.tensor)] := by
  decide

end LLMFusion.CheckpointEngine
