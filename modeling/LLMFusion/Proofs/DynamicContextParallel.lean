import LLMFusion.DynamicContextParallel
import LLMFusion.Lib.Blocks

/-! The split is complete exactly when the last group of ranks still gets a sequence. -/

namespace LLMFusion.DynamicContextParallel
open List

variable {Row β : Type}

/-! ### Groups of ranks -/

theorem strided_range {α : Type} {groups step start : Nat} (inside : start < step) (f : Nat → α) :
    strided start step ((range (groups * step)).map f) = (range groups).map (fun group => f (start + group * step)) := by
  have count : (groups * step - start + step - 1) / step = groups := by
    cases groups with
    | zero =>
      rw [Nat.zero_mul]
      exact Nat.div_eq_of_lt (by omega)
    | succ groups =>
      have grows : (groups + 1) * step = groups * step + step := Nat.succ_mul groups step
      have total : (groups + 1) * step - start + step - 1 = (step - 1 - start) + (groups + 1) * step := by omega
      rw [total, Nat.add_mul_div_right _ _ (by omega), Nat.div_eq_of_lt (by omega), Nat.zero_add]
  rw [strided, length_map, length_range, count]
  refine (filterMap_congr (g := some ∘ fun group => f (start + group * step)) ?_).trans
    (congrFun filterMap_eq_map _)
  intro group member
  have below : start + group * step < groups * step := by
    have last := Nat.mul_le_mul_right step (Nat.succ_le_of_lt (mem_range.mp member))
    rw [Nat.succ_mul] at last
    omega
  rw [getElem?_map, getElem?_range below]
  rfl

theorem localCpSize_pow {maxSeqLen : Nat} {capacity : Int} {size : Nat}
    (found : localCpSize maxSeqLen capacity = some size) : ∃ power, size = 2 ^ power := by
  rw [localCpSize] at found
  split at found
  · cases found
  · cases found
    exact ⟨_, Nat.one_shiftLeft _⟩

/-- How many sequences a group gets at most. -/
def perGroup (sequences groups : Nat) : Nat := (sequences + groups - 1) / groups

theorem perGroup_covers {sequences groups : Nat} (some : 0 < groups) :
    sequences ≤ groups * perGroup sequences groups := by
  have exact := Nat.div_add_mod (sequences + groups - 1) groups
  have left := Nat.mod_lt (sequences + groups - 1) some
  rw [perGroup]
  omega

theorem slice_block (batch : List Row) (size group : Nat) :
    Slices.slice batch (group * size) (min (group * size + size) batch.length) = Blocks.block size batch group := by
  rw [Blocks.block, Slices.slice, Slices.slice, ← Nat.succ_mul, ← take_take, take_length]

theorem block_nonempty {size group : Nat} {batch : List Row} (positive : 0 < size) :
    Blocks.block size batch group ≠ [] ↔ group * size < batch.length := by
  have next : (group + 1) * size = group * size + size := Nat.succ_mul group size
  rw [← length_pos_iff, Blocks.block, Slices.slice_length, next]
  omega

/-! ### What is wanted -/

/-- Functions of one sequence, for the entries of an output. -/
def outputsOf (functions : List (String × (Row → β))) (rows : List Row) : List (String × List β) :=
  functions.map (fun entry => (entry.1, rows.map entry.2))

theorem get_outputsOf {functions : List (String × (Row → β))} (distinct : (functions.map Prod.fst).Nodup)
    {entry : String × (Row → β)} (member : entry ∈ functions) (rows : List Row) :
    Dictionary.get (outputsOf functions rows) entry.1 = some (rows.map entry.2) := by
  have keys : ((outputsOf functions rows).map Prod.fst).Nodup := by
    rw [outputsOf, map_map]
    exact distinct
  exact (Dictionary.mem_iff_get keys).mp (mem_map_of_mem member)

/-- Every rank gets sequences, the ranks of a group get the same ones, the groups have all of them in order, and merging gives
every rank the outputs of the whole batch. -/
structure Distributed (batch : List Row) (dpSize localCpSize : Nat) (subBatch : Nat → SubBatch Row) : Prop where
  nonempty : ∀ rank < dpSize, (subBatch rank).rows ≠ []
  size : ∀ rank < dpSize, (subBatch rank).localCpSize.getD dpSize = localCpSize
  same : ∀ rank < dpSize, ∀ rank' < dpSize, rank / localCpSize = rank' / localCpSize →
    (subBatch rank).rows = (subBatch rank').rows
  whole : (List.range (dpSize / localCpSize)).flatMap (fun group => (subBatch (group * localCpSize)).rows) =
    batch
  merged : ∀ {β : Type} (functions : List (String × (Row → β))), (functions.map Prod.fst).Nodup →
    ∀ rank < dpSize,
    mergeModelOutput (fun rank => outputsOf functions (subBatch rank).rows) dpSize rank
      (subBatch rank).localCpSize =
      outputsOf functions batch

theorem distributed_whole {batch : List Row} (some : batch ≠ []) {dpSize : Nat} (positive : 0 < dpSize)
    {localCpSize : Option Nat} (single : localCpSize.getD dpSize = dpSize) :
        Distributed batch dpSize dpSize (fun _ => ⟨batch, localCpSize⟩) := by
  refine ⟨fun _ _ => some, fun _ _ => single, fun _ _ _ _ _ => rfl, ?_, ?_⟩
  · rw [Nat.div_self positive]
    exact append_nil batch
  · intro β functions _ rank _
    cases localCpSize with
    | none => rfl
    | some size => exact if_pos single

theorem distributed_blocks {batch : List Row} {groups size count : Nat} (ranks : 0 < size)
    (several : size < groups * size)
    (covers : batch.length ≤ groups * count) (last : (groups - 1) * count < batch.length) :
    Distributed batch (groups * size) size (fun rank => ⟨Blocks.block count batch (rank / size), some size⟩) := by
  have positive : 0 < count := by
    cases count with
    | zero => omega
    | succ count => exact Nat.zero_lt_succ count
  have inside : ∀ rank < groups * size, rank / size < groups :=
    fun rank below => (Nat.div_lt_iff_lt_mul ranks).mpr below
  have whole : (range groups).flatMap (Blocks.block count batch) = batch := by
    rw [Blocks.blocks_take, take_of_length_le covers]
  refine ⟨?_, fun _ _ => rfl, ?_, ?_, ?_⟩
  · intro rank below
    refine (block_nonempty positive).mpr ?_
    have earlier := Nat.mul_le_mul_right count (Nat.le_sub_one_of_lt (inside rank below))
    omega
  · intro rank _ rank' _ together
    exact congrArg (Blocks.block count batch) together
  · rw [Nat.mul_div_cancel _ ranks]
    refine Eq.trans (flatMap_congr (fun group _ => ?_)) whole
    exact congrArg (Blocks.block count batch) (Nat.mul_div_cancel group ranks)
  · intro β functions distinct rank _
    have apart : size ≠ groups * size := Nat.ne_of_lt several
    rw [mergeModelOutput, dynamicCpMergeOutput, if_neg apart, outputsOf, map_map]
    apply map_congr_left
    intro entry member
    have gathered : (fun rank => (Dictionary.get
      (outputsOf functions (Blocks.block count batch (rank / size))) entry.1).getD []) =
        fun rank => (Blocks.block count batch (rank / size)).map entry.2 := by
      funext rank
      rw [get_outputsOf distinct member, Option.getD_some]
    have below := Nat.mod_lt rank ranks
    have group : ∀ group, (rank % size + group * size) / size = group := by
      intro group
      rw [Nat.add_mul_div_right _ _ ranks, Nat.div_eq_of_lt below, Nat.zero_add]
    have merged : (strided (rank % size) size ((range (groups * size)).map
        (fun rank => (Blocks.block count batch (rank / size)).map entry.2))).flatten = batch.map entry.2 := by
      rw [strided_range below]
      simp only [group]
      rw [← flatMap_def, ← map_flatMap, whole]
    simp only [Function.comp_apply, gathered, merged]

/-! ### When every group has sequences -/

/-- The assertion of the code holds, where it is reached. -/
def Accepted (seqLen : Row → Nat) (capacity : Int) (dpSize : Nat) (batch : List Row) : Prop :=
  ∀ maxSeqLen, (batch.map seqLen).max? = some maxSeqLen → batch.length < dpSize ∨
    ∃ size, localCpSize maxSeqLen capacity = some size ∧ size ≤ dpSize

/-- There are sequences; they are not split, or the last group starts before their end. -/
def Filled (seqLen : Row → Nat) (capacity : Int) (dpSize : Nat) (batch : List Row) : Prop :=
  ∃ maxSeqLen, (batch.map seqLen).max? = some maxSeqLen ∧ (batch.length < dpSize ∨
    ∃ size, localCpSize maxSeqLen capacity = some size ∧
      (size = dpSize ∨ (dpSize / size - 1) * perGroup batch.length (dpSize / size) < batch.length))

variable {seqLen : Row → Nat} {capacity : Int} {batch : List Row}

theorem max_some (seqLen : Row → Nat) (some : batch ≠ []) :
    ∃ maxSeqLen, (batch.map seqLen).max? = Option.some maxSeqLen := by
  cases longest : (batch.map seqLen).max? with
  | none => exact (some (map_eq_nil_iff.mp (max?_eq_none_iff.mp longest))).elim
  | some maxSeqLen => exact ⟨maxSeqLen, rfl⟩

section
variable {maxSeqLen size groups : Nat} (longest : (batch.map seqLen).max? = some maxSeqLen)
  (found : localCpSize maxSeqLen capacity = some size) (ranks : 0 < size) (several : size < groups * size)
  (enough : groups * size ≤ batch.length)
include maxSeqLen size groups longest found ranks several enough

theorem split_groups (rank : Nat) :
    dynamicCpSplitBatch seqLen capacity (groups * size) rank batch =
      if (Blocks.block (perGroup batch.length groups) batch (rank / size)).isEmpty then .error .noTensors
      else .ok ⟨Blocks.block (perGroup batch.length groups) batch (rank / size), some size⟩ := by
  simp only [dynamicCpSplitBatch, longest, found, indexSelectTensorDict, if_neg (Nat.not_lt.mpr enough),
    if_neg (Nat.lt_asymm several), if_pos several, Nat.mul_div_cancel _ ranks]
  have block := slice_block batch (perGroup batch.length groups) (rank / size)
  rw [perGroup] at block ⊢
  rw [block]
  split
  · rfl
  · rfl

theorem split_iff : (∃ subBatch localCpSize, (∀ rank < groups * size,
        dynamicCpSplitBatch seqLen capacity (groups * size) rank batch = .ok (subBatch rank)) ∧
      Distributed batch (groups * size) localCpSize subBatch) ↔
          (groups - 1) * perGroup batch.length groups < batch.length := by
  have present : 0 < groups := Nat.pos_of_mul_pos_right (Nat.lt_of_le_of_lt (Nat.zero_le _) several)
  have covers : batch.length ≤ groups * perGroup batch.length groups := perGroup_covers present
  have positive : 0 < perGroup batch.length groups := by
    refine Nat.pos_of_mul_pos_left (a := groups) (Nat.lt_of_lt_of_le ?_ covers)
    omega
  constructor
  · rintro ⟨subBatch, _, returned, _⟩
    have place : (groups - 1) * size < groups * size :=
      Nat.mul_lt_mul_of_pos_right (Nat.sub_lt present Nat.one_pos) ranks
    have last := returned ((groups - 1) * size) place
    rw [split_groups longest found ranks several enough, Nat.mul_div_cancel _ ranks] at last
    split at last
    · cases last
    · next some =>
      exact (block_nonempty positive).mp (fun none => some (isEmpty_iff.mpr none))
  · intro last
    have distributed := distributed_blocks ranks several covers last
    refine ⟨_, size, fun rank below => ?_, distributed⟩
    have some := distributed.nonempty rank below
    rw [split_groups longest found ranks several enough]
    exact if_neg (fun none => some (isEmpty_iff.mp none))

end

end LLMFusion.DynamicContextParallel
