import LLMFusion.BalanceBatch
import LLMFusion.Proofs.DynamicBatch
import LLMFusion.Lib.Blocks

/-! Mini-batches behind the balancing. Each rank gets its part of every mini-batch in order, but the
order that keeps small micro-batches at both ends goes over all of them at once. -/

namespace LLMFusion.SeqlenBalancing
open Sorting Blocks Slices List

variable {υ : Type} [DecidableEq υ]

/-- After the equal split, block `i` of every rank has rows of mini-batch `i`, and no row is lost. -/
def KeepsMinibatches (batchSize minibatchSize dpSize : Nat) (globalIdx : List Nat) : Prop :=
  globalIdx.Perm (List.range batchSize) ∧
    ∀ rank < dpSize, ∀ i < batchSize / minibatchSize,
      ∀ row ∈ block (minibatchSize / dpSize) (block (batchSize / dpSize) globalIdx rank) i, row / minibatchSize = i

/-- Where the row at a place of the sorted partition comes to be. -/
def orderedPlace (count place : Nat) : Nat := if place % 2 = 0 then place / 2 else count - 1 - place / 2

theorem everySecond_getElem? {α : Type} (items : List α) (place : Nat) : (everySecond items)[place]? = items[2 * place]? := by
  induction items using everySecond.induct generalizing place with
  | case1 => simp [everySecond]
  | case2 item => cases place <;> simp [everySecond]
  | case3 item other rest ih =>
    cases place with
    | zero => simp [everySecond]
    | succ place => simp [everySecond, ih, Nat.mul_succ]

theorem everySecond_length {α : Type} (items : List α) : (everySecond items).length = (items.length + 1) / 2 := by
  induction items using everySecond.induct with
  | case1 => simp [everySecond]
  | case2 item => simp [everySecond]
  | case3 item other rest ih =>
    simp only [everySecond, length_cons, ih]
    omega

theorem orderedPlace_surjective {count place : Nat} (inside : place < count) :
    ∃ origin < count, orderedPlace count origin = place := by
  by_cases front : 2 * place < count
  · exact ⟨2 * place, front, by simp [orderedPlace]⟩
  · refine ⟨2 * (count - 1 - place) + 1, by omega, ?_⟩
    rw [orderedPlace, if_neg (by omega)]
    omega

theorem ends_getElem? (items : List Nat) {place : Nat} (inside : place < items.length) :
    (everySecond items ++ (everySecond items.tail).reverse)[orderedPlace items.length place]? = items[place]? := by
  unfold orderedPlace
  split
  · next even =>
    rw [List.getElem?_append_left (by rw [everySecond_length]; omega), everySecond_getElem?]
    congr 1
    omega
  · next odd =>
    have length : (everySecond items.tail).length = items.length / 2 := by
      rw [everySecond_length, length_tail]
      omega
    rw [List.getElem?_append_right (by rw [everySecond_length]; omega), everySecond_length,
      List.getElem?_reverse (by rw [length]; omega), everySecond_getElem?, List.getElem?_tail, length]
    congr 1
    omega

theorem orderedPartition_perm (workloadLst partition : List Nat) : (orderedPartition workloadLst partition).Perm partition :=
  (((List.Perm.refl _).append (reverse_perm _)).trans (everySecond_perm _)).trans (sorted_perm _ _)

structure Parts (minibatchSize dpSize size : Nat) (parts : List (List Nat)) : Prop where
  count : parts.length = dpSize
  sizes : ∀ part ∈ parts, part.length = size
  indices : parts.flatten.Perm (List.range minibatchSize)

theorem Parts.listed {minibatchSize dpSize size : Nat} {parts : List (List Nat)} (valid : Parts minibatchSize dpSize size parts) :
    (range dpSize).map (fun rank => parts.getD rank []) = parts := by
  apply ext_getElem
  · rw [length_map, length_range, valid.count]
  · intro rank _ inside
    rw [getElem_map, getElem_range, getD_eq_getElem _ _ inside]

theorem balanced_parts {workloads : List Nat} {dpSize size : Nat} (ranks : 0 < dpSize) (some : 0 < size)
    (whole : workloads.length = dpSize * size) :
    ∃ parts, getSeqlenBalancedPartitions workloads dpSize true = .ok parts ∧ Parts workloads.length dpSize size parts := by
  have enough : dpSize ≤ workloads.length := whole ▸ Nat.le_mul_of_pos_right dpSize some
  obtain ⟨final, valid, returned, partition⟩ :=
    getSeqlenBalancedPartitions_final workloads dpSize true ranks enough (fun _ => ⟨size, whole⟩)
  refine ⟨_, returned, partition.count, ?_, partition.indices⟩
  intro part member
  obtain ⟨original, inside, rfl⟩ := mem_map.mp member
  have total := valid.size original inside
  rw [whole, Nat.mul_comm] at total
  rw [(sorted_perm _ original).length_eq]
  exact Nat.eq_of_mul_eq_mul_left ranks total

def rankPart (minibatchSize : Nat) (parts : Nat → List (List Nat)) (rank i : Nat) : List Nat :=
  ((parts i).getD rank []).map (· + minibatchSize * i)

def rankRows (minibatchSize : Nat) (parts : Nat → List (List Nat)) (count rank : Nat) : List Nat :=
  (List.range count).flatMap (rankPart minibatchSize parts rank)

section Rows
variable {minibatchSize dpSize size count : Nat} {parts : Nat → List (List Nat)}
  (each : ∀ i < count, Parts minibatchSize dpSize size (parts i))
include each

theorem rankPart_length {rank i : Nat} (inside : rank < dpSize) (earlier : i < count) :
    (rankPart minibatchSize parts rank i).length = size := by
  have bound : rank < (parts i).length := (each i earlier).count.symm ▸ inside
  rw [rankPart, length_map, getD_eq_getElem _ _ bound]
  exact (each i earlier).sizes _ (getElem_mem bound)

theorem rankRows_length {rank : Nat} (inside : rank < dpSize) : (rankRows minibatchSize parts count rank).length = count * size :=
  flatMap_length (fun _ earlier => rankPart_length each inside earlier)

theorem rankPart_perm {i : Nat} (earlier : i < count) :
    ((range dpSize).flatMap (fun rank => rankPart minibatchSize parts rank i)).Perm
      ((range minibatchSize).map (minibatchSize * i + ·)) := by
  have shifted : (range dpSize).flatMap (fun rank => rankPart minibatchSize parts rank i) =
      (parts i).flatten.map (· + minibatchSize * i) := by
    conv_rhs => rw [← (each i earlier).listed]
    rw [map_flatten, map_map, flatMap_def]
    rfl
  rw [shifted]
  simp only [Nat.add_comm (minibatchSize * i)]
  exact (each i earlier).indices.map _

end Rows

theorem rankRows_perm {minibatchSize dpSize size count : Nat} {parts : Nat → List (List Nat)}
    (each : ∀ i < count, Parts minibatchSize dpSize size (parts i)) :
    ((range dpSize).flatMap (rankRows minibatchSize parts count)).Perm (range (count * minibatchSize)) := by
  induction count with
  | zero => simp [rankRows]
  | succ count ih =>
    have last : ∀ rank, rankRows minibatchSize parts (count + 1) rank =
        rankRows minibatchSize parts count rank ++ rankPart minibatchSize parts rank count := by
      intro rank
      rw [rankRows, range_succ, flatMap_append, flatMap_singleton, rankRows]
    rw [flatMap_congr (fun rank _ => last rank), Nat.succ_mul, range_add, Nat.mul_comm count]
    refine (flatMap_append_perm _ _ _).symm.trans ?_
    rw [Nat.mul_comm minibatchSize count]
    apply (ih (fun i earlier => each i (Nat.lt_succ_of_lt earlier))).append
    rw [Nat.mul_comm count minibatchSize]
    exact rankPart_perm each (Nat.lt_succ_self count)

theorem minibatchPartitions_ok {config : BalanceConfig} {workloadLst : List Nat} {size count : Nat}
    (ranks : 0 < config.dpSize) (some : 0 < size) (divided : config.ppoMiniBatchSize = config.dpSize * size)
    (whole : workloadLst.length = count * config.ppoMiniBatchSize) :
    ∃ parts : Nat → List (List Nat), (∀ i < count, Parts config.ppoMiniBatchSize config.dpSize size (parts i)) ∧
      minibatchPartitions config workloadLst =
        .ok ((range config.dpSize).map (rankRows config.ppoMiniBatchSize parts count)) := by
  have positive : 0 < config.ppoMiniBatchSize := divided ▸ Nat.mul_pos ranks some
  have each : ∀ i, ∃ parts, i < count →
      getSeqlenBalancedPartitions ((workloadLst.drop (i * config.ppoMiniBatchSize)).take config.ppoMiniBatchSize) config.dpSize true =
        .ok parts ∧ Parts config.ppoMiniBatchSize config.dpSize size parts := by
    intro i
    by_cases inside : i < count
    · have bound := Nat.mul_le_mul_right config.ppoMiniBatchSize inside
      have length : ((workloadLst.drop (i * config.ppoMiniBatchSize)).take config.ppoMiniBatchSize).length =
          config.ppoMiniBatchSize := by
        rw [length_take, length_drop, whole]
        rw [Nat.succ_mul] at bound
        omega
      obtain ⟨parts, returned, valid⟩ := balanced_parts ranks some (length.trans divided)
      rw [length] at valid
      exact ⟨parts, fun _ => ⟨returned, valid⟩⟩
    · exact ⟨[], fun earlier => absurd earlier inside⟩
  choose parts each using each
  refine ⟨parts, fun i inside => (each i inside).2, ?_⟩
  have step : ∀ i < count, ∀ lst, lst = (range config.dpSize).map (rankRows config.ppoMiniBatchSize parts i) →
      ∃ next, extendPartitions config workloadLst lst i = .ok next ∧
        next = (range config.dpSize).map (rankRows config.ppoMiniBatchSize parts (i + 1)) := by
    rintro i inside _ rfl
    obtain ⟨returned, valid⟩ := each i inside
    refine ⟨_, by rw [extendPartitions, returned]; rfl, ?_⟩
    conv_lhs => rw [← valid.listed]
    rw [zipWith_map, zipWith_self]
    apply map_congr_left
    intro rank _
    rw [rankRows, rankRows, range_succ, flatMap_append, flatMap_singleton, rankPart]
  have start : replicate config.dpSize [] = (range config.dpSize).map (rankRows config.ppoMiniBatchSize parts 0) := by
    have empty : rankRows config.ppoMiniBatchSize parts 0 = fun _ => [] := rfl
    rw [empty, map_const', length_range]
  obtain ⟨final, returned, rfl⟩ := Fallible.foldlM_range _ step start
  rw [minibatchPartitions, if_neg positive.ne', whole, Nat.mul_div_cancel _ positive]
  exact returned

theorem blocks_iff {size count minibatchSize : Nat} {rows : List Nat} (some : 0 < size) (whole : rows.length = count * size) :
    (∀ i < count, ∀ row ∈ block size rows i, row / minibatchSize = i) ↔
      ∀ place row, rows[place]? = .some row → row / minibatchSize = place / size := by
  constructor
  · intro blocks place row named
    have inside : place < count * size := whole ▸ (List.getElem?_eq_some_iff.mp named).1
    apply blocks (place / size) (Nat.div_lt_of_lt_mul (Nat.mul_comm count size ▸ inside))
    apply mem_of_getElem? (i := place % size)
    have split := Nat.div_add_mod place size
    have bound := Nat.mod_lt place some
    rw [block, slice_getElem?, Nat.succ_mul, if_pos (by omega), Nat.mul_comm, split]
    exact named
  · intro places i inside row member
    obtain ⟨offset, found⟩ := mem_iff_getElem?.mp member
    rw [block, slice_getElem?] at found
    split at found
    · next within =>
      rw [places _ _ found, Nat.mul_comm, Nat.mul_add_div some]
      have bound : offset < size := by
        rw [Nat.succ_mul] at within
        omega
      rw [Nat.div_eq_of_lt bound, Nat.add_zero]
    · cases found

/-- In the order of the workloads, the rows of a rank come from the mini-batches that the places at
both ends belong to. -/
def SortsIntoPlace (config : BalanceConfig) (globalSeqlenLst : List Nat) (uids : Option (List (Option υ))) : Prop :=
  ∀ partitions, globalPartitions config globalSeqlenLst uids = .ok partitions → ∀ partition ∈ partitions, ∀ place row,
    (sorted (workloadLess (globalSeqlenLst.map calculateWorkload)) partition)[place]? = some row →
      row / config.ppoMiniBatchSize = orderedPlace partition.length place / (config.ppoMiniBatchSize / config.dpSize)

theorem orderedPartition_iff {workloadLst partition : List Nat} {size minibatchSize : Nat} :
    (∀ place row, (orderedPartition workloadLst partition)[place]? = some row → row / minibatchSize = place / size) ↔
      ∀ place row, (sorted (workloadLess workloadLst) partition)[place]? = some row →
        row / minibatchSize = orderedPlace partition.length place / size := by
  have length := (sorted_perm (workloadLess workloadLst) partition).length_eq
  rw [orderedPartition, ← length]
  constructor
  · intro ordered place row named
    have inside := (List.getElem?_eq_some_iff.mp named).1
    exact ordered _ row ((ends_getElem? _ inside).trans named)
  · intro placed place row named
    have inside : place < (sorted (workloadLess workloadLst) partition).length := by
      rw [length, ← (orderedPartition_perm workloadLst partition).length_eq]
      exact (List.getElem?_eq_some_iff.mp named).1
    obtain ⟨origin, within, rfl⟩ := orderedPlace_surjective inside
    exact placed origin row ((ends_getElem? _ within).symm.trans named)

theorem keepsMinibatches_iff {minibatchSize dpSize size count : Nat} {parts : Nat → List (List Nat)} (ranks : 0 < dpSize)
    (some : 0 < size) (divided : minibatchSize = dpSize * size) (each : ∀ i < count, Parts minibatchSize dpSize size (parts i))
    {arranged : Nat → List Nat} (perm : ∀ rank < dpSize, (arranged rank).Perm (rankRows minibatchSize parts count rank)) :
    KeepsMinibatches (count * minibatchSize) minibatchSize dpSize ((range dpSize).flatMap arranged) ↔
      ∀ rank < dpSize, ∀ place row, (arranged rank)[place]? = Option.some row → row / minibatchSize = place / size := by
  have lengths : ∀ rank < dpSize, (arranged rank).length = count * size := by
    intro rank inside
    rw [(perm rank inside).length_eq, rankRows_length each inside]
  have positive : 0 < minibatchSize := divided ▸ Nat.mul_pos ranks some
  have perRank : count * minibatchSize / dpSize = count * size := by
    rw [divided, Nat.mul_left_comm, Nat.mul_div_cancel_left _ ranks]
  have perBlock : minibatchSize / dpSize = size := by rw [divided, Nat.mul_div_cancel_left _ ranks]
  rw [KeepsMinibatches, perRank, perBlock, Nat.mul_div_cancel _ positive, and_iff_right]
  · apply forall₂_congr
    intro rank inside
    rw [block_flatMap lengths inside]
    exact blocks_iff some (lengths rank inside)
  · refine List.Perm.trans ?_ (rankRows_perm each)
    exact List.Perm.flatMap_left _ (fun rank inside => perm rank (mem_range.mp inside))

theorem rankRows_place {minibatchSize dpSize size count : Nat} {parts : Nat → List (List Nat)} (some : 0 < size)
    (each : ∀ i < count, Parts minibatchSize dpSize size (parts i)) {rank : Nat} (inside : rank < dpSize) :
    ∀ place row, (rankRows minibatchSize parts count rank)[place]? = Option.some row → row / minibatchSize = place / size := by
  apply (blocks_iff some (rankRows_length each inside)).mp
  intro i earlier row member
  rw [rankRows, block_flatMap (fun _ before => rankPart_length each inside before) earlier] at member
  obtain ⟨origin, within, rfl⟩ := mem_map.mp member
  have bound : rank < (parts i).length := (each i earlier).count.symm ▸ inside
  rw [getD_eq_getElem _ _ bound] at within
  have small : origin < minibatchSize :=
    mem_range.mp ((each i earlier).indices.subset (mem_flatten_of_mem (getElem_mem bound) within))
  have positive : 0 < minibatchSize := Nat.lt_of_le_of_lt (Nat.zero_le _) small
  rw [Nat.add_mul_div_left _ _ positive, Nat.div_eq_of_lt small, Nat.zero_add]

/-- Two mini-batches of two rows on two ranks. -/
def twoRanks : BalanceConfig := ⟨false, true, 2, 2⟩

end LLMFusion.SeqlenBalancing
