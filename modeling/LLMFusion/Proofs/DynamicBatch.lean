import LLMFusion.DynamicBatch
import LLMFusion.Proofs.BalancedPartitions
import LLMFusion.Proofs.AggLoss

/-! Splitting a batch into micro-batches loses nothing: restoring the outputs of the
micro-batches gives the output of the batch, whatever was chosen in between. -/

namespace LLMFusion.SeqlenBalancing
open Sorting Differencing KarmarkarKarp Gather Fallible
open List hiding Vector

theorem everySecond_perm {α : Type} (items : List α) : (everySecond items ++ everySecond items.tail).Perm items := by
  induction items using everySecond.induct with
  | case1 => exact .refl _
  | case2 item => exact .refl _
  | case3 item other rest ih =>
    have tail : everySecond (other :: rest) = other :: everySecond rest.tail := by
      cases rest <;> rfl
    simp only [everySecond, tail_cons, tail, cons_append]
    exact (perm_middle.trans (ih.cons other)).cons item

theorem balanceOrder_perm (workload : List Nat → Nat) (microBszIdx : List (List Nat)) :
    (balanceOrder workload microBszIdx).Perm microBszIdx :=
  ((reverse_perm _).append (.refl _)).trans
    ((everySecond_perm _).trans (sortedReverse_perm _ _))

theorem getReverseIdx_inverse {idxMap : List Nat} (perm : idxMap.Perm (range idxMap.length)) :
    ∃ reverse, getReverseIdx idxMap = .ok reverse ∧ Inverse idxMap reverse := by
  have firsts : idxMap.zipIdx.map Prod.fst = idxMap := zipIdx_map_fst ..
  have distinct : idxMap.Nodup := perm.nodup_iff.mpr nodup_range
  have inside : ∀ idx ∈ idxMap, idx < idxMap.length :=
    fun idx member => mem_range.mp (perm.mem_iff.mp member)
  obtain ⟨reverse, written, length, values, _⟩ := scatter_spec idxMap idxMap.zipIdx
    (fun entry member => inside _ (fst_mem_of_mem_zipIdx member)) (by rwa [firsts])
  have left : ∀ i (_ : i < idxMap.length), reverse[idxMap[i]]? = some i :=
    fun i bound => values (idxMap[i], i) (by simp [mem_zipIdx_iff_getElem?])
  refine ⟨reverse, by rw [getReverseIdx, written], length, left, ?_⟩
  intro j bound
  have named : j ∈ idxMap := perm.mem_iff.mpr (mem_range.mpr (by omega))
  obtain ⟨i, position, rfl⟩ := mem_iff_getElem.mp named
  have same := left i position
  rw [getElem?_eq_getElem bound, Option.some.injEq] at same
  simp [same]

/-- What every returned list of index lists satisfies. `size` is the group size. -/
structure Arranged (batchSize size : Nat) (microBszIdx : List (List Nat)) : Prop where
  nonempty : ∀ partition ∈ microBszIdx, partition ≠ []
  indices : microBszIdx.flatten.Perm (List.range batchSize)
  blocks : ∀ group < batchSize / size, ∃ partition ∈ microBszIdx, groupRows size group <:+: partition

theorem Arranged.perm {batchSize size : Nat} {microBszIdx other : List (List Nat)}
    (arranged : Arranged batchSize size microBszIdx) (perm : other.Perm microBszIdx) :
    Arranged batchSize size other where
  nonempty partition member := arranged.nonempty partition (perm.mem_iff.mp member)
  indices := perm.flatten.trans arranged.indices
  blocks group inside := by
    obtain ⟨partition, member, block⟩ := arranged.blocks group inside
    exact ⟨partition, perm.mem_iff.mpr member, block⟩

theorem restore_rows {ρ β : Type} (f : ρ → β) {rows : List ρ} {parts : List (List ρ)}
    {batchIdxList : List (List Nat)} (perm : batchIdxList.flatten.Perm (range rows.length))
    (selected : List.Forall₂ (fun idx part => gather rows idx = some part) batchIdxList parts) :
    restoreDynamicBatch (parts.map (map f)).flatten batchIdxList = .ok (rows.map f) := by
  have whole : batchIdxList.flatten.length = rows.length := by simpa using perm.length_eq
  have all := gather_flatten selected
  have mapped : gather (rows.map f) batchIdxList.flatten = some (parts.map (map f)).flatten := by
    rw [gather_map, all, Option.map_some, ← map_flatten]
  obtain ⟨reverse, built, inverse⟩ := getReverseIdx_inverse (by rwa [whole])
  have back := gather_inverse inverse (by simpa using whole) mapped
  have sameLength : ¬ batchIdxList.flatten.length ≠ (parts.map (map f)).flatten.length := by
    rw [gather_length mapped]
    simp
  simp only [restoreDynamicBatch, sameLength, ite_false, built, ok_bind, back]
  rfl

/-! ### Groups of rows -/

theorem groupRows_range (size groups : Nat) : (range groups).flatMap (groupRows size) = range (groups * size) := by
  induction groups with
  | zero => simp
  | succ groups ih =>
    rw [range_succ, flatMap_append, ih, Nat.succ_mul, range_add]
    simp [groupRows, range'_eq_map_range]

private theorem flatMap_infix {f : Nat → List Nat} {groups : List Nat} {group : Nat}
    (member : group ∈ groups) : f group <:+: groups.flatMap f := by
  obtain ⟨before, after, rfl⟩ := append_of_mem member
  exact ⟨before.flatMap f, after.flatMap f, by simp⟩

/-- Expanding a partition of the groups gives a partition of the rows that never
splits a group. -/
theorem arranged_groups {size groups k : Nat} {groupIdx : List (List Nat)} (positive : 0 < size)
    (partition : Partition groups k groupIdx) :
    Arranged (groups * size) size (groupIdx.map (fun part => part.flatMap (groupRows size))) where
  nonempty := by
    intro rows member
    obtain ⟨part, inside, rfl⟩ := mem_map.mp member
    intro empty
    obtain ⟨group, rest, rfl⟩ := exists_cons_of_ne_nil (partition.nonempty part inside)
    have none := flatMap_eq_nil_iff.mp empty group (by simp)
    simp only [groupRows, range'_eq_nil_iff] at none
    omega
  indices := by
    have joined : (groupIdx.map (fun part => part.flatMap (groupRows size))).flatten =
        groupIdx.flatten.flatMap (groupRows size) := by
      rw [← flatMap_def, flatten_eq_flatMap, flatMap_assoc]
      rfl
    rw [joined, ← groupRows_range size groups]
    exact partition.indices.flatMap_right _
  blocks := by
    intro group inside
    rw [Nat.mul_div_cancel _ positive] at inside
    obtain ⟨part, member, named⟩ := (partition.covers group).mpr inside
    exact ⟨_, mem_map.mpr ⟨part, member, rfl⟩, flatMap_infix named⟩

private theorem groupWorkloads_one (workloads : List Nat) :
    groupWorkloads 1 workloads.length workloads = workloads := by
  apply ext_getElem (by simp [groupWorkloads])
  intro index first second
  simp [groupWorkloads, take_one, head?_drop, second]

private theorem groupRows_one (groupIdx : List (List Nat)) :
    groupIdx.map (fun part => part.flatMap (groupRows 1)) = groupIdx := by
  have single : groupRows 1 = fun group => [group] := by
    funext group
    simp [groupRows]
  simp [single]

/-- The index lists are an expanded balanced partition of the group workloads, with
and without groups. -/
theorem partitionRows_ok {lengths : List Nat} {count forceGroupSize : Int} {groups size : Nat}
    (grouped : forceGroupSize = size) (positive : 0 < size) (whole : groups * size = lengths.length)
    (atLeast : 1 ≤ count) (atMost : count ≤ groups) :
    ∃ groupIdx, getSeqlenBalancedPartitions (groupWorkloads size groups (lengths.map calculateWorkload))
        count.toNat false = .ok groupIdx ∧ Partition groups count.toNat groupIdx ∧
      ∃ workload, partitionRows lengths count forceGroupSize groups =
        .ok (groupIdx.map (fun part => part.flatMap (groupRows size)), workload) := by
  have length : (groupWorkloads size groups (lengths.map calculateWorkload)).length = groups := by
    simp [groupWorkloads]
  obtain ⟨final, _, returned, partition⟩ := getSeqlenBalancedPartitions_final
    (groupWorkloads size groups (lengths.map calculateWorkload)) count.toNat false
    (by omega) (by omega) (by simp)
  rw [length] at partition
  have notNegative : ¬ count < 0 := by omega
  by_cases many : 1 < forceGroupSize
  · have sizeNat : forceGroupSize.toNat = size := by omega
    refine ⟨_, returned, partition, ?_⟩
    simp only [partitionRows, many, ite_true, partitionsOfInt, notNegative, ite_false, sizeNat,
      Int.toNat_natCast, returned]
    exact ⟨_, rfl⟩
  · have one : size = 1 := by omega
    subst size
    have all : groups = (lengths.map calculateWorkload).length := by simp; omega
    have same := groupWorkloads_one (lengths.map calculateWorkload)
    rw [← all] at same
    refine ⟨_, returned, partition, ?_⟩
    rw [same] at returned
    simp only [partitionRows, many, ite_false, partitionsOfInt, notNegative, returned, groupRows_one]
    exact ⟨_, rfl⟩

/-! ### The batches that are accepted -/

/-- The assertions of `rearrange_micro_batches`, for a batch with at least one
micro-batch: without one the partitioner has no set to put a row in. -/
structure Accepted {ρ : Type} (batch : Batch ρ) (args : Arguments) (count : Int) : Prop where
  maxSeqLen : ∃ maxSeqLen, batch.maxSeqLen = .ok maxSeqLen ∧ (maxSeqLen : Int) ≤ args.maxTokenLen
  forceGroupSize : args.forceGroupSize ≠ 0 ∧
    (batch.seqLenEffective.length : Int).fmod args.forceGroupSize = 0
  counted : numMicroBatches args ((batch.seqLenEffective.length : Int).fdiv args.forceGroupSize)
    batch.seqLenEffective.sum = .ok count
  atMost : count ≤ (batch.seqLenEffective.length : Int).fdiv args.forceGroupSize
  atLeast : 1 ≤ count

section Accepted
variable {ρ : Type} {batch : Batch ρ} {args : Arguments} {count : Int}

theorem Batch.seqLenEffective_length (batch : Batch ρ) : batch.seqLenEffective.length = batch.rows.length := by
  cases batch <;> simp [Batch.seqLenEffective, Batch.rows]

theorem Accepted.groups (accepted : Accepted batch args count) :
    ∃ size groups : Nat, args.forceGroupSize = size ∧ 0 < size ∧ groups * size = batch.rows.length ∧
      (batch.seqLenEffective.length : Int).fdiv args.forceGroupSize = groups := by
  obtain ⟨nonzero, divides⟩ := accepted.forceGroupSize
  rw [batch.seqLenEffective_length] at divides ⊢
  have positive : 0 < args.forceGroupSize := by
    by_contra negative
    have bound := Int.fdiv_nonpos_of_nonneg_of_nonpos (Int.natCast_nonneg batch.rows.length)
      (Int.not_lt.mp negative)
    have atMost := accepted.atMost
    have atLeast := accepted.atLeast
    rw [batch.seqLenEffective_length] at atMost
    omega
  obtain ⟨size, same⟩ := Int.eq_ofNat_of_zero_le (Int.le_of_lt positive)
  rw [same] at divides positive ⊢
  rw [Int.fmod_eq_emod_of_nonneg _ (by omega)] at divides
  have exact : batch.rows.length % size = 0 := by exact_mod_cast divides
  refine ⟨size, batch.rows.length / size, rfl, by omega, Nat.div_mul_cancel (Nat.dvd_of_mod_eq_zero exact), ?_⟩
  exact (Int.ofNat_fdiv _ _).symm

/-- One micro-batch holds the rows and the lengths that its indices name. -/
def Selects (batch : Batch ρ) (indices : List Nat) (selected : Batch ρ) : Prop :=
  gather batch.rows indices = some selected.rows ∧
    gather batch.seqLenEffective indices = some selected.seqLenEffective

theorem indexSelect_ok {indices : List Nat} (inside : ∀ index ∈ indices, index < batch.rows.length) :
    ∃ selected, batch.indexSelect indices = .ok selected ∧ Selects batch indices selected := by
  cases batch with
  | nested rows =>
    obtain ⟨picked, chosen⟩ := gather_isSome (fun index member => by
      simpa [Batch.rows] using inside index member)
    exact ⟨.nested picked, by simp [Batch.indexSelect, chosen],
      by simp [Batch.rows, gather_map, chosen], by simp [Batch.seqLenEffective, gather_map, chosen]⟩
  | padded width rows =>
    obtain ⟨picked, chosen⟩ := gather_isSome (fun index member => by
      simpa [Batch.rows] using inside index member)
    exact ⟨.padded width picked, by simp [Batch.indexSelect, chosen],
      by simp [Batch.rows, gather_map, chosen], by simp [Batch.seqLenEffective, gather_map, chosen]⟩

/-- An accepted batch is split. The index lists are a balanced partition of the
groups, expanded to rows, in some order. -/
theorem Accepted.rearranged (accepted : Accepted batch args count) :
    ∃ (size groups : Nat) (groupIdx : List (List Nat)) (microBatches : List (Batch ρ)) (microBszIdx : List (List Nat)),
      args.forceGroupSize = size ∧ 0 < size ∧ groups * size = batch.rows.length ∧ count ≤ groups ∧
      getSeqlenBalancedPartitions
        (groupWorkloads size groups (batch.seqLenEffective.map calculateWorkload)) count.toNat false = .ok groupIdx ∧
      Partition groups count.toNat groupIdx ∧
      microBszIdx.Perm (groupIdx.map (fun part => part.flatMap (groupRows size))) ∧
      List.Forall₂ (Selects batch) microBszIdx microBatches ∧
      rearrangeMicroBatches batch args = .ok (microBatches, microBszIdx) := by
  obtain ⟨size, groups, sameSize, positive, whole, sameGroups⟩ := accepted.groups
  obtain ⟨maxSeqLen, longest, fits⟩ := accepted.maxSeqLen
  have counted := accepted.counted
  have atMost := accepted.atMost
  rw [sameGroups] at counted atMost
  obtain ⟨groupIdx, returned, partition, workload, split⟩ := partitionRows_ok sameSize positive
    (by rw [whole, batch.seqLenEffective_length]) accepted.atLeast atMost
  let expanded := groupIdx.map (fun part => part.flatMap (groupRows size))
  let microBszIdx := if args.useDynamicBszBalance then balanceOrder workload expanded else expanded
  have perm : microBszIdx.Perm expanded := by
    by_cases balance : args.useDynamicBszBalance = true
    · simpa only [microBszIdx, balance, ite_true] using balanceOrder_perm workload expanded
    · simp only [microBszIdx, balance]
      exact .refl _
  have arranged := (arranged_groups positive partition).perm perm
  obtain ⟨microBatches, selected, related⟩ := mapM_ok batch.indexSelect (Selects batch)
    (fun part (member : part ∈ microBszIdx) => indexSelect_ok (fun index inside => by
      have := arranged.indices.mem_iff.mp (mem_flatten.mpr ⟨part, member, inside⟩)
      rwa [mem_range, whole] at this))
  have tokens : ¬ args.maxTokenLen < maxSeqLen := by omega
  have tooMany : ¬ (groups : Int) < count := by omega
  refine ⟨size, groups, groupIdx, microBatches, microBszIdx, sameSize, positive, whole, atMost, returned,
    partition, perm, related, ?_⟩
  simp only [rearrangeMicroBatches, longest, ok_bind, tokens, ite_false, accepted.forceGroupSize.1,
    accepted.forceGroupSize.2, ne_eq, not_true_eq_false, sameGroups, counted, tooMany, split]
  exact bind_eq_ok.mpr ⟨microBatches, selected, rfl⟩

private theorem no_partitions (workloads : List Nat) :
    getSeqlenBalancedPartitions workloads 0 false = .error .indexError := by
  have none : initialStates workloads 0 false = .ok [] ∨
      initialStates workloads 0 false = .error .indexError := by
    simp only [initialStates]
    cases sorted pairLess workloads.zipIdx with
    | nil => exact Or.inl rfl
    | cons item items => exact Or.inr rfl
  rcases none with none | none <;> simp [getSeqlenBalancedPartitions, karmarkarKarp, none, mergeStates]

private theorem partitionsOfInt_positive {workloads : List Nat} {count : Int} {partitions : List (List Nat)}
    (returned : partitionsOfInt workloads count = .ok partitions) : 1 ≤ count := by
  by_contra small
  by_cases negative : count < 0
  · simp [partitionsOfInt, negative] at returned
  · have zero : count = 0 := by omega
    subst count
    simp [partitionsOfInt, no_partitions] at returned

private theorem partitionRows_positive {lengths : List Nat} {count forceGroupSize numGroups : Int}
    {result : List (List Nat) × (List Nat → Nat)}
    (returned : partitionRows lengths count forceGroupSize numGroups = .ok result) : 1 ≤ count := by
  by_cases many : 1 < forceGroupSize
  · simp only [partitionRows, many, ite_true, bind_eq_ok] at returned
    obtain ⟨_, partitioned, _⟩ := returned
    exact partitionsOfInt_positive partitioned
  · simp only [partitionRows, many, ite_false, bind_eq_ok] at returned
    obtain ⟨_, partitioned, _⟩ := returned
    exact partitionsOfInt_positive partitioned

theorem accepted_of_rearranged {microBatches : List (Batch ρ)} {microBszIdx : List (List Nat)}
    (returned : rearrangeMicroBatches batch args = .ok (microBatches, microBszIdx)) :
    ∃ count, Accepted batch args count := by
  simp only [rearrangeMicroBatches, bind_eq_ok] at returned
  obtain ⟨maxSeqLen, longest, returned⟩ := returned
  split at returned
  · cases returned
  next fits =>
    split at returned
    · cases returned
    next nonzero =>
      split at returned
      · cases returned
      next divides =>
        simp only [bind_eq_ok] at returned
        obtain ⟨count, counted, returned⟩ := returned
        split at returned
        · cases returned
        next atMost =>
          simp only [bind_eq_ok] at returned
          obtain ⟨split, partitioned, _⟩ := returned
          exact ⟨count, ⟨maxSeqLen, longest, by omega⟩, ⟨nonzero, by simpa using divides⟩, counted,
            by omega, partitionRows_positive partitioned⟩

/-- The index lists of a split batch partition its rows without splitting a group,
and each micro-batch holds the rows its list names. -/
theorem rearranged_arranged {microBatches : List (Batch ρ)} {microBszIdx : List (List Nat)}
    (returned : rearrangeMicroBatches batch args = .ok (microBatches, microBszIdx)) :
    Arranged batch.rows.length args.forceGroupSize.toNat microBszIdx ∧
      List.Forall₂ (Selects batch) microBszIdx microBatches ∧
      ∃ count, Accepted batch args count ∧ (microBszIdx.length : Int) = count := by
  obtain ⟨count, accepted⟩ := accepted_of_rearranged returned
  obtain ⟨size, groups, groupIdx, microBatches', microBszIdx', sameSize, positive, whole, _, _, partition,
    perm, selected, returned'⟩ := accepted.rearranged
  rw [returned, Except.ok.injEq, Prod.mk.injEq] at returned'
  obtain ⟨rfl, rfl⟩ := returned'
  have toNat : args.forceGroupSize.toNat = size := by omega
  have arranged := (arranged_groups positive partition).perm perm
  rw [whole] at arranged
  have length := perm.length_eq
  rw [length_map, partition.count] at length
  have atLeast := accepted.atLeast
  exact ⟨by rwa [toNat], selected, count, accepted, by omega⟩

theorem Accepted.divisible (accepted : Accepted batch args count) {divisor : Int}
    (given : args.numBatchesDividedBy = some divisor) : divisor ∣ count := by
  have counted := accepted.counted
  simp only [numMicroBatches, bind_eq_ok, given] at counted
  obtain ⟨_, _, rounded⟩ := counted
  simp only [roundupDivisible] at rounded
  split at rounded
  · cases rounded
  · cases rounded
    exact Int.dvd_mul_left _ _

end Accepted

/-! ### Python objects -/

theorem selectColumns_ok {ν : Type} {columns : List (String × List ν)} {rows : Nat} {batchIdx : List Nat}
    (aligned : ∀ column ∈ columns, column.2.length = rows) (inside : ∀ idx ∈ batchIdx, idx < rows) :
    ∃ selected, selectColumns columns batchIdx = .ok selected ∧
      List.Forall₂ (fun column picked => picked.1 = column.1 ∧ gather column.2 batchIdx = some picked.2)
        columns selected := by
  apply mapM_ok
  intro column member
  obtain ⟨values, chosen⟩ := gather_isSome (fun idx listed => by
    rw [aligned column member]
    exact inside idx listed)
  exact ⟨(column.1, values), by simp only [chosen], rfl, chosen⟩

theorem Data.table_getElem? {ρ ν : Type} (data : Data ρ ν) (i : Nat) :
    data.table[i]? = data.batch.rows[i]?.map (fun row =>
      (row, data.nonTensorBatch.map (fun column => (column.1, column.2[i]?)))) := by
  simp [Data.table, getElem?_map, getElem?_zipIdx, Function.comp_def]

@[simp] theorem Data.table_length {ρ ν : Type} (data : Data ρ ν) : data.table.length = data.batch.rows.length := by
  simp [Data.table]

theorem gather_table {ρ ν : Type} {data part : Data ρ ν} {batchIdx : List Nat}
    (rows : gather data.batch.rows batchIdx = some part.batch.rows)
    (columns : List.Forall₂ (fun column picked => picked.1 = column.1 ∧ gather column.2 batchIdx = some picked.2)
      data.nonTensorBatch part.nonTensorBatch) : gather data.table batchIdx = some part.table := by
  rw [gather_eq_some]
  have length := gather_length rows
  apply ext_getElem (by simp [length])
  intro position first second
  have inside : position < batchIdx.length := by simpa using first
  have objects : part.nonTensorBatch.map (fun column => (column.1, column.2[position]?)) =
      data.nonTensorBatch.map (fun column => (column.1, column.2[batchIdx[position]]?)) := by
    generalize data.nonTensorBatch = before at columns
    generalize part.nonTensorBatch = after at columns
    induction columns with
    | nil => rfl
    | cons same _ ih =>
      rw [map_cons, map_cons, ih, same.1, gather_getElem? same.2 position inside]
  have row := gather_getElem? rows position inside
  rw [getElem_map, getElem_map, Data.table_getElem?, ← row, ← objects, ← Data.table_getElem?,
    getElem?_eq_getElem]

theorem prepared_table {ρ ν : Type} {data : Data ρ ν} {args : Arguments} {microBatches : List (Batch ρ)}
    {batchIdxList : List (List Nat)} (returned : rearrangeMicroBatches data.batch { args with forceGroupSize := 1 } =
      .ok (microBatches, batchIdxList)) :
    ∃ prepared, prepareDynamicBatch data args = .ok (prepared, batchIdxList) ∧
      List.Forall₂ (fun idx part => gather data.table idx = some (Data.table part)) batchIdxList prepared := by
  obtain ⟨arranged, selected, _⟩ := rearranged_arranged returned
  have inside : ∀ part ∈ batchIdxList, ∀ idx ∈ part, idx < data.batch.rows.length :=
    fun part member idx listed => mem_range.mp
      (arranged.indices.mem_iff.mp (mem_flatten.mpr ⟨part, member, listed⟩))
  have each : ∀ part ∈ microBatches.zip batchIdxList, ∃ prepared : Data ρ ν,
      (do
        let nonTensors ← selectColumns data.nonTensorBatch part.2
        Data.fromDict part.1 nonTensors) = .ok prepared ∧
      gather data.table part.2 = some prepared.table := by
    intro ⟨microBatch, batchIdx⟩ member
    obtain ⟨rows, lengths⟩ : Selects data.batch batchIdx microBatch := forall₂_zip selected.flip member
    obtain ⟨columns, chosen, related⟩ := selectColumns_ok data.aligned
      (inside batchIdx (of_mem_zip member).2)
    have aligned : ∀ column ∈ columns, column.2.length = microBatch.rows.length := by
      intro column listed
      obtain ⟨position, bound, rfl⟩ := mem_iff_getElem.mp listed
      have picked := (related.get (related.length_eq ▸ bound) bound).2
      exact (gather_length picked).trans (gather_length rows).symm
    refine ⟨⟨microBatch, columns, aligned⟩, ?_, gather_table rows related⟩
    simp only [chosen, ok_bind, Data.fromDict]
    split
    next column found =>
      have listed := mem_of_find?_eq_some found
      have wrong := find?_some found
      simp [aligned column listed] at wrong
    next => rfl
  obtain ⟨prepared, built, related⟩ := mapM_ok _ _ each
  refine ⟨prepared, ?_, ?_⟩
  · simp only [prepareDynamicBatch, returned, ok_bind, built]
    rfl
  · have length := selected.length_eq
    have unzipped : (microBatches.zip batchIdxList).map Prod.snd = batchIdxList :=
      map_snd_zip (by omega)
    rw [← unzipped]
    exact forall₂_map_left_iff.mpr related

theorem prepared_of_ok {ρ ν : Type} {data : Data ρ ν} {args : Arguments} {prepared : List (Data ρ ν)}
    {batchIdxList : List (List Nat)} (returned : prepareDynamicBatch data args = .ok (prepared, batchIdxList)) :
    batchIdxList.flatten.Perm (range data.batch.rows.length) ∧
      List.Forall₂ (fun idx part => gather data.table idx = some (Data.table part)) batchIdxList prepared := by
  have split := returned
  simp only [prepareDynamicBatch, bind_eq_ok] at split
  obtain ⟨⟨microBatches, idxList⟩, rearranged, _⟩ := split
  obtain ⟨prepared', built, related⟩ := prepared_table rearranged
  rw [returned, Except.ok.injEq, Prod.mk.injEq] at built
  obtain ⟨rfl, rfl⟩ := built
  exact ⟨(rearranged_arranged rearranged).1.indices, related⟩

/-- Whatever the batch and the arguments, a split batch is restored. -/
theorem dynamic_batch_restored {ρ ν : Type} (data : Data ρ ν) (args : Arguments) :
    ((∃ count, Accepted data.batch args count) ↔
      ∃ result, rearrangeMicroBatches data.batch args = .ok result) ∧
    (∀ microBatches microBszIdx, rearrangeMicroBatches data.batch args = .ok (microBatches, microBszIdx) →
      (∀ (β : Type) (f : Row ρ → β),
        restoreDynamicBatch (microBatches.map (fun part => part.rows.map f)).flatten microBszIdx =
          .ok (data.batch.rows.map f)) ∧
      Arranged data.batch.rows.length args.forceGroupSize.toNat microBszIdx ∧
      (∃ reverse, getReverseIdx microBszIdx.flatten = .ok reverse ∧ Inverse microBszIdx.flatten reverse) ∧
      ∀ divisor, args.numBatchesDividedBy = some divisor → divisor ∣ (microBszIdx.length : Int)) ∧
    (∀ microBatches batchIdxList, prepareDynamicBatch data args = .ok (microBatches, batchIdxList) →
      ∀ (β : Type) (f : Row ρ × List (String × Option ν) → β),
        restoreDynamicBatch (microBatches.map (fun part => part.table.map f)).flatten batchIdxList =
          .ok (data.table.map f)) ∧
    ((∃ result, prepareDynamicBatch data args = .ok result) ↔
      ∃ count, Accepted data.batch { args with forceGroupSize := 1 } count) := by
  refine ⟨⟨?_, ?_⟩, ?_, ?_, ?_, ?_⟩
  · rintro ⟨count, accepted⟩
    obtain ⟨_, _, _, microBatches, microBszIdx, _, _, _, _, _, _, _, _, returned⟩ := accepted.rearranged
    exact ⟨_, returned⟩
  · rintro ⟨⟨microBatches, microBszIdx⟩, returned⟩
    exact accepted_of_rearranged returned
  · intro microBatches microBszIdx returned
    obtain ⟨arranged, selected, count, accepted, counted⟩ := rearranged_arranged returned
    refine ⟨fun β f => ?_, arranged, ?_, fun divisor given => counted ▸ accepted.divisible given⟩
    · have restored := restore_rows f arranged.indices (List.forall₂_map_right_iff.mpr
        (selected.imp (fun _ _ both => both.1)))
      rwa [List.map_map] at restored
    · have whole : microBszIdx.flatten.length = data.batch.rows.length := by
        simpa using arranged.indices.length_eq
      exact getReverseIdx_inverse (whole ▸ arranged.indices)
  · intro microBatches batchIdxList returned β f
    obtain ⟨perm, selected⟩ := prepared_of_ok returned
    have restored := restore_rows f (by simpa using perm)
      (List.forall₂_map_right_iff.mpr selected)
    rwa [List.map_map] at restored
  · rintro ⟨⟨microBatches, batchIdxList⟩, returned⟩
    simp only [prepareDynamicBatch, bind_eq_ok] at returned
    obtain ⟨⟨_, _⟩, rearranged, _⟩ := returned
    exact accepted_of_rearranged rearranged
  · rintro ⟨count, accepted⟩
    obtain ⟨_, _, _, microBatches, microBszIdx, _, _, _, _, _, _, _, _, returned⟩ := accepted.rearranged
    obtain ⟨prepared, built, _⟩ := prepared_table returned
    exact ⟨_, built⟩

/-- Three rows of lengths 3, 3 and 2 and a column of Python objects, with room for
four tokens, so that the second row comes last. -/
theorem dynamic_batch_restored_three :
    restoreDynamicBatch [("first", some 'a'), ("third", some 'c'), ("second", some 'b')] [[0, 2], [1]] =
      .ok [("first", some 'a'), ("second", some 'b'), ("third", some 'c')] := by
  let data : Data String Char := ⟨.nested [(3, "first"), (3, "second"), (2, "third")],
    [("tag", ['a', 'b', 'c'])], by decide⟩
  let args : Arguments := { maxTokenLen := 4 }
  have accepted : ∃ count, Accepted data.batch { args with forceGroupSize := 1 } count :=
    ⟨2, ⟨3, rfl, by decide⟩, by decide, rfl, by decide, by decide⟩
  obtain ⟨⟨microBatches, batchIdxList⟩, prepared⟩ := (dynamic_batch_restored data args).2.2.2.mpr accepted
  have outputs : (prepareDynamicBatch data args).map (fun result => (result.2, (result.1.map (fun part =>
      part.table.map (fun row => (row.1.2, ((row.2.find? (fun _ => true)).bind
        (fun entry => entry.2)))))).flatten)) =
      .ok ([[0, 2], [1]], [("first", some 'a'), ("third", some 'c'), ("second", some 'b')]) := by decide
  rw [prepared, Except.map, Except.ok.injEq, Prod.mk.injEq] at outputs
  obtain ⟨rfl, same⟩ := outputs
  have restored := (dynamic_batch_restored data args).2.2.1 microBatches _ prepared _
    (fun row => (row.1.2, (row.2.find? (fun _ => true)).bind (fun entry => entry.2)))
  rwa [same] at restored

/-! ### The loss -/

theorem gathered_perm {α : Type} {rows items : List α} {indices : List Nat} (perm : indices.Perm (range rows.length))
    (selected : gather rows indices = some items) : items.Perm rows := by
  have places : (range rows.length).map (fun index => rows[index]?) = rows.map some := by
    apply ext_getElem (by simp)
    intro i first second
    rw [length_map, length_range] at first
    simp [first]
  have moved := perm.map (fun index => rows[index]?)
  rw [gather_eq_some.mp selected, places] at moved
  exact (map_perm_map_iff (Option.some_injective α)).mp moved

/-- Whatever the split, the losses of the micro-batches add up to the loss of the batch, in every mode with global
normalisers. -/
theorem rearranged_loss {ρ K : Type} [Field K] [LinearOrder K] {width : Nat} {mode : String}
    (accepted : mode ∈ CoreAlgos.modes)
    (lossOf : Row ρ → Vector (K × Bool) width) {batch : Batch ρ} {args : Arguments}
      (dpSize batchNumTokens globalBatchSize : Nat)
    (lossScaleFactor : Option K) {microBatches : List (Batch ρ)} {microBszIdx : List (List Nat)}
    (returned : rearrangeMicroBatches batch args = .ok (microBatches, microBszIdx)) :
    ∃ losses whole, microBatches.mapM (fun part => CoreAlgos.aggLoss (part.rows.map lossOf) mode dpSize
      (some batchNumTokens)
        (some globalBatchSize) lossScaleFactor) = .ok losses ∧
      CoreAlgos.aggLoss (batch.rows.map lossOf) mode dpSize (some batchNumTokens)
        (some globalBatchSize) lossScaleFactor =
        .ok whole ∧ losses.sum = whole := by
  obtain ⟨arranged, selected, -⟩ := rearranged_arranged returned
  have rows := gather_flatten (List.forall₂_map_right_iff.mpr (selected.imp (fun _ _ both => both.1)))
  have perm := (gathered_perm arranged.indices rows).map lossOf
  refine ⟨_, _, mapM_map _ (fun part _ => CoreAlgos.aggLoss_global _ accepted dpSize batchNumTokens globalBatchSize
    lossScaleFactor), CoreAlgos.aggLoss_global _ accepted _ _ _ _, ?_⟩
  have total := CoreAlgos.totalLoss_flatten mode (microBatches.map (fun part => part.rows.map lossOf))
  have whole : CoreAlgos.totalLoss mode (microBatches.map (fun part => part.rows.map lossOf)).flatten =
      CoreAlgos.totalLoss mode (batch.rows.map lossOf) := by
    rw [map_flatten, map_map] at perm
    exact (perm.map _).sum_eq
  rw [← whole, total, ← CoreAlgos.sum_scaled, map_map, map_map]
  rfl

/-- Three rows in two micro-batches. -/
theorem rearranged_loss_three : ∃ losses whole,
    [Batch.nested [(3, (1 : ℚ)), (2, 3)], .nested [(3, 2)]].mapM (fun part =>
      CoreAlgos.aggLoss (part.rows.map (fun row => #v[(row.2, true)])) "token-mean" 1 (some 3) (some 3) none) =
        .ok losses ∧
    CoreAlgos.aggLoss ((Batch.nested [(3, (1 : ℚ)), (3, 2), (2, 3)]).rows.map
      (fun row => #v[(row.2, true)])) "token-mean" 1 (some 3) (some 3) none = .ok whole ∧
      losses.sum = whole :=
  @rearranged_loss ℚ ℚ _ _ 1 "token-mean" (by decide) (fun row => #v[(row.2, true)])
    (.nested [(3, 1), (3, 2), (2, 3)])
    { maxTokenLen := 4 } 1 3 3 none _ [[0, 2], [1]] (by rfl)

end LLMFusion.SeqlenBalancing
