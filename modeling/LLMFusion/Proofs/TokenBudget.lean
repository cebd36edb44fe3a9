import LLMFusion.Proofs.DynamicBatch

/-! The token budget of a micro-batch. The number of micro-batches is chosen from the
total alone and the partitioner balances a quadratic workload, so `max_token_len`
bounds each row, not each micro-batch. Balance still gives a budget when the
average workload leaves room for one more group. -/

namespace LLMFusion.SeqlenBalancing
open Sorting Differencing KarmarkarKarp Gather List

/-- `max_token_len` as it is documented: "max sum of attention_mask per micro-batch". -/
def WithinBudget {ρ : Type} (batch : Batch ρ) (args : Arguments) : Prop :=
  ∀ microBatches microBszIdx, rearrangeMicroBatches batch args = .ok (microBatches, microBszIdx) →
    ∀ part ∈ microBatches, (part.seqLenEffective.sum : Int) ≤ args.maxTokenLen

/-- When the split into `count` micro-batches keeps the budget: one micro-batch holds
everything, or every group is alone, or the largest group fits in what the average
workload leaves free. -/
def BudgetFits {ρ : Type} (batch : Batch ρ) (args : Arguments) (count : Int) : Prop :=
  let size := args.forceGroupSize.toNat
  let groups := batch.rows.length / size
  let workloads := groupWorkloads size groups (batch.seqLenEffective.map calculateWorkload)
  if count = 1 then (batch.seqLenEffective.sum : Int) ≤ args.maxTokenLen
  else if count = groups then
    ∀ tokens ∈ groupWorkloads size groups batch.seqLenEffective, (tokens : Int) ≤ args.maxTokenLen
  else ∀ workload ∈ workloads,
    (workloads.sum : Int) + (count - 1) * workload < count * (24577 * (args.maxTokenLen + 1))

def partSum (values part : List Nat) : Nat := (part.map (fun idx => values.getD idx 0)).sum

/-! ### Sums over parts -/

theorem partSum_perm {part other : List Nat} (values : List Nat) (perm : part.Perm other) :
    partSum values part = partSum values other := (perm.map _).sum_eq

theorem partSum_range (values : List Nat) : partSum values (range values.length) = values.sum := by
  rw [partSum]
  congr 1
  apply ext_getElem (by simp)
  intro index first second
  simp [second]

theorem partSum_flatten (values : List Nat) (parts : List (List Nat)) :
    partSum values parts.flatten = (parts.map (partSum values)).sum := by
  rw [partSum, map_flatten, sum_flatten, map_map]
  rfl

theorem partSum_singleton (values : List Nat) {idx : Nat} (inside : idx < values.length) :
    partSum values [idx] = values[idx] := by
  simp [partSum, inside]

section Parts
variable {values : List Nat} {parts : List (List Nat)} {k : Nat}

theorem Partition.sum (partition : Partition values.length k parts) : (parts.map (partSum values)).sum = values.sum := by
  rw [← partSum_flatten, partSum_perm values partition.indices, partSum_range]

theorem Partition.singleton {items : Nat} (partition : Partition items items parts) {part : List Nat}
    (member : part ∈ parts) : ∃ item < items, part = [item] := by
  have total := partition.indices.length_eq
  rw [length_flatten, length_range] at total
  have single : ∀ parts : List (List Nat), (∀ part ∈ parts, part ≠ []) →
      parts.length ≤ (parts.map length).sum ∧
      ((parts.map length).sum = parts.length → ∀ part ∈ parts, part.length = 1) := by
    intro parts
    induction parts with
    | nil => simp
    | cons part parts ih =>
      intro nonempty
      obtain ⟨atLeast, alone⟩ := ih (fun other member => nonempty other (by simp [member]))
      have positive := length_pos_iff.mpr (nonempty part (by simp))
      simp only [map_cons, sum_cons, length_cons, forall_mem_cons]
      exact ⟨by omega, fun exact => ⟨by omega, alone (by omega)⟩⟩
  obtain ⟨item, rfl⟩ := length_eq_one_iff.mp ((single parts partition.nonempty).2
    (total.trans partition.count.symm) part member)
  exact ⟨item, (partition.covers item).mp ⟨[item], member, by simp⟩, rfl⟩

theorem Partition.one_part (partition : Partition values.length 1 parts) (bound : Int) :
    (∀ part ∈ parts, (partSum values part : Int) ≤ bound) ↔ (values.sum : Int) ≤ bound := by
  obtain ⟨part, rfl⟩ := length_eq_one_iff.mp partition.count
  have total := partition.sum
  simp only [map_cons, map_nil, sum_cons, sum_nil, Nat.add_zero] at total
  simp only [forall_mem_singleton, total]

theorem Partition.alone (partition : Partition values.length values.length parts) (bound : Int) :
    (∀ part ∈ parts, (partSum values part : Int) ≤ bound) ↔ ∀ value ∈ values, (value : Int) ≤ bound := by
  constructor
  · intro fits value member
    obtain ⟨idx, inside, rfl⟩ := mem_iff_getElem.mp member
    obtain ⟨part, listed, named⟩ := (partition.covers idx).mpr inside
    obtain ⟨item, _, rfl⟩ := partition.singleton listed
    obtain rfl := mem_singleton.mp named
    rw [← partSum_singleton values inside]
    exact fits _ listed
  · intro fits part member
    obtain ⟨item, inside, rfl⟩ := partition.singleton member
    rw [partSum_singleton values inside]
    exact fits _ (getElem_mem inside)

end Parts

/-! ### Groups of rows -/

section Groups
variable {size groups : Nat} {lengths : List Nat}

@[simp] theorem groupWorkloads_length (size groups : Nat) (lengths : List Nat) :
    (groupWorkloads size groups lengths).length = groups := by
  simp [groupWorkloads]

private theorem groupWorkloads_getD {group : Nat} (inside : group < groups) :
    (groupWorkloads size groups lengths).getD group 0 = ((lengths.drop (group * size)).take size).sum := by
  simp [groupWorkloads, inside]

private theorem groupRows_sum (whole : groups * size = lengths.length) {group : Nat} (inside : group < groups) :
    partSum lengths (groupRows size group) = (groupWorkloads size groups lengths).getD group 0 := by
  have bound : group * size + size ≤ lengths.length := by
    have := Nat.mul_le_mul_right size (Nat.succ_le_of_lt inside)
    rw [Nat.succ_mul] at this
    omega
  rw [groupWorkloads_getD inside, partSum]
  congr 1
  apply ext_getElem (by simp [groupRows]; omega)
  intro index first second
  have within : index < size := by simpa [groupRows] using first
  simp [groupRows, show group * size + index < lengths.length by omega]

theorem expanded_sum (whole : groups * size = lengths.length) {part : List Nat}
    (inside : ∀ group ∈ part, group < groups) :
    partSum lengths (part.flatMap (groupRows size)) = partSum (groupWorkloads size groups lengths) part := by
  rw [flatMap_def, partSum_flatten, map_map, partSum]
  congr 1
  exact map_congr_left (fun group member => groupRows_sum whole (inside group member))

theorem groupWorkloads_sum (whole : groups * size = lengths.length) :
    (groupWorkloads size groups lengths).sum = lengths.sum := by
  have listed : ∀ group ∈ range groups, group < groups := fun group => mem_range.mp
  have expanded := expanded_sum whole listed
  rw [groupRows_range, whole, partSum_range] at expanded
  rw [expanded, ← partSum_range, groupWorkloads_length]

theorem tokens_le_workload (size groups : Nat) (lengths part : List Nat) :
    24577 * partSum (groupWorkloads size groups lengths) part ≤
      partSum (groupWorkloads size groups (lengths.map calculateWorkload)) part := by
  have block : ∀ block : List Nat, 24577 * block.sum ≤ (block.map calculateWorkload).sum := by
    intro block
    induction block with
    | nil => simp
    | cons length block ih =>
      have square := Nat.le_self_pow (n := 2) (by decide) length
      simp only [sum_cons, map_cons, calculateWorkload]
      omega
  induction part with
  | nil => simp [partSum]
  | cons group part ih =>
    simp only [partSum, map_cons, sum_cons] at ih ⊢
    by_cases inside : group < groups
    · rw [groupWorkloads_getD inside, groupWorkloads_getD inside, ← map_drop, ← map_take]
      have := block ((lengths.drop (group * size)).take size)
      omega
    · simpa [groupWorkloads, inside] using ih

end Groups

/-! ### Balanced bins -/

section Bins
variable {workloads : List Nat} {k : Nat} {equalSize : Bool} {final : State k} {parts : List (List Nat)}

theorem Final.set_sum (valid : Final workloads k equalSize final) {set : KarmarkarKarp.Set}
    (member : set ∈ final.sets) : set.sum = partSum workloads (set.items.map Prod.fst) := by
  rw [set.sum_items, partSum, map_map]
  congr 1
  apply map_congr_left
  intro item listed
  have inside := valid.items.mem_iff.mp (mem_flatMap.mpr ⟨set, member, listed⟩)
  obtain ⟨⟨value, idx⟩, paired, rfl⟩ := mem_map.mp inside
  simp [mem_zipIdx_iff_getElem?.mp paired]

theorem Final.workload_le (valid : Final workloads k equalSize final) {largest : Nat}
    (bounded : ∀ value ∈ workloads, value ≤ largest) {part : List Nat} (member : part ∈ final.getPartitions) :
    k * partSum workloads part ≤ workloads.sum + (k - 1) * largest := by
  have sums : final.sums = final.getPartitions.map (partSum workloads) := by
    rw [State.sums, State.getPartitions, map_map]
    exact map_congr_left (fun set inside => valid.set_sum inside)
  have total : final.sums.sum = workloads.sum := by
    rw [sums, ← partSum_flatten, partSum_perm workloads valid.indices, partSum_range]
  have bins := (valid.within largest bounded).le_average
    (sums ▸ mem_map.mpr ⟨part, member, rfl⟩)
  have length : final.sums.length = k := by rw [State.sums, length_map, final.count]
  rwa [total, length, smul_eq_mul, smul_eq_mul] at bins

private theorem exists_largest {values : List Nat} (some : values.length ≠ 0) :
    ∃ largest ∈ values, ∀ value ∈ values, value ≤ largest := by
  cases found : values.max? with
  | none => exact absurd (by simpa using found) some
  | some largest => exact ⟨largest, max?_eq_some_iff.mp found⟩

theorem balanced_workload_le (positive : 1 ≤ k) (enough : k ≤ workloads.length)
    (balanced : getSeqlenBalancedPartitions workloads k equalSize = .ok parts) {largest : Nat}
    (bounded : ∀ value ∈ workloads, value ≤ largest) {part : List Nat} (member : part ∈ parts)
    (divides : equalSize = true → k ∣ workloads.length := by simp) :
    k * partSum workloads part ≤ workloads.sum + (k - 1) * largest := by
  obtain ⟨final, valid, returned, _⟩ := getSeqlenBalancedPartitions_final workloads k equalSize positive enough divides
  rw [balanced, Except.ok.injEq] at returned
  subst returned
  obtain ⟨original, inside, rfl⟩ := mem_map.mp member
  rw [partSum_perm workloads (sorted_perm _ original)]
  exact valid.workload_le bounded inside

/-- The heaviest part is at most `2 - 1 / k` times as heavy as the heaviest of any other partition. -/
theorem balanced_makespan (positive : 1 ≤ k) (enough : k ≤ workloads.length)
    (divides : equalSize = true → k ∣ workloads.length)
    (balanced : getSeqlenBalancedPartitions workloads k equalSize = .ok parts) {others : List (List Nat)}
    (partition : Partition workloads.length k others) :
    ∃ other ∈ others, ∀ part ∈ parts, k * partSum workloads part ≤ (2 * k - 1) * partSum workloads other := by
  have count := partition.count
  obtain ⟨_, among, bound⟩ := exists_largest (show (others.map (partSum workloads)).length ≠ 0 by rw [length_map]; omega)
  obtain ⟨other, listed, rfl⟩ := mem_map.mp among
  have average : workloads.sum ≤ k * partSum workloads other := by
    simpa [partition.sum, count] using sum_le_card_nsmul _ _ bound
  have holds : ∀ value ∈ workloads, value ≤ partSum workloads other := by
    intro value member
    obtain ⟨idx, inside, rfl⟩ := mem_iff_getElem.mp member
    obtain ⟨part, found, inPart⟩ := (partition.covers idx).mpr inside
    exact (le_sum_of_mem (mem_map.mpr ⟨idx, inPart, by simp [inside]⟩)).trans
      (bound _ (mem_map.mpr ⟨part, found, rfl⟩))
  refine ⟨other, listed, fun part member => ?_⟩
  calc k * partSum workloads part ≤ workloads.sum + (k - 1) * partSum workloads other :=
        balanced_workload_le positive enough balanced holds member divides
    _ ≤ (k + (k - 1)) * partSum workloads other := by rw [Nat.add_mul]; omega
    _ = (2 * k - 1) * partSum workloads other := by congr 1; omega

theorem balanced_makespan_five : ∃ other ∈ [[0, 1], [2, 3, 4]], ∀ part ∈ [[1, 3, 4], [0, 2]],
    2 * partSum [8, 7, 6, 5, 4] part ≤ 3 * partSum [8, 7, 6, 5, 4] other :=
  balanced_makespan (by decide) (by decide) (by simp)
    (show getSeqlenBalancedPartitions _ 2 false = .ok _ by decide +kernel) ⟨rfl, by decide, by decide, by decide⟩

end Bins

/-! ### The budget -/

section Budget
variable {ρ : Type} {batch : Batch ρ} {args : Arguments} {count : Int}

theorem Accepted.withinBudget_iff (accepted : Accepted batch args count) :
    ∃ (size groups : Nat) (groupIdx : List (List Nat)),
      args.forceGroupSize.toNat = size ∧ batch.rows.length / size = groups ∧ count ≤ groups ∧
      groups * size = batch.seqLenEffective.length ∧ getSeqlenBalancedPartitions
        (groupWorkloads size groups (batch.seqLenEffective.map calculateWorkload)) count.toNat false = .ok groupIdx ∧
      Partition groups count.toNat groupIdx ∧ (WithinBudget batch args ↔ ∀ part ∈ groupIdx,
        (partSum (groupWorkloads size groups batch.seqLenEffective) part : Int) ≤ args.maxTokenLen) := by
  obtain ⟨size, groups, groupIdx, microBatches, microBszIdx, sameSize, positive, whole, atMost, balanced,
    partition, perm, selected, returned⟩ := accepted.rearranged
  have rows : groups * size = batch.seqLenEffective.length := by rw [whole, batch.seqLenEffective_length]
  have tokens : ∀ part ∈ groupIdx, ∀ microBatch : Batch ρ,
      Selects batch (part.flatMap (groupRows size)) microBatch →
        microBatch.seqLenEffective.sum = partSum (groupWorkloads size groups batch.seqLenEffective) part := by
    intro part member microBatch both
    rw [gather_getD 0 both.2]
    exact expanded_sum rows (fun group listed => (partition.covers group).mp ⟨part, member, listed⟩)
  refine ⟨size, groups, groupIdx, by omega, by rw [← whole, Nat.mul_div_cancel _ positive], atMost, rows,
    balanced, partition, ?_, ?_⟩
  · intro budget part member
    obtain ⟨microBatch, inside, both⟩ := Fallible.forall₂_left selected
      (perm.mem_iff.mpr (mem_map.mpr ⟨part, member, rfl⟩))
    have fits := budget _ _ returned microBatch inside
    rwa [tokens part member _ both] at fits
  · intro budget microBatches' microBszIdx' returned' microBatch member
    rw [returned, Except.ok.injEq, Prod.mk.injEq] at returned'
    obtain ⟨rfl, rfl⟩ := returned'
    obtain ⟨indices, listed, both⟩ := Fallible.forall₂_right selected member
    obtain ⟨part, inside, rfl⟩ := mem_map.mp (perm.mem_iff.mp listed)
    have fits := budget part inside
    rwa [← tokens part inside _ both] at fits

/-- The budget is kept when `BudgetFits` holds, and only then when there is one
micro-batch or each group has its own. -/
theorem token_budget (batch : Batch ρ) (args : Arguments) (count : Int)
    (accepted : Accepted batch args count) :
    (BudgetFits batch args count → WithinBudget batch args) ∧
    (count = 1 ∨ count = (batch.rows.length / args.forceGroupSize.toNat : Nat) →
      WithinBudget batch args → BudgetFits batch args count) := by
  obtain ⟨size, groups, groupIdx, sameSize, sameGroups, atMost, whole, balanced, partition, budget⟩ :=
    accepted.withinBudget_iff
  have atLeast := accepted.atLeast
  have length := groupWorkloads_length size groups batch.seqLenEffective
  rw [budget]
  simp only [BudgetFits, sameSize, sameGroups]
  by_cases one : count = 1
  · subst one
    rw [← length] at partition
    have whole := groupWorkloads_sum whole
    simp only [ite_true, partition.one_part, whole]
    exact ⟨id, fun _ => id⟩
  · by_cases alone : count = groups
    · rw [alone, Int.toNat_natCast] at partition
      nth_rewrite 1 2 [← length] at partition
      simp only [if_neg one, if_pos alone, partition.alone]
      exact ⟨id, fun _ => id⟩
    · refine ⟨?_, fun exact => by omega⟩
      simp only [one, alone, ite_false]
      intro room part member
      have cost := tokens_le_workload size groups batch.seqLenEffective part
      have workloadsLength := groupWorkloads_length size groups (batch.seqLenEffective.map calculateWorkload)
      generalize groupWorkloads size groups (batch.seqLenEffective.map calculateWorkload) = workloads at *
      obtain ⟨largest, listed, bounded⟩ := exists_largest (show workloads.length ≠ 0 by omega)
      have balance := balanced_workload_le (by omega) (by omega) balanced bounded member
      have free := room largest listed
      obtain ⟨k, rfl⟩ := Int.eq_ofNat_of_zero_le (show 0 ≤ count by omega)
      rw [Int.toNat_natCast] at balance
      have positive : 1 ≤ k := by omega
      -- k · 24577 · tokens ≤ k · workload < k · 24577 · (max_token_len + 1)
      have scaled := Nat.mul_le_mul_left k cost
      generalize workloads.sum = total at free balance
      zify [positive] at scaled balance
      have strict : (k : Int) * (24577 * partSum (groupWorkloads size groups batch.seqLenEffective) part) <
          k * (24577 * (args.maxTokenLen + 1)) := by linarith
      have := lt_of_mul_lt_mul_left strict (by omega)
      omega

/-- Two micro-batches suffice for eight tokens and a budget of four, but three rows
of lengths 3, 3 and 2 leave five tokens in one of them. -/
theorem token_budget_exceeded :
    ¬ WithinBudget (.nested [(3, ()), (3, ()), (2, ())] : Batch Unit) { maxTokenLen := 4 } := by
  intro budget
  have split : (rearrangeMicroBatches (.nested [(3, ()), (3, ()), (2, ())] : Batch Unit)
      { maxTokenLen := 4 }).map (fun result =>
        (result.2, result.1.map (fun part => part.seqLenEffective.sum))) = .ok ([[0, 2], [1]], [5, 3]) := by decide
  cases returned : rearrangeMicroBatches (.nested [(3, ()), (3, ()), (2, ())] : Batch Unit)
      { maxTokenLen := 4 } with
  | error failure => simp [returned, Except.map] at split
  | ok result =>
    simp only [returned, Except.map, Except.ok.injEq, Prod.mk.injEq] at split
    obtain ⟨part, member, five⟩ := List.mem_map.mp (split.2 ▸ List.mem_cons_self)
    have := budget result.1 result.2 returned part member
    simp only [five] at this
    omega

/-- Three short rows and at least two micro-batches: neither one micro-batch nor one
row in each. -/
theorem token_budget_three :
    WithinBudget (.nested [(1, ()), (1, ()), (1, ())] : Batch Unit)
      { maxTokenLen := 4, minNumMicroBatch := some 2 } :=
  (token_budget _ _ 2 ⟨⟨1, rfl, by decide⟩, by decide, rfl, by decide, by decide⟩).1
    (by unfold BudgetFits; decide)

end Budget

end LLMFusion.SeqlenBalancing
