import LLMFusion.Proofs.KarmarkarKarp

/-! Every balanced partition is a partition: the assertions of the balancing
functions never fire on non-negative values, whatever zeros or ties they hold. -/

namespace LLMFusion.SeqlenBalancing
open Sorting Differencing KarmarkarKarp Fallible List

/-- The pool before the merge loop, as one statement for both modes: every item is
in exactly one state, and each state is as `State.Holds` describes it. -/
structure Pool (seqlenList : List Nat) (k : Nat) (equalSize : Bool) (statesPq : List (State k)) : Prop where
  nonempty : statesPq ≠ []
  contents : (statesPq.map State.contents).sum = (seqlenList.zipIdx.map Prod.swap : Multiset (Nat × Nat))
  spread : ∀ state ∈ statesPq, state.Spread
  level : equalSize = true → ∀ state ∈ statesPq, state.Level
  within : ∀ bound, (∀ value ∈ seqlenList, value ≤ bound) → ∀ state ∈ statesPq, Within bound state.sums

private theorem holds_pool {seqlenList : List Nat} {k : Nat} {equalSize : Bool}
    {groups : List (List (Nat × Nat))} {statesPq : List (State k)}
    (related : List.Forall₂ State.Holds groups statesPq) (some : groups ≠ [])
    (whole : groups.flatten.Perm (seqlenList.zipIdx.map Prod.swap))
    (full : equalSize = true → ∀ group ∈ groups, group.length = k) :
    Pool seqlenList k equalSize statesPq := by
  have each : ∀ state ∈ statesPq, ∃ group ∈ groups, State.Holds group state := by
    exact fun state member => forall₂_right related member
  refine ⟨?_, ?_, ?_, ?_, ?_⟩
  · rintro rfl
    exact some (forall₂_nil_right_iff.mp related)
  · have sums := forall₂_sum (fun group : List (Nat × Nat) => (group : Multiset (Nat × Nat)))
      State.contents (related.imp (fun _ _ holds => holds.contents))
    rw [sums, ← Multiset.coe_eq_coe.mpr whole]
    clear sums related some whole full each
    induction groups with
    | nil => rfl
    | cons group groups ih => simp [ih]
  · intro state member
    obtain ⟨_, _, holds⟩ := each state member
    exact holds.spread
  · intro equal state member
    obtain ⟨group, inside, holds⟩ := each state member
    exact holds.level (full equal group inside)
  · intro bound bounded state member
    obtain ⟨group, inside, holds⟩ := each state member
    apply holds.within bound
    intro item itemMember
    have listed : item ∈ seqlenList.zipIdx.map Prod.swap :=
      whole.mem_iff.mp (mem_flatten.mpr ⟨group, inside, itemMember⟩)
    obtain ⟨pair, paired, rfl⟩ := mem_map.mp listed
    exact bounded _ (fst_mem_of_mem_zipIdx paired)

private theorem chunks_flatten {α : Type} (size count : Nat) (items : List α)
    (exact : items.length = count * size) :
    ((range count).map (fun offset => (items.drop (offset * size)).take size)).flatten = items := by
  induction count generalizing items with
  | zero => simpa using (length_eq_zero_iff.mp (by simpa using exact)).symm
  | succ count ih =>
    have rest := ih (items.drop size) (by simp [exact, Nat.succ_mul])
    rw [range_succ_eq_map, map_cons, flatten_cons, map_map]
    have shifted : ((fun offset => (items.drop (offset * size)).take size) ∘ Nat.succ) =
        fun offset => ((items.drop size).drop (offset * size)).take size := by
      funext offset
      simp [Nat.succ_mul, Nat.add_comm]
    rw [shifted, rest]
    simp

theorem initialStates_pool {seqlenList : List Nat} {k : Nat} {equalSize : Bool} (positive : 1 ≤ k)
    (nonempty : seqlenList ≠ []) (divides : equalSize = true → k ∣ seqlenList.length) :
    ∃ statesPq, initialStates seqlenList k equalSize = .ok statesPq ∧ Pool seqlenList k equalSize statesPq := by
  have sortedItems := (sorted_perm pairLess seqlenList.zipIdx).map Prod.swap
  have size : (sorted pairLess seqlenList.zipIdx).length = seqlenList.length := by
    rw [(sorted_perm _ _).length_eq, length_zipIdx]
  have some : 0 < seqlenList.length := length_pos_iff.mpr nonempty
  cases equalSize with
  | false =>
    obtain ⟨statesPq, built, related⟩ := mapM_ok
      (fun item : Nat × Nat => State.ofItems [item.swap] k) (fun item state => State.Holds [item.swap] state)
      (fun item (_ : item ∈ sorted pairLess seqlenList.zipIdx) => State.ofItems_holds (Or.inl rfl) positive)
    have grouped : List.Forall₂ State.Holds
        ((sorted pairLess seqlenList.zipIdx).map (fun item => [item.swap])) statesPq :=
      forall₂_map_left_iff.mpr related
    refine ⟨statesPq, built, holds_pool grouped ?_ ?_ (by simp)⟩
    · intro none
      rw [map_eq_nil_iff] at none
      rw [none] at size
      simp only [length_nil] at size
      omega
    · rw [← flatMap_def, ← map_eq_flatMap]
      exact sortedItems
  | true =>
    obtain ⟨count, whole⟩ := divides rfl
    have quotient : seqlenList.length / k = count := by
      rw [whole, Nat.mul_div_cancel_left _ (by omega)]
    have groupSize : ∀ offset ∈ range count,
        (((sorted pairLess seqlenList.zipIdx).drop (offset * k)).take k).length = k := by
      intro offset inside
      have bound := Nat.mul_le_mul_right k (Nat.succ_le_of_lt (mem_range.mp inside))
      rw [Nat.succ_mul] at bound
      rw [Nat.mul_comm] at whole
      simp only [length_take, length_drop, size]
      omega
    have each : ∀ items ∈ (range count).map (fun offset =>
        (((sorted pairLess seqlenList.zipIdx).drop (offset * k)).take k).map Prod.swap),
        ∃ state, State.ofItems items k = .ok state ∧ State.Holds items state := by
      intro items member
      obtain ⟨offset, inside, rfl⟩ := mem_map.mp member
      have full := groupSize offset inside
      exact State.ofItems_holds (Or.inr (by simpa using full)) (by simp)
    obtain ⟨statesPq, built, related⟩ :=
      mapM_ok (fun items => State.ofItems items k) State.Holds each
    have notZero : k ≠ 0 := by omega
    have noRest : ¬ seqlenList.length % k ≠ 0 := by simp [whole]
    refine ⟨statesPq, by simpa only [initialStates, notZero, noRest, ite_true, ite_false, quotient] using built,
      holds_pool related ?_ ?_ ?_⟩
    · intro none
      have empty : count = 0 := by simpa using none
      rw [empty, Nat.mul_zero] at whole
      omega
    · have joined := chunks_flatten k count ((sorted pairLess seqlenList.zipIdx).map Prod.swap)
        (by rw [length_map, size, whole, Nat.mul_comm])
      simp only [← map_drop, ← map_take] at joined
      rw [joined]
      exact sortedItems
    · intro _ group member
      obtain ⟨offset, inside, rfl⟩ := mem_map.mp member
      simpa using groupSize offset inside

structure Final (seqlenList : List Nat) (k : Nat) (equalSize : Bool) (final : State k) : Prop where
  contents : final.contents = (seqlenList.zipIdx.map Prod.swap : Multiset (Nat × Nat))
  spread : final.Spread
  level : equalSize = true → final.Level
  within : ∀ bound, (∀ value ∈ seqlenList, value ≤ bound) → Within bound final.sums

theorem Pool.final {seqlenList : List Nat} {k : Nat} {equalSize : Bool} {statesPq : List (State k)}
    {final : State k} (pool : Pool seqlenList k equalSize statesPq)
    (reduces : Reduces State.merge statesPq final) : Final seqlenList k equalSize final where
  contents := (reduces.additive State.contents State.contents_merge).trans pool.contents
  spread := reduces.preserves pool.spread (fun _ _ => State.spread_merge)
  level equal := reduces.preserves (pool.level equal) (fun _ _ => State.level_merge)
  within bound bounded := reduces.preserves (pool.within bound bounded) (fun _ _ => State.within_merge)

section Final
variable {seqlenList : List Nat} {k : Nat} {equalSize : Bool} {final : State k}

theorem Final.items (valid : Final seqlenList k equalSize final) :
    (final.sets.flatMap KarmarkarKarp.Set.items).Perm (seqlenList.zipIdx.map Prod.swap) := by
  have listed : ∀ sets : List KarmarkarKarp.Set,
      (sets.map (fun set => (set.items : Multiset (Nat × Nat)))).sum =
        ((sets.flatMap KarmarkarKarp.Set.items : List (Nat × Nat)) : Multiset (Nat × Nat)) := by
    intro sets
    induction sets with
    | nil => rfl
    | cons set sets ih => simp [ih]
  exact Multiset.coe_eq_coe.mp ((listed final.sets).symm.trans valid.contents)

theorem Final.indices (valid : Final seqlenList k equalSize final) :
    final.getPartitions.flatten.Perm (range seqlenList.length) := by
  have swapped : (Prod.fst ∘ Prod.swap : Nat × Nat → Nat) = Prod.snd := rfl
  have firsts := valid.items.map Prod.fst
  rw [map_map, swapped, zipIdx_map_snd, ← range_eq_range'] at firsts
  have partitions : final.getPartitions.flatten = (final.sets.flatMap KarmarkarKarp.Set.items).map Prod.fst := by
    rw [State.getPartitions, map_flatMap, flatMap_def]
  rw [partitions]
  exact firsts

theorem Final.nonempty (valid : Final seqlenList k equalSize final) (enough : k ≤ seqlenList.length) :
    ∀ partition ∈ final.getPartitions, partition ≠ [] := by
  have all : final.sets.countP Set.filled = final.sets.length := by
    have spread := valid.spread
    have upper := countP_le_length (p := Set.filled) (l := final.sets)
    simp only [State.Spread, valid.contents, Multiset.coe_card, length_map,
      length_zipIdx, final.count] at spread upper ⊢
    omega
  intro partition member
  obtain ⟨set, inside, rfl⟩ := mem_map.mp member
  have filled := countP_eq_length.mp all set inside
  intro empty
  simp [Set.filled, map_eq_nil_iff.mp empty] at filled

theorem Final.size (valid : Final seqlenList k true final) :
    ∀ partition ∈ final.getPartitions, partition.length * k = seqlenList.length := by
  obtain ⟨size, level⟩ := valid.level rfl
  have total := valid.indices.length_eq
  rw [length_range, length_flatten] at total
  have equal : ∀ partition ∈ final.getPartitions, partition.length = size := by
    intro partition member
    obtain ⟨set, inside, rfl⟩ := mem_map.mp member
    rw [length_map, level set inside]
  have sum : (final.getPartitions.map length).sum = k * size := by
    rw [map_congr_left equal, map_const', sum_replicate_nat]
    simp [State.getPartitions, final.count]
  intro partition member
  rw [equal partition member, Nat.mul_comm]
  omega

end Final

/-- The differencing method succeeds, and its partitions are those of a final
state of the merge loop. -/
theorem karmarkarKarp_final {seqlenList : List Nat} {k : Nat} {equalSize : Bool} (positive : 1 ≤ k)
    (nonempty : seqlenList ≠ []) (divides : equalSize = true → k ∣ seqlenList.length) :
    ∃ final : State k, karmarkarKarp seqlenList k equalSize = .ok final.getPartitions ∧
      Final seqlenList k equalSize final := by
  obtain ⟨statesPq, built, pool⟩ := initialStates_pool positive nonempty divides
  obtain ⟨final, ended, reduces⟩ := mergeStates_reduces statesPq.length statesPq pool.nonempty (Nat.le_refl _)
  have valid := pool.final reduces
  have passes : final.getPartitions.find? (fun partition =>
      equalSize && partition.length * k ≠ seqlenList.length) = none := by
    rw [find?_eq_none]
    intro partition member
    cases equalSize with
    | false => simp
    | true => simpa using valid.size partition member
  exact ⟨final, by simp only [karmarkarKarp, built, ended, passes], valid⟩

private theorem natLess_weak : Weak (fun a b : Nat => decide (a < b)) :=
  ⟨by intro a b; simp; omega, by intro a b c; simp; omega⟩

theorem sorted_increasing {indices : List Nat} (distinct : indices.Nodup) :
    (sorted (fun a b => decide (a < b)) indices).Pairwise (· < ·) := by
  have perm := sorted_perm (fun a b : Nat => decide (a < b)) indices
  have ordered := natLess_weak.sorted_pairwise indices
  have different : (sorted (fun a b => decide (a < b)) indices).Pairwise (· ≠ ·) :=
    perm.nodup_iff.mpr distinct
  refine (ordered.and different).imp ?_
  intro a b ⟨notLess, distinct⟩
  have : a ≤ b := by simpa using notLess
  omega

structure Partition (items k : Nat) (partitions : List (List Nat)) : Prop where
  count : partitions.length = k
  nonempty : ∀ partition ∈ partitions, partition ≠ []
  increasing : ∀ partition ∈ partitions, partition.Pairwise (· < ·)
  indices : partitions.flatten.Perm (List.range items)

theorem Partition.disjoint {items k : Nat} {partitions : List (List Nat)}
    (valid : Partition items k partitions) : partitions.Pairwise List.Disjoint :=
  (nodup_flatten.mp (valid.indices.nodup_iff.mpr nodup_range)).2

theorem Partition.covers {items k : Nat} {partitions : List (List Nat)}
    (valid : Partition items k partitions) (idx : Nat) : (∃ partition ∈ partitions, idx ∈ partition) ↔ idx < items := by
  rw [← mem_flatten, valid.indices.mem_iff, mem_range]

private theorem sorted_flatten (partitions : List (List Nat)) :
    (partitions.map (sorted (fun a b => a < b))).flatten.Perm partitions.flatten := by
  induction partitions with
  | nil => exact .refl _
  | cons partition partitions ih => exact (sorted_perm _ partition).append ih

theorem checkAndSortPartitions_ok {items k : Nat} {partitions : List (List Nat)}
    (count : partitions.length = k) (nonempty : ∀ partition ∈ partitions, partition ≠ [])
    (indices : partitions.flatten.Perm (range items)) : checkAndSortPartitions items k partitions =
        .ok (partitions.map (sorted (fun a b => a < b))) ∧
      Partition items k (partitions.map (sorted (fun a b => a < b))) := by
  have none : partitions.findIdx? (fun partition => partition.length = 0) = none := by
    rw [findIdx?_eq_none_iff]
    intro partition member
    simpa using nonempty partition member
  have seen : (∀ idx ∈ partitions.flatten, idx < items) ∧ ∀ idx < items, idx ∈ partitions.flatten := by
    constructor
    · intro idx member
      exact mem_range.mp (indices.mem_iff.mp member)
    · intro idx inside
      exact indices.mem_iff.mpr (mem_range.mpr inside)
  have distinct := (nodup_flatten.mp (indices.nodup_iff.mpr nodup_range)).1
  have sameCount : ¬ partitions.length ≠ k := by simpa using count
  refine ⟨by simp only [checkAndSortPartitions, sameCount, none, ite_false, if_pos seen],
    by rw [length_map, count], ?_, ?_, ?_⟩
  · intro partition member
    obtain ⟨original, inside, rfl⟩ := mem_map.mp member
    intro empty
    exact nonempty original inside ((sorted_perm _ original).symm.trans (List.Perm.of_eq empty)).eq_nil
  · intro partition member
    obtain ⟨original, inside, rfl⟩ := mem_map.mp member
    exact sorted_increasing (distinct original inside)
  · exact (sorted_flatten partitions).trans indices

/-- The balanced partitions are a partition, and they are those of a final state
up to the order inside each list. -/
theorem getSeqlenBalancedPartitions_final (seqlenList : List Nat) (k : Nat) (equalSize : Bool)
    (positive : 1 ≤ k) (enough : k ≤ seqlenList.length) (divides : equalSize = true → k ∣ seqlenList.length) :
    ∃ final : State k, Final seqlenList k equalSize final ∧ getSeqlenBalancedPartitions seqlenList k equalSize =
        .ok (final.getPartitions.map (sorted (fun a b => a < b))) ∧
      Partition seqlenList.length k (final.getPartitions.map (sorted (fun a b => a < b))) := by
  have nonempty : seqlenList ≠ [] := length_pos_iff.mp (Nat.lt_of_lt_of_le positive enough)
  obtain ⟨final, partitioned, valid⟩ := karmarkarKarp_final positive nonempty divides
  have count : final.getPartitions.length = k := by simp [State.getPartitions, final.count]
  obtain ⟨checked, partition⟩ := checkAndSortPartitions_ok count (valid.nonempty enough) valid.indices
  have notFewer : ¬ seqlenList.length < k := by omega
  exact ⟨final, valid, by simp only [getSeqlenBalancedPartitions, notFewer, ite_false, partitioned, checked],
    partition⟩

/-- For non-negative values and `1 ≤ k ≤ n`, with `k` dividing `n` in equal-size
mode, no assertion fires and the result partitions `range(n)` into `k` nonempty
increasing lists, each of `n / k` indices in equal-size mode. -/
theorem balanced_partitions_valid (seqlenList : List Nat) (k : Nat) (equalSize : Bool)
    (positive : 1 ≤ k) (enough : k ≤ seqlenList.length)
    (divides : equalSize = true → k ∣ seqlenList.length) :
    ∃ partitions, getSeqlenBalancedPartitions seqlenList k equalSize = .ok partitions ∧
      partitions.length = k ∧
      (∀ partition ∈ partitions, partition ≠ [] ∧ partition.Pairwise (· < ·)) ∧
      partitions.Pairwise List.Disjoint ∧
      (∀ idx, (∃ partition ∈ partitions, idx ∈ partition) ↔ idx < seqlenList.length) ∧
      (equalSize = true → ∀ partition ∈ partitions, partition.length = seqlenList.length / k) := by
  obtain ⟨final, valid, returned, partition⟩ :=
    getSeqlenBalancedPartitions_final seqlenList k equalSize positive enough divides
  refine ⟨_, returned, partition.count,
    fun part member => ⟨partition.nonempty part member, partition.increasing part member⟩,
    partition.disjoint, partition.covers, ?_⟩
  rintro rfl part member
  obtain ⟨original, inside, rfl⟩ := List.mem_map.mp member
  rw [(sorted_perm _ original).length_eq, ← valid.size original inside, Nat.mul_div_cancel _ (by omega)]

/-- Zeros and ties, where only the number of items separates an empty set. -/
theorem balanced_partitions_zeros : ∃ partitions,
    getSeqlenBalancedPartitions [0, 0, 5, 0] 2 true = .ok partitions ∧
      partitions.length = 2 ∧
      (∀ partition ∈ partitions, partition ≠ [] ∧ partition.Pairwise (· < ·)) ∧
      partitions.Pairwise List.Disjoint ∧
      (∀ idx, (∃ partition ∈ partitions, idx ∈ partition) ↔ idx < 4) ∧
      (true = true → ∀ partition ∈ partitions, partition.length = 4 / 2) :=
  balanced_partitions_valid [0, 0, 5, 0] 2 true (by decide) (by decide) (by decide)

end LLMFusion.SeqlenBalancing
