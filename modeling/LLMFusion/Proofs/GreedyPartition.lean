import LLMFusion.GroupBalancing
import LLMFusion.Proofs.PartitionSpread

/-! The greedy assignment to partitions of one size. The bias of every value is above all values together, so
that the smallest sum is always that of a smallest partition. -/

namespace LLMFusion.SeqlenBalancing
open List

/-! ### The smallest sum -/

theorem minIdx_spec {sums : List Nat} (nonempty : sums ≠ []) :
    ∃ i < sums.length, minIdx sums = some i ∧ ∀ j < sums.length, sums.getD i 0 ≤ sums.getD j 0 := by
  have looped : ∀ n, 0 < n → ∃ i < n, (range n).foldl (fun minIdx j => minIdx.elim (some j)
      (fun i => if sums.getD j 0 < sums.getD i 0 then some j else some i)) none = some i ∧
        ∀ j < n, sums.getD i 0 ≤ sums.getD j 0 := by
    intro n positive
    induction n, positive using Nat.le_induction with
    | base =>
      refine ⟨0, Nat.one_pos, rfl, ?_⟩
      intro j first
      rw [Nat.lt_one_iff.mp first]
    | succ n _ ih =>
      obtain ⟨i, inside, found, least⟩ := ih
      rw [range_succ, foldl_append, found, foldl_cons, foldl_nil, Option.elim_some]
      by_cases smaller : sums.getD n 0 < sums.getD i 0
      · refine ⟨n, Nat.lt_succ_self n, if_pos smaller, ?_⟩
        intro j before
        cases Nat.lt_succ_iff_lt_or_eq.mp before with
        | inl old => exact Nat.le_trans (Nat.le_of_lt smaller) (least j old)
        | inr new => rw [new]
      · refine ⟨i, Nat.lt_succ_of_lt inside, if_neg smaller, ?_⟩
        intro j before
        cases Nat.lt_succ_iff_lt_or_eq.mp before with
        | inl old => exact least j old
        | inr new => exact new ▸ Nat.le_of_not_lt smaller
  exact looped sums.length (length_pos_iff.mpr nonempty)

/-! ### Lists in which one item changes -/

section modify
variable {α β : Type}

theorem map_modify_comm {f : α → α} {g : α → β} {h : β → β} (commutes : ∀ a, g (f a) = h (g a)) (items : List α) (i : Nat) :
    (items.modify i f).map g = (items.map g).modify i h := by
  apply ext_getElem?
  intro j
  rw [getElem?_map, getElem?_modify, getElem?_modify, getElem?_map]
  cases items[j]? with
  | none => rfl
  | some item =>
    by_cases here : i = j
    · simp [here, commutes]
    · simp [here]

theorem mem_modify {f : α → α} {items : List α} {i : Nat} {item : α} (member : item ∈ items.modify i f) :
    item ∈ items ∨ ∃ old, items[i]? = some old ∧ item = f old := by
  obtain ⟨j, found⟩ := mem_iff_getElem?.mp member
  rw [getElem?_modify] at found
  obtain ⟨old, isOld, same⟩ := Option.map_eq_some_iff.mp found
  by_cases here : i = j
  · rw [if_pos here] at same
    exact Or.inr ⟨old, here ▸ isOld, same.symm⟩
  · rw [if_neg here] at same
    exact Or.inl (same ▸ mem_of_getElem? isOld)

theorem flatten_modify (item : α) {lists : List (List α)} {i : Nat} (inside : i < lists.length) :
    (lists.modify i (· ++ [item])).flatten.Perm (lists.flatten ++ [item]) := by
  induction lists generalizing i with
  | nil => cases inside
  | cons first rest ih =>
    cases i with
    | zero =>
      rw [modify_zero_cons, flatten_cons, flatten_cons, append_assoc, append_assoc]
      exact perm_append_comm.append_left first
    | succ i =>
      rw [modify_succ_cons, flatten_cons, flatten_cons, append_assoc]
      exact (ih (Nat.lt_of_succ_lt_succ inside)).append_left first

end modify

theorem level_of_average {sizes : List Nat} {average : Nat} (close : ∀ a ∈ sizes, ∀ b ∈ sizes, a ≤ b + 1)
    (total : sizes.sum = sizes.length * average) : ∀ size ∈ sizes, size = average := by
  intro size member
  obtain ⟨before, after, rfl⟩ := append_of_mem member
  rw [sum_append, sum_cons, length_append, length_cons] at total
  have inBefore : ∀ other ∈ before, other ∈ before ++ size :: after := fun other => mem_append_left _
  have inAfter : ∀ other ∈ after, other ∈ before ++ size :: after :=
    fun other inside => mem_append_right _ (mem_cons_of_mem _ inside)
  have split : (before.length + (after.length + 1)) * average = before.length * average + after.length * average + average := by ring
  rw [split] at total
  rcases Nat.lt_trichotomy size average with below | same | above
  · -- no size is above the average
    have first := sum_le_card_nsmul before average (fun other inside => by have := close other (inBefore other inside) size member; omega)
    have last := sum_le_card_nsmul after average (fun other inside => by have := close other (inAfter other inside) size member; omega)
    simp only [smul_eq_mul] at first last
    omega
  · exact same
  · -- no size is below the average
    have first := card_nsmul_le_sum before average (fun other inside => by have := close size member other (inBefore other inside); omega)
    have last := card_nsmul_le_sum after average (fun other inside => by have := close size member other (inAfter other inside); omega)
    simp only [smul_eq_mul] at first last
    omega

/-! ### The invariant of the loop -/

theorem workload_append (seqlenList first second : List Nat) :
    workload seqlenList (first ++ second) = workload seqlenList first + workload seqlenList second := by
  rw [workload, map_append, sum_append]
  rfl

theorem workload_le {seqlenList partition indices : List Nat} {n : Nat} (inside : n ≤ seqlenList.length)
    (perm : indices.Perm (range n)) (part : partition.Sublist indices) : workload seqlenList partition ≤ seqlenList.sum := by
  have first : (range n).map (seqlenList.getD · 0) = seqlenList.take n := by
    apply ext_getElem
    · rw [length_map, length_range, length_take, Nat.min_eq_left inside]
    · intro i left right
      rw [getElem_map, getElem_range, getElem_take, getD_eq_getElem]
  calc workload seqlenList partition
      ≤ workload seqlenList indices := (part.map _).sum_le_sum (fun _ _ => Nat.zero_le _)
    _ = (seqlenList.take n).sum := by rw [workload, (perm.map _).sum_eq, first]
    _ ≤ seqlenList.sum := (take_sublist n seqlenList).sum_le_sum (fun _ _ => Nat.zero_le _)

structure Assigned (seqlenList : List Nat) (bias k n : Nat) (assignment : Assignment) : Prop where
  count : assignment.partitions.length = k
  sums : assignment.partitionSums =
    assignment.partitions.map (fun partition => workload seqlenList partition + bias * partition.length)
  indices : assignment.partitions.flatten.Perm (List.range n)
  sizes : ∀ first ∈ assignment.partitions, ∀ second ∈ assignment.partitions, first.length ≤ second.length + 1

namespace Assigned
open List
variable {seqlenList : List Nat} {bias k n : Nat} {assignment : Assignment}

theorem empty (seqlenList : List Nat) (bias k : Nat) : Assigned seqlenList bias k 0 (.empty k) where
  count := length_replicate
  sums := by simp [Assignment.empty, workload]
  indices := by simp [Assignment.empty]
  sizes := by
    intro first isFirst second isSecond
    rw [(mem_replicate.mp isFirst).2]
    exact Nat.zero_le _

theorem smallest (assigned : Assigned seqlenList bias k n assignment) (inside : n ≤ seqlenList.length)
    (dominates : seqlenList.sum < bias) {first second : List Nat} (isSecond : second ∈ assignment.partitions)
    (least : workload seqlenList first + bias * first.length ≤ workload seqlenList second + bias * second.length) :
    first.length ≤ second.length := by
  by_contra longer
  have bounded := workload_le inside assigned.indices (sublist_flatten_of_mem isSecond)
  have more := Nat.mul_le_mul_left bias (Nat.lt_of_not_le longer)
  rw [Nat.mul_succ] at more
  omega

theorem assign (assigned : Assigned seqlenList bias k n assignment) (inside : n < seqlenList.length)
    (dominates : seqlenList.sum < bias) (positive : 0 < k) :
    ∃ next, assignment.assign (seqlenList.getD n 0 + bias, n) = .ok next ∧ Assigned seqlenList bias k (n + 1) next := by
  obtain ⟨partitions, partitionSums⟩ := assignment
  have count : partitions.length = k := assigned.count
  have sums : partitionSums = partitions.map (fun partition => workload seqlenList partition + bias * partition.length) := assigned.sums
  have sizes := assigned.sizes
  subst sums
  have nonempty : partitions.map (fun partition => workload seqlenList partition + bias * partition.length) ≠ [] := by
    rw [Ne, map_eq_nil_iff, ← length_eq_zero_iff, count]
    exact Nat.ne_of_gt positive
  obtain ⟨i, bound, found, least⟩ := minIdx_spec nonempty
  rw [length_map] at bound least
  have chosen : ∀ other ∈ partitions, partitions[i].length ≤ other.length := by
    intro other isOther
    obtain ⟨j, bound', rfl⟩ := mem_iff_getElem.mp isOther
    apply assigned.smallest (Nat.le_of_lt inside) dominates isOther
    simpa [getD_eq_getElem?_getD, bound, bound'] using least j bound'
  simp only [Assignment.assign, found]
  refine ⟨_, rfl, ?_, ?_, ?_, ?_⟩
  · exact (length_modify _ _ _).trans count
  · refine (map_modify_comm ?_ partitions i).symm
    intro partition
    rw [workload_append, length_append, length_singleton, Nat.mul_succ]
    simp only [workload, map_cons, map_nil, sum_cons, sum_nil]
    omega
  · rw [range_succ]
    exact (flatten_modify n bound).trans (assigned.indices.append_right [n])
  · intro first isFirst second isSecond
    cases mem_modify isFirst with
    | inl oldFirst =>
      cases mem_modify isSecond with
      | inl oldSecond => exact sizes first oldFirst second oldSecond
      | inr newSecond =>
        obtain ⟨old, isOld, rfl⟩ := newSecond
        have close := sizes first oldFirst old (mem_of_getElem? isOld)
        rw [length_append]
        omega
    | inr newFirst =>
      obtain ⟨old, isOld, rfl⟩ := newFirst
      rw [getElem?_eq_getElem bound] at isOld
      cases isOld
      rw [length_append, length_singleton]
      cases mem_modify isSecond with
      | inl oldSecond => exact Nat.succ_le_succ (chosen second oldSecond)
      | inr newSecond =>
        obtain ⟨old, isOld, rfl⟩ := newSecond
        rw [getElem?_eq_getElem bound] at isOld
        cases isOld
        rw [length_append, length_singleton]
        exact Nat.le_succ _

end Assigned

/-! ### The loop -/

theorem sortedSeqlen_take_succ {seqlenList : List Nat} {equalSize : Bool} {n : Nat} (inside : n < seqlenList.length) :
    (sortedSeqlen seqlenList equalSize).take (n + 1) = (sortedSeqlen seqlenList equalSize).take n ++
      [(seqlenList.getD n 0 + (if equalSize then seqlenList.sum + 1 else 0), n)] := by
  have length : n < (sortedSeqlen seqlenList equalSize).length := by
    rw [sortedSeqlen, length_map, length_zipIdx]
    exact inside
  rw [take_succ_eq_append_getElem length]
  simp [sortedSeqlen, getD_eq_getElem?_getD, inside]

theorem assigned_take {seqlenList : List Nat} {k n : Nat} (inside : n ≤ seqlenList.length) (positive : n = 0 ∨ 0 < k) :
    ∃ reached, ((sortedSeqlen seqlenList true).take n).foldlM Assignment.assign (.empty k) = .ok reached ∧
      Assigned seqlenList (seqlenList.sum + 1) k n reached := by
  induction n with
  | zero => exact ⟨_, rfl, .empty _ _ _⟩
  | succ n ih =>
    have positive : 0 < k := positive.resolve_left (Nat.succ_ne_zero n)
    obtain ⟨reached, looped, assigned⟩ := ih (Nat.le_of_succ_le inside) (Or.inr positive)
    obtain ⟨next, taken, assigned⟩ := assigned.assign inside (Nat.lt_succ_self _) positive
    refine ⟨next, ?_, assigned⟩
    rw [sortedSeqlen_take_succ inside, foldlM_append, looped, Fallible.ok_bind, foldlM_cons, if_pos rfl, taken]
    rfl

/-- The loop never leaves partitions whose sizes are more than one apart, and ends with partitions of one size
that share out the indices. -/
theorem greedyPartition_equal {seqlenList : List Nat} {k : Nat} (divides : k ∣ seqlenList.length) :
    (∀ n ≤ seqlenList.length, ∃ reached,
      ((sortedSeqlen seqlenList true).take n).foldlM Assignment.assign (.empty k) = .ok reached ∧
        ∀ first ∈ reached.partitions, ∀ second ∈ reached.partitions, first.length ≤ second.length + 1) ∧
    ∃ partitions, greedyPartition seqlenList k true = .ok partitions ∧ partitions.length = k ∧
      partitions.flatten.Perm (List.range seqlenList.length) ∧
      (∀ partition ∈ partitions, partition.length = seqlenList.length / k) ∧
      ∀ first ∈ partitions, ∀ second ∈ partitions,
        workload seqlenList first - workload seqlenList second < seqlenList.sum + 1 := by
  have positive : seqlenList.length = 0 ∨ 0 < k := by
    rcases Nat.eq_zero_or_pos k with rfl | positive
    · exact Or.inl (Nat.zero_dvd.mp divides)
    · exact Or.inr positive
  constructor
  · intro n inside
    obtain ⟨reached, looped, assigned⟩ := assigned_take (k := k) inside (positive.imp_left (fun none => by omega))
    exact ⟨reached, looped, assigned.sizes⟩
  · obtain ⟨final, looped, assigned⟩ := assigned_take (k := k) (Nat.le_refl seqlenList.length) positive
    have whole : (sortedSeqlen seqlenList true).take seqlenList.length = sortedSeqlen seqlenList true := by
      apply List.take_of_length_le
      rw [sortedSeqlen, List.length_map, List.length_zipIdx]
    rw [whole] at looped
    obtain ⟨average, isAverage⟩ := divides
    have total := assigned.indices.length_eq
    rw [List.length_flatten, List.length_range] at total
    have level : ∀ partition ∈ final.partitions, partition.length = average := by
      intro partition member
      refine level_of_average ?_ ?_ _ (List.mem_map_of_mem member)
      · intro first isFirst second isSecond
        obtain ⟨left, isLeft, rfl⟩ := List.mem_map.mp isFirst
        obtain ⟨right, isRight, rfl⟩ := List.mem_map.mp isSecond
        exact assigned.sizes left isLeft right isRight
      · rw [total, List.length_map, assigned.count, isAverage]
    have passes : final.partitions.find? (fun partition => true && partition.length * k ≠ seqlenList.length) = none := by
      rw [List.find?_eq_none]
      intro partition member
      simp [level partition member, isAverage, Nat.mul_comm]
    refine ⟨final.partitions, ?_, assigned.count, assigned.indices, ?_, ?_⟩
    · rw [greedyPartition, looped, Fallible.ok_bind, passes]
    · intro partition member
      have some : 0 < k := assigned.count ▸ List.length_pos_of_mem member
      rw [level partition member, isAverage, Nat.mul_div_cancel_left _ some]
    · intro first isFirst second isSecond
      have bounded := workload_le (Nat.le_refl _) assigned.indices (List.sublist_flatten_of_mem isFirst)
      omega

theorem greedyPartition_equal_six : ∃ partitions, greedyPartition [5, 1, 8, 2, 7, 7] 2 true = .ok partitions ∧
    ∀ partition ∈ partitions, partition.length = 6 / 2 := by
  obtain ⟨-, partitions, returned, -, -, sizes, -⟩ := greedyPartition_equal (show 2 ∣ [5, 1, 8, 2, 7, 7].length from ⟨3, rfl⟩)
  exact ⟨partitions, returned, sizes⟩

end LLMFusion.SeqlenBalancing
