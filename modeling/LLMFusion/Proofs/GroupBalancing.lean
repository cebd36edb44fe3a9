import LLMFusion.GroupBalancing
import LLMFusion.Proofs.BalancedPartitions

/-! Balanced partitions of whole groups. The groups are the runs of one uid, which are all samples of the uid
where these stand together. -/

namespace LLMFusion.SeqlenBalancing
open List
open Sorting KarmarkarKarp

variable {υ : Type} [DecidableEq υ]

/-! ### What is claimed -/

def uidAt (uidList : List (Option υ)) (i : Nat) : Option υ := uidList.getD i none

/-- The samples of one uid stand together. -/
def Contiguous (uidList : List (Option υ)) : Prop :=
  ∀ i j l, i < j → j < l → l < uidList.length → uidAt uidList i = uidAt uidList l → uidAt uidList j = uidAt uidList i

/-- Every sample is in one partition, and only once. -/
def OnePartition (items : Nat) (partitions : List (List Nat)) : Prop := partitions.flatten.Perm (List.range items)

/-- All samples of a uid are in one partition. -/
def KeepsTogether (uidList : List (Option υ)) (partitions : List (List Nat)) : Prop :=
  ∀ partition ∈ partitions, ∀ i ∈ partition, ∀ j < uidList.length, uidAt uidList j = uidAt uidList i → j ∈ partition

/-- All partitions have the same number of uids. -/
def SameGroups (uidList : List (Option υ)) (partitions : List (List Nat)) : Prop :=
  ∀ first ∈ partitions, ∀ second ∈ partitions,
    (first.map (uidAt uidList)).toFinset.card = (second.map (uidAt uidList)).toFinset.card

/-! ### The groups -/

structure Scanned (uidList : List (Option υ)) (n : Nat) (scan : GroupScan υ) : Prop where
  indices : (scan.groups.map Prod.fst).flatten ++ scan.currentIndices = List.range n
  started : scan.currentIndices = [] → scan.groups = []
  filled : ∀ group ∈ scan.groups, group.1 ≠ []
  current : ∀ i ∈ scan.currentIndices, uidAt uidList i = scan.currentUid
  same : ∀ group ∈ scan.groups, ∀ i ∈ group.1, ∀ j ∈ group.1, uidAt uidList i = uidAt uidList j
  apart : Contiguous uidList → scan.groups.Pairwise (fun first second => ∀ i ∈ first.1, ∀ j ∈ second.1, uidAt uidList i ≠ uidAt uidList j)
  ended : Contiguous uidList → ∀ group ∈ scan.groups, ∀ i ∈ group.1, uidAt uidList i ≠ scan.currentUid

namespace Scanned
variable {uidList : List (Option υ)} {n : Nat} {scan : GroupScan υ}

omit [DecidableEq υ] in
theorem before (scanned : Scanned uidList n scan) {group : List Nat × Nat} (isGroup : group ∈ scan.groups) {i j : Nat} (inside : i ∈ group.1)
    (isCurrent : j ∈ scan.currentIndices) : i < j := by
  have increasing : ((scan.groups.map Prod.fst).flatten ++ scan.currentIndices).Pairwise (· < ·) := by
    rw [scanned.indices]
    exact pairwise_lt_range
  exact (pairwise_append.mp increasing).2.2 i (mem_flatten.mpr ⟨group.1, mem_map_of_mem isGroup, inside⟩) j isCurrent

omit [DecidableEq υ] in
theorem seen (scanned : Scanned uidList n scan) {i : Nat} (isCurrent : i ∈ scan.currentIndices) : i < n := by
  have member : i ∈ (scan.groups.map Prod.fst).flatten ++ scan.currentIndices := mem_append_right _ isCurrent
  rw [scanned.indices] at member
  exact mem_range.mp member

omit [DecidableEq υ] in
theorem closed (scanned : Scanned uidList n scan) :
    (scan.close.map Prod.fst).flatten = range n ∧ (∀ group ∈ scan.close, group.1 ≠ []) ∧
      (∀ group ∈ scan.close, ∀ i ∈ group.1, ∀ j ∈ group.1, uidAt uidList i = uidAt uidList j) ∧ (Contiguous uidList →
        scan.close.Pairwise (fun first second => ∀ i ∈ first.1, ∀ j ∈ second.1, uidAt uidList i ≠ uidAt uidList j)) := by
  rw [GroupScan.close]
  split
  · next some =>
    refine ⟨?_, ?_, ?_, ?_⟩
    · rw [map_append, flatten_append, ← scanned.indices]
      simp
    · intro group member
      cases mem_append.mp member with
      | inl old => exact scanned.filled group old
      | inr last => exact mem_singleton.mp last ▸ some
    · intro group member i isFirst j isSecond
      cases mem_append.mp member with
      | inl old => exact scanned.same group old i isFirst j isSecond
      | inr last =>
        rw [mem_singleton.mp last] at isFirst isSecond
        exact (scanned.current i isFirst).trans (scanned.current j isSecond).symm
    · intro contiguous
      rw [pairwise_append]
      refine ⟨scanned.apart contiguous, pairwise_singleton _ _, ?_⟩
      intro group isGroup last isLast i inside j isCurrent
      rw [mem_singleton.mp isLast] at isCurrent
      rw [scanned.current j isCurrent]
      exact scanned.ended contiguous group isGroup i inside
  · next none =>
    rw [Ne, not_not] at none
    have noGroups := scanned.started none
    have empty := scanned.indices
    rw [noGroups, none] at empty
    rw [noGroups]
    exact ⟨empty, nofun, nofun, fun _ => .nil⟩

theorem next (scanned : Scanned uidList n scan) (inside : n < uidList.length) (seqlen : Nat) :
    Scanned uidList (n + 1) (scan.next ((seqlen, uidAt uidList n), n)) := by
  obtain ⟨indices, filled, same, apart⟩ := scanned.closed
  rw [GroupScan.next]
  split
  · next changes =>
    refine ⟨?_, nofun, filled, ?_, same, apart, ?_⟩
    · rw [indices, range_succ]
    · intro i isNew
      rw [mem_singleton.mp isNew]
    · intro contiguous group isGroup i isOld equal
      simp only at equal changes
      rw [GroupScan.close] at isGroup
      split at isGroup
      · next some =>
        cases mem_append.mp isGroup with
        | inr last =>
          rw [mem_singleton.mp last] at isOld
          exact changes (equal.symm.trans (scanned.current i isOld))
        | inl old =>
          -- a sample of the current group is between the two
          obtain ⟨j, isCurrent⟩ := exists_mem_of_ne_nil _ some
          have between := contiguous i j n (scanned.before old isOld isCurrent) (scanned.seen isCurrent) inside equal
          exact changes (equal.symm.trans (between.symm.trans (scanned.current j isCurrent)))
      · next none =>
        rw [Ne, not_not] at none
        rw [scanned.started none] at isGroup
        cases isGroup
  · next stays =>
    rw [Ne, not_not] at stays
    refine ⟨?_, ?_, scanned.filled, ?_, scanned.same, scanned.apart, scanned.ended⟩
    · rw [← append_assoc, scanned.indices, range_succ]
    · intro none
      exact absurd none (append_ne_nil_of_right_ne_nil _ (cons_ne_nil _ _))
    · intro i member
      cases mem_append.mp member with
      | inl old => exact scanned.current i old
      | inr new =>
        rw [mem_singleton.mp new]
        exact stays

end Scanned

theorem uidGroups_scanned {seqlenList : List Nat} {uidList : List (Option υ)} (same : seqlenList.length = uidList.length) :
    Scanned uidList uidList.length ((seqlenList.zip uidList).zipIdx.foldl GroupScan.next ⟨[], none, [], 0⟩) := by
  have length : (seqlenList.zip uidList).zipIdx.length = uidList.length := by
    rw [length_zipIdx, length_zip, same, Nat.min_self]
  have looped : ∀ n ≤ uidList.length, Scanned uidList n (((seqlenList.zip uidList).zipIdx.take n).foldl GroupScan.next ⟨[], none, [], 0⟩) := by
    intro n inside
    induction n with
    | zero => exact ⟨rfl, fun _ => rfl, nofun, nofun, nofun, fun _ => .nil, fun _ => nofun⟩
    | succ n ih =>
      have bound : n < (seqlenList.zip uidList).zipIdx.length := length ▸ inside
      rw [take_succ_eq_append_getElem bound, foldl_append, foldl_cons, foldl_nil]
      have step := (ih (Nat.le_of_succ_le inside)).next inside (seqlenList.getD n 0)
      have fits : n < seqlenList.length := same ▸ inside
      have item : (seqlenList.zip uidList).zipIdx[n] = ((seqlenList.getD n 0, uidAt uidList n), n) := by
        rw [getElem_zipIdx, getElem_zip, uidAt, getD_eq_getElem _ _ fits, getD_eq_getElem _ _ inside, Nat.zero_add]
      rw [item]
      exact step
  have whole := looped uidList.length (Nat.le_refl _)
  rwa [take_of_length_le (Nat.le_of_eq length)] at whole

/-! ### The partitions -/

theorem getSeqlenBalancedPartitions_divides {seqlenList : List Nat} {k : Nat} {partitions : List (List Nat)}
    (returned : getSeqlenBalancedPartitions seqlenList k true = .ok partitions) :
    1 ≤ k ∧ k ≤ seqlenList.length ∧ k ∣ seqlenList.length := by
  rw [getSeqlenBalancedPartitions] at returned
  split at returned
  · cases returned
  · next enough =>
    rw [karmarkarKarp, initialStates] at returned
    by_cases zero : k = 0
    · simp [zero] at returned
    · by_cases divides : seqlenList.length % k = 0
      · exact ⟨Nat.pos_of_ne_zero zero, Nat.le_of_not_lt enough, Nat.dvd_of_mod_eq_zero divides⟩
      · simp [zero, divides] at returned

def groupIndices (groups : List (List Nat × Nat)) (groupIdx : Nat) : List Nat := (groups.getD groupIdx ([], 0)).1

theorem getGroupBalancedPartitions_returned {seqlenList : List Nat} {uidList : List (Option υ)} {k : Nat} {partitions : List (List Nat)}
    (returned : getGroupBalancedPartitions seqlenList uidList k = .ok partitions) :
    seqlenList.length = uidList.length ∧ ∃ groupPartitions, Partition (uidGroups seqlenList uidList).length k groupPartitions ∧
      (∀ groupPartition ∈ groupPartitions, groupPartition.length = (uidGroups seqlenList uidList).length / k) ∧
      partitions = groupPartitions.map (fun groupPartition =>
        sorted (fun a b => a < b) (groupPartition.flatMap (groupIndices (uidGroups seqlenList uidList)))) := by
  rw [getGroupBalancedPartitions] at returned
  split at returned
  · cases returned
  · next same =>
    refine ⟨not_not.mp same, ?_⟩
    simp only at returned
    split at returned
    · cases returned
    · split at returned
      · cases returned
      · next groupPartitions balanced =>
        cases returned
        obtain ⟨positive, enough, divides⟩ := getSeqlenBalancedPartitions_divides balanced
        obtain ⟨final, valid, balanced', partition⟩ := getSeqlenBalancedPartitions_final _ k true positive enough (fun _ => divides)
        cases balanced.symm.trans balanced'
        rw [length_map] at partition
        refine ⟨_, partition, ?_, rfl⟩
        intro groupPartition member
        obtain ⟨original, inside, rfl⟩ := mem_map.mp member
        have size := valid.size original inside
        rw [length_map] at size
        rw [(sorted_perm _ original).length_eq, ← size, Nat.mul_div_cancel _ positive]

section groups
variable {seqlenList : List Nat} {uidList : List (Option υ)}

theorem groupIndices_mem {groups : List (List Nat × Nat)} {groupIdx : Nat} (inside : groupIdx < groups.length) :
    ∃ group ∈ groups, groupIndices groups groupIdx = group.1 :=
  ⟨groups[groupIdx], getElem_mem inside, by rw [groupIndices, getD_eq_getElem _ _ inside]⟩

theorem groupIndices_apart (same : seqlenList.length = uidList.length) (contiguous : Contiguous uidList) {first second : Nat}
    (isFirst : first < (uidGroups seqlenList uidList).length) (isSecond : second < (uidGroups seqlenList uidList).length)
    {i j : Nat} (inFirst : i ∈ groupIndices (uidGroups seqlenList uidList) first)
    (inSecond : j ∈ groupIndices (uidGroups seqlenList uidList) second) (equal : uidAt uidList i = uidAt uidList j) : first = second := by
  have apart := (uidGroups_scanned same).closed.2.2.2 contiguous
  rw [groupIndices, getD_eq_getElem _ _ isFirst] at inFirst
  rw [groupIndices, getD_eq_getElem _ _ isSecond] at inSecond
  rcases Nat.lt_trichotomy first second with before | here | after
  · exact absurd equal (pairwise_iff_getElem.mp apart first second isFirst isSecond before i inFirst j inSecond)
  · exact here
  · exact absurd equal.symm (pairwise_iff_getElem.mp apart second first isSecond isFirst after j inSecond i inFirst)

theorem groupIndices_flatMap (same : seqlenList.length = uidList.length) :
    (range (uidGroups seqlenList uidList).length).flatMap (groupIndices (uidGroups seqlenList uidList)) =
      range uidList.length := by
  have indices := (uidGroups_scanned same).closed.1
  rw [← indices, flatMap_def]
  congr 1
  apply ext_getElem
  · rw [length_map, length_range, length_map]
    rfl
  · intro i left right
    have inside : i < (uidGroups seqlenList uidList).length := by simpa using left
    rw [getElem_map, getElem_range, groupIndices, getD_eq_getElem _ _ inside, getElem_map]
    rfl

end groups

/-! ### The result -/

/-- Whenever the call returns, every sample is in one partition. Where the samples of a uid stand together, they are
in one partition, and all partitions have the same number of uids. -/
theorem groupBalanced_partitions {seqlenList : List Nat} {uidList : List (Option υ)} {k : Nat} {partitions : List (List Nat)}
    (returned : getGroupBalancedPartitions seqlenList uidList k = .ok partitions) :
    OnePartition uidList.length partitions ∧
      (Contiguous uidList → KeepsTogether uidList partitions ∧ SameGroups uidList partitions) := by
  obtain ⟨same, groupPartitions, partition, sizes, rfl⟩ := getGroupBalancedPartitions_returned returned
  have shares := groupIndices_flatMap same
  have known {groupPartition : List Nat} (member : groupPartition ∈ groupPartitions) {groupIdx : Nat} (inside : groupIdx ∈ groupPartition) :
      groupIdx < (uidGroups seqlenList uidList).length := (partition.covers groupIdx).mp ⟨groupPartition, member, inside⟩
  constructor
  · have unsorted : (groupPartitions.map (fun groupPartition =>
        sorted (fun a b => a < b) (groupPartition.flatMap (groupIndices (uidGroups seqlenList uidList))))).flatten.Perm
          (groupPartitions.flatMap (fun groupPartition => groupPartition.flatMap (groupIndices (uidGroups seqlenList uidList)))) := by
      rw [← List.flatMap_def]
      exact List.Perm.flatMap_left _ (fun groupPartition _ => sorted_perm _ _)
    rw [← List.flatMap_assoc, List.flatMap_id'] at unsorted
    exact unsorted.trans (shares ▸ partition.indices.flatMap_right _)
  · intro contiguous
    constructor
    · intro part member i inside j fits equal
      obtain ⟨groupPartition, isPart, rfl⟩ := List.mem_map.mp member
      obtain ⟨groupIdx, isGroup, inGroup⟩ := List.mem_flatMap.mp ((sorted_perm _ _).mem_iff.mp inside)
      have listed : j ∈ (List.range (uidGroups seqlenList uidList).length).flatMap (groupIndices (uidGroups seqlenList uidList)) :=
        shares ▸ List.mem_range.mpr fits
      obtain ⟨other, isOther, inOther⟩ := List.mem_flatMap.mp listed
      have here := groupIndices_apart same contiguous (List.mem_range.mp isOther) (known isPart isGroup) inOther inGroup equal
      exact (sorted_perm _ _).mem_iff.mpr (List.mem_flatMap.mpr ⟨groupIdx, isGroup, here ▸ inOther⟩)
    · -- a partition has as many uids as groups
      have count : ∀ part ∈ groupPartitions.map (fun groupPartition =>
          sorted (fun a b => a < b) (groupPartition.flatMap (groupIndices (uidGroups seqlenList uidList)))),
          (part.map (uidAt uidList)).toFinset.card = (uidGroups seqlenList uidList).length / k := by
        intro part member
        obtain ⟨groupPartition, isPart, rfl⟩ := List.mem_map.mp member
        have heads {groupIdx : Nat} (isGroup : groupIdx ∈ groupPartition) :
            (groupIndices (uidGroups seqlenList uidList) groupIdx).headD 0 ∈ groupIndices (uidGroups seqlenList uidList) groupIdx := by
          obtain ⟨group, listed, isIndices⟩ := groupIndices_mem (known isPart isGroup)
          have filled := (uidGroups_scanned same).closed.2.1 group listed
          rw [isIndices]
          cases indices : group.1 with
          | nil => exact absurd indices filled
          | cons head rest => exact List.mem_cons_self
        have uids : ((sorted (fun a b => a < b) (groupPartition.flatMap (groupIndices (uidGroups seqlenList uidList)))).map
            (uidAt uidList)).toFinset = (groupPartition.map (fun groupIdx =>
              uidAt uidList ((groupIndices (uidGroups seqlenList uidList) groupIdx).headD 0))).toFinset := by
          ext uid
          rw [List.mem_toFinset, List.mem_toFinset]
          constructor
          · intro inside
            obtain ⟨i, isIndex, rfl⟩ := List.mem_map.mp inside
            obtain ⟨groupIdx, isGroup, inGroup⟩ := List.mem_flatMap.mp ((sorted_perm _ _).mem_iff.mp isIndex)
            refine List.mem_map.mpr ⟨groupIdx, isGroup, ?_⟩
            have head := heads isGroup
            obtain ⟨group, listed, isIndices⟩ := groupIndices_mem (known isPart isGroup)
            rw [isIndices] at head inGroup ⊢
            exact (uidGroups_scanned same).closed.2.2.1 group listed _ head _ inGroup
          · intro inside
            obtain ⟨groupIdx, isGroup, rfl⟩ := List.mem_map.mp inside
            refine List.mem_map.mpr ⟨_, ?_, rfl⟩
            exact (sorted_perm _ _).mem_iff.mpr (List.mem_flatMap.mpr ⟨groupIdx, isGroup, heads isGroup⟩)
        have distinct : (groupPartition.map (fun groupIdx =>
            uidAt uidList ((groupIndices (uidGroups seqlenList uidList) groupIdx).headD 0))).Nodup := by
          refine List.Nodup.map_on ?_ ((partition.increasing _ isPart).imp Nat.ne_of_lt)
          intro first isFirst second isSecond equal
          exact groupIndices_apart same contiguous (known isPart isFirst) (known isPart isSecond) (heads isFirst) (heads isSecond) equal
        rw [uids, List.toFinset_card_of_nodup distinct, List.length_map, sizes _ isPart]
      intro first isFirst second isSecond
      exact (count first isFirst).trans (count second isSecond).symm

theorem groupBalanced_partitions_four : Contiguous [some 0, some 0, some 1, some 1] ∧
    KeepsTogether [some 0, some 0, some 1, some 1] [[0, 1], [2, 3]] := by
  have returned : getGroupBalancedPartitions [4, 4, 1, 1] [some 0, some 0, some 1, some 1] 2 = .ok [[0, 1], [2, 3]] := by decide +kernel
  have contiguous : Contiguous [some 0, some 0, some 1, some 1] := by
    intro i j l before after inside equal
    simp only [List.length_cons, List.length_nil] at inside
    interval_cases l <;> interval_cases j <;> interval_cases i <;> simp_all [uidAt]
  exact ⟨contiguous, ((groupBalanced_partitions returned).2 contiguous).1⟩

/-- Two uids in turn come to two partitions each. -/
theorem groupBalanced_splits : ∃ partitions,
    getGroupBalancedPartitions [5, 1, 5, 1] [some 0, some 1, some 0, some 1] 2 = .ok partitions ∧
      ¬ KeepsTogether [some 0, some 1, some 0, some 1] partitions := by
  refine ⟨[[1, 2], [0, 3]], by decide +kernel, ?_⟩
  intro together
  have moved := together [1, 2] List.mem_cons_self 2 (by decide) 0 (by decide) rfl
  simp at moved

end LLMFusion.SeqlenBalancing
