import LLMFusion.DynamicBatch

/-! The other partitioners: the greedy assignment, and the one that keeps the samples of one uid together. -/

namespace LLMFusion.SeqlenBalancing
open Sorting

/-! ### Greedy assignment -/

inductive GreedyFailure where
  /-- `partitions[None]` -/
  | typeError
  | partitionSize (size kPartitions items : Nat)
  deriving DecidableEq, Repr

/-- The partitions and their sums in the loop of `greedy_partition`. -/
structure Assignment where
  partitions : List (List Nat)
  partitionSums : List Nat
  deriving DecidableEq, Repr

/-- The first of the smallest sums; without sums there is none. -/
def minIdx (partitionSums : List Nat) : Option Nat :=
  (List.range partitionSums.length).foldl (fun minIdx j =>
    minIdx.elim (some j) (fun i => if partitionSums.getD j 0 < partitionSums.getD i 0 then some j else some i)) none

/-- One iteration for `(seqlen, i)`. -/
def Assignment.assign (assignment : Assignment) (item : Nat × Nat) : Except GreedyFailure Assignment :=
  match minIdx assignment.partitionSums with
  | none => .error .typeError
  | some minIdx => .ok {
      partitions := assignment.partitions.modify minIdx (· ++ [item.2])
      partitionSums := assignment.partitionSums.modify minIdx (· + item.1) }

def Assignment.empty (kPartitions : Nat) : Assignment := ⟨List.replicate kPartitions [], List.replicate kPartitions 0⟩

/-- What the loop goes over. It is not sorted. -/
def sortedSeqlen (seqlenList : List Nat) (equalSize : Bool) : List (Nat × Nat) :=
  let bias := if equalSize then seqlenList.sum + 1 else 0
  seqlenList.zipIdx.map (fun item => (item.1 + bias, item.2))

def greedyPartition (seqlenList : List Nat) (kPartitions : Nat) (equalSize : Bool) : Except GreedyFailure (List (List Nat)) := do
  let final ← (sortedSeqlen seqlenList equalSize).foldlM Assignment.assign (.empty kPartitions)
  match final.partitions.find? (fun partition => equalSize && partition.length * kPartitions ≠ seqlenList.length) with
  | some partition => .error (.partitionSize partition.length kPartitions seqlenList.length)
  | none => .ok final.partitions

/-! ### Groups of one uid -/

inductive GroupFailure where
  | differentLengths (samples uids : Nat)
  | tooFewGroups (numGroups kPartitions : Nat)
  | balancing (failure : Failure)
  deriving DecidableEq, Repr

variable {υ : Type} [DecidableEq υ]

/-- The loop of `get_group_balanced_partitions`. A uid can be `None`, which the loop also starts with. -/
structure GroupScan (υ : Type) where
  groups : List (List Nat × Nat)
  currentUid : Option υ
  currentIndices : List Nat
  currentSeqlen : Nat

/-- The groups with the current one, if it has samples. -/
def GroupScan.close (scan : GroupScan υ) : List (List Nat × Nat) :=
  if scan.currentIndices ≠ [] then scan.groups ++ [(scan.currentIndices, scan.currentSeqlen)] else scan.groups

/-- One iteration for sample `i` with its length and uid. -/
def GroupScan.next (scan : GroupScan υ) (sample : (Nat × Option υ) × Nat) : GroupScan υ :=
  if sample.1.2 ≠ scan.currentUid then ⟨scan.close, sample.1.2, [sample.2], sample.1.1⟩
  else { scan with currentIndices := scan.currentIndices ++ [sample.2], currentSeqlen := scan.currentSeqlen + sample.1.1 }

/-- The indices and the total length of every group. -/
def uidGroups (seqlenList : List Nat) (uidList : List (Option υ)) : List (List Nat × Nat) :=
  ((seqlenList.zip uidList).zipIdx.foldl GroupScan.next ⟨[], none, [], 0⟩).close

def getGroupBalancedPartitions (seqlenList : List Nat) (uidList : List (Option υ)) (kPartitions : Nat) :
    Except GroupFailure (List (List Nat)) :=
  if seqlenList.length ≠ uidList.length then .error (.differentLengths seqlenList.length uidList.length)
  else
    let groups := uidGroups seqlenList uidList
    if groups.length < kPartitions then .error (.tooFewGroups groups.length kPartitions)
    else
      let groupWorkloads := groups.map (fun group => (group.1.map (fun i => calculateWorkload (seqlenList.getD i 0))).sum)
      match getSeqlenBalancedPartitions groupWorkloads kPartitions true with
      | .error failure => .error (.balancing failure)
      | .ok groupPartitions => .ok (groupPartitions.map (fun groupPartition =>
          sorted (fun a b => a < b) (groupPartition.flatMap (fun groupIdx => (groups.getD groupIdx ([], 0)).1))))

end LLMFusion.SeqlenBalancing
