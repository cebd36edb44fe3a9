import LLMFusion.GroupBalancing

/-! Balancing a batch over the data parallel ranks. The rows are reordered on the controller, and the
dispatch cuts them into equal parts. -/

namespace LLMFusion.SeqlenBalancing
open Sorting

variable {υ : Type} [DecidableEq υ]

inductive BalanceFailure where
  | zeroDivision
  | numUidGroups (numGroups dpSize : Nat)
  | grouping (failure : GroupFailure)
  | balancing (failure : Failure)
  deriving DecidableEq, Repr

structure BalanceConfig where
  usePrefixGrouper : Bool
  keepMinibatch : Bool
  ppoMiniBatchSize : Nat
  dpSize : Nat
  deriving DecidableEq, Repr

variable (config : BalanceConfig)

/-- The groups of a uid stay together; every rank gets as many of them. -/
def groupPartitions (seqlenList : List Nat) (uidList : List (Option υ)) : Except BalanceFailure (List (List Nat)) :=
  if config.dpSize = 0 then .error .zeroDivision
  else if uidList.dedup.length % config.dpSize ≠ 0 then .error (.numUidGroups uidList.dedup.length config.dpSize)
  else (getGroupBalancedPartitions seqlenList uidList config.dpSize).mapError .grouping

/-- The partitions of a mini-batch are appended to those of the ranks. -/
def extendPartitions (workloadLst : List Nat) (globalPartitionLst : List (List Nat)) (i : Nat) :
    Except BalanceFailure (List (List Nat)) := do
  let minibatchSize := config.ppoMiniBatchSize
  let rearrangeMinibatchLst ← (getSeqlenBalancedPartitions ((workloadLst.drop (i * minibatchSize)).take minibatchSize)
    config.dpSize true).mapError .balancing
  return List.zipWith (fun partition part => partition ++ part.map (· + minibatchSize * i)) globalPartitionLst rearrangeMinibatchLst

def minibatchPartitions (workloadLst : List Nat) : Except BalanceFailure (List (List Nat)) :=
  if config.ppoMiniBatchSize = 0 then .error .zeroDivision
  else (List.range (workloadLst.length / config.ppoMiniBatchSize)).foldlM (extendPartitions config workloadLst)
    (List.replicate config.dpSize [])

def workloadLess (workloadLst : List Nat) : Nat → Nat → Bool :=
  byKey (fun x => workloadLst.getD x 0) (byKey (fun x => x) (fun _ _ => false))

/-- Place smaller micro-batches at both ends to reduce the bubbles in pipeline parallel. -/
def orderedPartition (workloadLst partition : List Nat) : List Nat :=
  let partition := sorted (workloadLess workloadLst) partition
  everySecond partition ++ (everySecond partition.tail).reverse

/-- The partitions of the ranks, before their rows are ordered. -/
def globalPartitions (globalSeqlenLst : List Nat) (uids : Option (List (Option υ))) : Except BalanceFailure (List (List Nat)) :=
  let workloadLst := globalSeqlenLst.map calculateWorkload
  match if config.usePrefixGrouper then uids else none with
  | some uidList => groupPartitions config globalSeqlenLst uidList
  | none =>
    if config.keepMinibatch then minibatchPartitions config workloadLst
    else (getSeqlenBalancedPartitions workloadLst config.dpSize true).mapError .balancing

/-- The index that the batch is reordered by. -/
def balanceBatch (globalSeqlenLst : List Nat) (uids : Option (List (Option υ))) : Except BalanceFailure (List Nat) := do
  let globalPartitionLst ← globalPartitions config globalSeqlenLst uids
  if config.usePrefixGrouper then return globalPartitionLst.flatten
  return globalPartitionLst.flatMap (orderedPartition (globalSeqlenLst.map calculateWorkload))

end LLMFusion.SeqlenBalancing
