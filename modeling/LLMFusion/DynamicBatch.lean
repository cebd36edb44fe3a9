import LLMFusion.SeqlenBalancing
import LLMFusion.Lib.Gather
import LLMFusion.Lib.Fallible

/-! Dynamic micro-batches: splitting a batch by token count, and putting the
outputs of the micro-batches back in the order of the batch. -/

namespace LLMFusion.SeqlenBalancing
open Sorting KarmarkarKarp Gather

/-- What the splitting reads of a batch. A nested batch has one length per row; a
padded batch has an attention mask of one width. `ρ` is everything else in a row. -/
inductive Batch (ρ : Type) where
  | nested (rows : List (Nat × ρ))
  | padded (width : Nat) (rows : List ({ mask : List Bool // mask.length = width } × ρ))

/-- A row as a function of one row sees it, with its length or its mask. -/
abbrev Row (ρ : Type) := (Nat ⊕ List Bool) × ρ

namespace Batch
variable {ρ : Type}

def rows : Batch ρ → List (Row ρ)
  | .nested rows => rows.map (fun row => (.inl row.1, row.2))
  | .padded _ rows => rows.map (fun row => (.inr row.1.val, row.2))

def seqLenEffective : Batch ρ → List Nat
  | .nested rows => rows.map Prod.fst
  | .padded _ rows => rows.map (fun row => row.1.val.count true)

/-- The largest length of a nested batch; `max` of no lengths is a ValueError. -/
def maxSeqLen : Batch ρ → Except Failure Nat
  | .nested rows => match (rows.map Prod.fst).max? with
    | some length => .ok length
    | none => .error .valueError
  | .padded width _ => .ok width

/-- `index_select_tensor_dict` -/
def indexSelect (batch : Batch ρ) (indices : List Nat) : Except Failure (Batch ρ) :=
  let selected := match batch with
    | .nested rows => (gather rows indices).map Batch.nested
    | .padded width rows => (gather rows indices).map (Batch.padded width)
  match selected with
  | some selected => .ok selected
  | none => .error .indexError

end Batch

def calculateWorkload (seqlen : Nat) : Nat := 24576 * seqlen + seqlen ^ 2

def ceildiv (a b : Int) : Except Failure Int :=
  if b = 0 then .error .zeroDivision else .ok (-(a.fdiv (-b)))

def roundupDivisible (a b : Int) : Except Failure Int :=
  if b = 0 then .error .zeroDivision else .ok ((a + b - 1).fdiv b * b)

/-- The arguments of `rearrange_micro_batches` after the batch. `dpGroup` holds the
counts that the other members of the data-parallel group contribute to the
all-reduce; it is `none` without a group or without `torch.distributed`. -/
structure Arguments where
  maxTokenLen : Int
  dpGroup : Option (List Int) := none
  numBatchesDividedBy : Option Int := none
  sameMicroNumInDp : Bool := true
  minNumMicroBatch : Option Int := none
  useDynamicBszBalance : Bool := true
  forceGroupSize : Int := 1

def numMicroBatches (args : Arguments) (numGroups totalSeqlen : Int) : Except Failure Int := do
  let enough ← ceildiv totalSeqlen args.maxTokenLen
  let count := min numGroups enough
  let count := match args.minNumMicroBatch with
    | some least => max least count
    | none => count
  let count := match args.dpGroup with
    | some counts => if args.sameMicroNumInDp then counts.foldl max count else count
    | none => count
  match args.numBatchesDividedBy with
  | some divisor => roundupDivisible count divisor
  | none => .ok count

/-- A negative number of partitions leaves a state without sets to add to. -/
def partitionsOfInt (workloads : List Nat) (count : Int) : Except Failure (List (List Nat)) :=
  if count < 0 then .error .indexError
  else getSeqlenBalancedPartitions workloads count.toNat false

/-- The sums of consecutive blocks of `size` workloads. -/
def groupWorkloads (size groups : Nat) (workloads : List Nat) : List Nat :=
  (List.range groups).map (fun group => ((workloads.drop (group * size)).take size).sum)

/-- The rows of a group: `range(start_idx, start_idx + force_group_size)`. -/
def groupRows (size group : Nat) : List Nat := List.range' (group * size) size

/-- Every second item, `items[::2]`. -/
def everySecond {α : Type} : List α → List α
  | [] => []
  | [item] => [item]
  | item :: _ :: rest => item :: everySecond rest

/-- `items[::step]` -/
def strided (step : Nat) (items : List Nat) : List Nat :=
  items.zipIdx.filterMap (fun item => if item.2 % step = 0 then some item.1 else none)

/-- The comparison of the sort keys `(workload, partition[0])`. -/
def partitionLess (workload : List Nat → Nat) : List Nat → List Nat → Bool :=
  byKey workload (byKey (fun partition => partition.headD 0) (fun _ _ => false))

/-- Sort by workload in decreasing order, then place the smaller micro-batches at
both ends: `idx[::2][::-1] + idx[1::2]`. -/
def balanceOrder (workload : List Nat → Nat) (microBszIdx : List (List Nat)) : List (List Nat) :=
  let ordered := sortedReverse (partitionLess workload) microBszIdx
  (everySecond ordered).reverse ++ everySecond ordered.tail

/-- The index lists before they are reordered, and the workload of one of them. -/
def partitionRows (lengths : List Nat) (count forceGroupSize numGroups : Int) :
    Except Failure (List (List Nat) × (List Nat → Nat)) :=
  let workloads := lengths.map calculateWorkload
  if 1 < forceGroupSize then do
    let size := forceGroupSize.toNat
    let grouped := groupWorkloads size numGroups.toNat workloads
    let microBszGroupIdx ← partitionsOfInt grouped count
    return (microBszGroupIdx.map (fun groups => groups.flatMap (groupRows size)),
      fun partition => ((strided size partition).map (fun idx => grouped.getD (idx / size) 0)).sum)
  else do
    let microBszIdx ← partitionsOfInt workloads count
    return (microBszIdx, fun partition => (partition.map (fun idx => workloads.getD idx 0)).sum)

def rearrangeMicroBatches {ρ : Type} (batch : Batch ρ) (args : Arguments) :
    Except Failure (List (Batch ρ) × List (List Nat)) := do
  let maxSeqLen ← batch.maxSeqLen
  if args.maxTokenLen < maxSeqLen then throw (.maxTokenLen args.maxTokenLen maxSeqLen)
  let lengths := batch.seqLenEffective
  let batchSize := lengths.length
  if args.forceGroupSize = 0 then throw .zeroDivision
  if (batchSize : Int).fmod args.forceGroupSize ≠ 0 then
    throw (.forceGroupSize batchSize args.forceGroupSize)
  let numGroups := (batchSize : Int).fdiv args.forceGroupSize
  let count ← numMicroBatches args numGroups lengths.sum
  if numGroups < count then throw (.numMicroBatches count numGroups)
  let (microBszIdx, workload) ← partitionRows lengths count args.forceGroupSize numGroups
  let microBszIdx := if args.useDynamicBszBalance then balanceOrder workload microBszIdx else microBszIdx
  let microBatches ← microBszIdx.mapM batch.indexSelect
  return (microBatches, microBszIdx)

/-- `reverse_idx_map[idx] = i` for each position `i`, starting from a copy. -/
def getReverseIdx (idxMap : List Nat) : Except Failure (List Nat) :=
  match scatter idxMap idxMap.zipIdx with
  | some reverse => .ok reverse
  | none => .error .indexError

def restoreDynamicBatch {β : Type} (data : List β) (batchIdxList : List (List Nat)) :
    Except Failure (List β) := do
  let indices := batchIdxList.flatten
  if indices.length ≠ data.length then throw (.restoredLength indices.length data.length)
  let revertIndices ← getReverseIdx indices
  match gather data revertIndices with
  | some reverted => return reverted
  | none => throw .indexError

/-- The batch of a `DataProto` with its columns of Python objects, as long as the
batch: `check_consistency` lets no other be built. -/
structure Data (ρ ν : Type) where
  batch : Batch ρ
  nonTensorBatch : List (String × List ν)
  aligned : ∀ column ∈ nonTensorBatch, column.2.length = batch.rows.length

namespace Data
variable {ρ ν : Type}

/-- `DataProto.from_dict`, with the check of its columns. -/
def fromDict (batch : Batch ρ) (nonTensors : List (String × List ν)) : Except Failure (Data ρ ν) :=
  match found : nonTensors.find? (fun column => column.2.length ≠ batch.rows.length) with
  | some column => .error (.columnLength column.1 column.2.length batch.rows.length)
  | none => .ok ⟨batch, nonTensors, by
      intro column member
      simpa using List.find?_eq_none.mp found column member⟩

/-- Row `i` with its Python objects. -/
def table (data : Data ρ ν) : List (Row ρ × List (String × Option ν)) :=
  data.batch.rows.zipIdx.map (fun row =>
    (row.1, data.nonTensorBatch.map (fun column => (column.1, column.2[row.2]?))))

end Data

/-- `value[batch_idx]` for every column. -/
def selectColumns {ν : Type} (columns : List (String × List ν)) (batchIdx : List Nat) :
    Except Failure (List (String × List ν)) :=
  columns.mapM (fun column => match gather column.2 batchIdx with
    | some values => .ok (column.1, values)
    | none => .error .indexError)

/-- `force_group_size` is not a parameter of `prepare_dynamic_batch`. -/
def prepareDynamicBatch {ρ ν : Type} (data : Data ρ ν) (args : Arguments) :
    Except Failure (List (Data ρ ν) × List (List Nat)) := do
  let (batch, batchIdxList) ← rearrangeMicroBatches data.batch { args with forceGroupSize := 1 }
  let microBatches ← (batch.zip batchIdxList).mapM (fun part => do
    let nonTensors ← selectColumns data.nonTensorBatch part.2
    Data.fromDict part.1 nonTensors)
  return (microBatches, batchIdxList)

end LLMFusion.SeqlenBalancing
