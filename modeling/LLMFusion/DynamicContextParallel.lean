import LLMFusion.Lib.Dictionary
import LLMFusion.Lib.Slices

/-! Dynamic context parallelism: the sequences of a batch are split among groups of data parallel ranks, whose size is made
for the longest sequence, and the outputs of the groups are merged again. -/

namespace LLMFusion.DynamicContextParallel

variable {Row β : Type}

/-- A part of a batch with its non-tensor entry `local_cp_size`. -/
structure SubBatch (Row : Type) where
  rows : List Row
  localCpSize : Option Nat

inductive Failure where
  /-- `max` of no lengths -/
  | noLengths
  /-- `math.ceil` of a quotient by zero -/
  | divisionByZero
  /-- `local_cp_size` exceeds `dp_size`. -/
  | localCpSize
  /-- A nested tensor needs at least one tensor. -/
  | noTensors

/-- `number.bit_length()` -/
def bitLength (number : Int) : Nat := if number = 0 then 0 else number.natAbs.log2 + 1

/-- The ranks for the longest sequence, rounded up to a power of two. -/
def localCpSize (maxSeqLen : Nat) (maxSeqlenPerDpCpRank : Int) : Option Nat :=
  if maxSeqlenPerDpCpRank = 0 then none
  else
    let ranks := -(Int.fdiv (-maxSeqLen) maxSeqlenPerDpCpRank)
    some (1 <<< bitLength (ranks - 1))

/-- `tu.index_select_tensor_dict` of consecutive sequences -/
def indexSelectTensorDict (batch : List Row) (startIdx endIdx : Nat) : Except Failure (List Row) :=
  let selected := Slices.slice batch startIdx endIdx
  if selected.isEmpty then .error .noTensors else .ok selected

def dynamicCpSplitBatch (seqLen : Row → Nat) (maxSeqlenPerDpCpRank : Int) (dpSize dpRank : Nat)
    (batch : List Row) :
    Except Failure (SubBatch Row) :=
  match (batch.map seqLen).max? with
  | none => .error .noLengths
  | some maxSeqLen =>
    -- the entry is not assigned here
    if batch.length < dpSize then .ok ⟨batch, none⟩
    else
      match localCpSize maxSeqLen maxSeqlenPerDpCpRank with
      | none => .error .divisionByZero
      | some localCpSize =>
        if dpSize < localCpSize then .error .localCpSize
        else if localCpSize < dpSize then
          let localDpRank := dpRank / localCpSize
          let localDpSize := dpSize / localCpSize
          let numSeqPerLocalCp := (batch.length + localDpSize - 1) / localDpSize
          let startIdx := localDpRank * numSeqPerLocalCp
          let endIdx := min (startIdx + numSeqPerLocalCp) batch.length
          (indexSelectTensorDict batch startIdx endIdx).map (⟨·, some localCpSize⟩)
        else .ok ⟨batch, some localCpSize⟩

/-- `items[start::step]` -/
def strided {α : Type} (start step : Nat) (items : List α) : List α :=
  (List.range ((items.length - start + step - 1) / step)).filterMap (fun place => items[start + place * step]?)

/-- The outputs of all ranks are gathered; `outputs` are those of each rank. -/
def dynamicCpMergeOutput (outputs : Nat → List (String × List β)) (dpSize dpRank localCpSize : Nat) :
    List (String × List β) :=
  if localCpSize = dpSize then outputs dpRank
  else
    (outputs dpRank).map (fun entry =>
      let objectList := (List.range dpSize).map (fun rank => (Dictionary.get (outputs rank) entry.1).getD [])
      let toMerge := strided (dpRank % localCpSize) localCpSize objectList
      (entry.1, toMerge.flatten))

/-- The merge in `postprocess_micro_batch_func`, by the entry of the sub-batch of the rank. -/
def mergeModelOutput (outputs : Nat → List (String × List β)) (dpSize dpRank : Nat) (localCpSize : Option Nat) :
    List (String × List β) :=
  match localCpSize with
  | none => outputs dpRank
  | some localCpSize => dynamicCpMergeOutput outputs dpSize dpRank localCpSize

end LLMFusion.DynamicContextParallel
