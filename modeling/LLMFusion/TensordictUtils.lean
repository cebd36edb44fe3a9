import LLMFusion.Lib.Blocks
import LLMFusion.Lib.Gather
import LLMFusion.Lib.Jagged

/-! Tensor dictionaries whose columns may be jagged: put together, cut into chunks and selected from. -/

namespace LLMFusion.TensordictUtils
open NdTensor

inductive Failure where
  | assertion
  | runtimeError
  | keyError
  | indexError
  | zeroDivision
  deriving DecidableEq, Repr

def orFailure {γ : Type} (failure : Failure) : Option γ → Except Failure γ
  | some value => .ok value
  | none => .error failure

variable {α β : Type}

/-! ### Jagged tensors -/

/-- `_ragged_idx` -/
def raggedIdx (tensor : Jagged α) : Nat := tensor.dim + 1

/-- What PyTorch does to jagged tensors: whether `unbind(0)` returns the samples or raises a RuntimeError, and how wide
`to_padded_tensor` makes them. -/
structure Torch (α : Type) where
  unbinds : Jagged α → Bool
  paddedWidth : Jagged α → Nat
  covers : ∀ tensor, ∀ length ∈ tensor.lengths, length ≤ paddedWidth tensor

def Torch.unbind (torch : Torch α) (tensor : Jagged α) : Except Failure (List (NdTensor α)) :=
  if torch.unbinds tensor then .ok tensor.samples else .error .runtimeError

/-- A sample as a row of `to_padded_tensor(0)`. -/
def Torch.paddedRow [Zero α] (torch : Torch α) (tensor : Jagged α) (index : Nat) : NdTensor α :=
  (tensor.sample index).padTo tensor.dim (torch.paddedWidth tensor) 0 (tensor.inside_sample index)

def Torch.toPaddedTensor [Zero α] (torch : Torch α) (tensor : Jagged α) : List (NdTensor α) :=
  (List.range tensor.lengths.length).map (torch.paddedRow tensor)

/-- `torch.nested.as_nested_tensor` of tensors of rank one -/
def asNestedTensor (tensors : List (NdTensor α)) : Except Failure (Jagged α) :=
  orFailure .runtimeError (Jagged.ofSamples tensors 0)

def nestedTensorFromTensorList (tensors : List (NdTensor α)) (raggedIdx : Option Nat) : Except Failure (Jagged α) :=
  match tensors with
  | [] => .error .assertion
  | first :: _ =>
    let sampleDim := first.shape.length
    let raggedIdx := raggedIdx.getD sampleDim
    if 1 ≤ raggedIdx ∧ raggedIdx ≤ sampleDim then
      if sampleDim = 1 then asNestedTensor tensors
      else orFailure .runtimeError (Jagged.ofSamples tensors (raggedIdx - 1))
    else .error .assertion

def concatNestedTensors (torch : Torch α) (tensors : List (Jagged α)) : Except Failure (Jagged α) := do
  let unbindTensors ← tensors.mapM torch.unbind
  match tensors with
  | [] => .error .indexError
  | first :: _ => nestedTensorFromTensorList unbindTensors.flatten (some (raggedIdx first))

/-! ### Dictionaries -/

/-- A column: a plain one with a value for each row, or a jagged tensor. -/
inductive Column (α β : Type) where
  | plain (rows : List β)
  | nested (tensor : Jagged α)

def Column.count : Column α β → Nat
  | .plain rows => rows.length
  | .nested tensor => tensor.lengths.length

structure TensorDict (α β : Type) where
  batchSize : Nat
  columns : List (String × Column α β)
  keyed : (columns.map Prod.fst).Nodup
  sized : ∀ column ∈ columns, column.2.count = batchSize

namespace TensorDict

/-- A dictionary whose columns are checked. -/
def ofColumns (batchSize : Nat) (columns : List (String × Column α β)) : Except Failure (TensorDict α β) :=
  if fits : (columns.map Prod.fst).Nodup ∧ ∀ column ∈ columns, column.2.count = batchSize then
    .ok ⟨batchSize, columns, fits.1, fits.2⟩
  else .error .runtimeError

def plainEntry (column : String × Column α β) : Option (String × List β) :=
  match column.2 with
  | .plain rows => some (column.1, rows)
  | .nested _ => none

def nestedEntry (column : String × Column α β) : Option (String × Jagged α) :=
  match column.2 with
  | .plain _ => none
  | .nested tensor => some (column.1, tensor)

def plainColumns (td : TensorDict α β) : List (String × List β) := td.columns.filterMap plainEntry

def nestedColumns (td : TensorDict α β) : List (String × Jagged α) := td.columns.filterMap nestedEntry

end TensorDict

def sameKeys (keys others : List String) : Bool := keys.all (others.contains ·) && others.all (keys.contains ·)

def concatTensordict (torch : Torch α) (data : List (TensorDict α β)) : Except Failure (TensorDict α β) :=
  match data with
  | [] => .error .assertion
  | first :: _ =>
    let plainKeys := first.plainColumns.map Prod.fst
    let nestedKeys := first.nestedColumns.map Prod.fst
    if nestedKeys ≠ [] ∧ ¬ data.all (fun td => sameKeys (td.nestedColumns.map Prod.fst) nestedKeys) then .error .assertion
    else if ¬ data.all (fun td => sameKeys (td.columns.map Prod.fst) (first.columns.map Prod.fst)) then .error .keyError
    else do
      let plain := plainKeys.map (fun key =>
        (key, Column.plain (data.flatMap (fun td => (td.plainColumns.lookup key).getD []))))
      let nested ← nestedKeys.mapM (fun key => do
        let tensor ← concatNestedTensors torch (data.filterMap (fun td => td.nestedColumns.lookup key))
        return (key, Column.nested tensor))
      TensorDict.ofColumns (data.map TensorDict.batchSize).sum (plain ++ nested)

/-! ### Chunks -/

/-- `tensor.chunk(chunks)[index]` -/
def chunkAt {γ : Type} (chunks : Nat) (rows : List γ) (index : Nat) : Except Failure (List γ) :=
  orFailure .indexError ((Blocks.chunk chunks rows).bind (fun parts => parts[index]?))

/-- `row[:seq_len]` -/
def firstRows (row : NdTensor α) (seqLen : Nat) : Except Failure (NdTensor α) :=
  orFailure .indexError (row.narrow 0 0 seqLen)

/-- The part of a jagged column in a chunk; where it cannot be unbound, it is cut out of the padded rows. -/
def chunkNested [Zero α] (torch : Torch α) (chunks chunkSize index : Nat) (tensor : Jagged α) : Except Failure (Jagged α) :=
  match torch.unbind tensor with
  | .ok tensors =>
    nestedTensorFromTensorList (Slices.slice tensors (index * chunkSize) ((index + 1) * chunkSize)) (some (raggedIdx tensor))
  | .error _ => do
    let padded ← chunkAt chunks (torch.toPaddedTensor tensor) index
    let chunkLengths := Slices.slice tensor.lengths (index * chunkSize) ((index + 1) * chunkSize)
    let chunkTensors ← (padded.zip chunkLengths).mapM (fun row => firstRows row.1 row.2)
    nestedTensorFromTensorList chunkTensors (some (raggedIdx tensor))

def chunkColumns [Zero α] (torch : Torch α) (td : TensorDict α β) (chunks chunkSize index : Nat) :
    Except Failure (TensorDict α β) := do
  let plain ← td.plainColumns.mapM (fun column => do
    let rows ← chunkAt chunks column.2 index
    return (column.1, Column.plain rows))
  let nested ← td.nestedColumns.mapM (fun column => do
    let tensor ← chunkNested torch chunks chunkSize index column.2
    return (column.1, Column.nested tensor))
  TensorDict.ofColumns chunkSize (plain ++ nested)

/-- The source goes over the columns and fills all chunks with each of them. -/
def chunkTensordict [Zero α] (torch : Torch α) (td : TensorDict α β) (chunks : Nat) : Except Failure (List (TensorDict α β)) :=
  if chunks = 0 then .error .zeroDivision
  else if td.batchSize % chunks ≠ 0 then .error .assertion
  else (List.range chunks).mapM (chunkColumns torch td chunks (td.batchSize / chunks))

/-! ### Selections -/

def selectColumn (torch : Torch α) (indices : List Nat) : Column α β → Except Failure (Column α β)
  | .plain rows => do
    let selected ← orFailure .indexError (Gather.gather rows indices)
    return .plain selected
  | .nested tensor => do
    let tensorLst ← torch.unbind tensor
    let selectedTensors ← orFailure .indexError (Gather.gather tensorLst indices)
    let selected ← nestedTensorFromTensorList selectedTensors (some (raggedIdx tensor))
    return .nested selected

def indexSelectTensorDict (torch : Torch α) (batch : TensorDict α β) (indices : List Nat) : Except Failure (TensorDict α β) := do
  let dataDict ← batch.columns.mapM (fun column => do
    let selected ← selectColumn torch indices column.2
    return (column.1, selected))
  TensorDict.ofColumns indices.length dataDict

end LLMFusion.TensordictUtils
