import LLMFusion.Lib.Fallible
import LLMFusion.Lib.Slices

/-! Weights in chunks of at most a bucket, and chunks put together to weights. -/

namespace LLMFusion.CheckpointEngine

structure DType where
  name : String
  itemsize : Nat
  positive : 0 < itemsize
  deriving DecidableEq

/-- A contiguous tensor by its bytes. -/
structure Tensor where
  shape : List Nat
  dtype : DType
  bytes : List UInt8
  sized : bytes.length = shape.prod * dtype.itemsize
  deriving DecidableEq

/-- A named tensor and where it starts in its storage, in items. -/
structure Weight where
  name : String
  tensor : Tensor
  storageOffset : Nat
  deriving DecidableEq

def Tensor.nbytes (tensor : Tensor) : Nat := tensor.shape.prod * tensor.dtype.itemsize

structure TensorMeta where
  name : String
  shape : List Nat
  dtype : DType
  chunkOffset : Nat
  chunkSize : Nat
  offset : Option Nat
  deriving DecidableEq

def TensorMeta.nbytes (tensorMeta : TensorMeta) : Nat := tensorMeta.shape.prod * tensorMeta.dtype.itemsize

/-- The metadata of a chunk of a weight, without a place in a bucket. -/
def Weight.chunkMeta (weight : Weight) (chunkOffset chunkSize : Nat) : TensorMeta where
  name := weight.name
  shape := weight.tensor.shape
  dtype := weight.tensor.dtype
  chunkOffset := chunkOffset
  chunkSize := chunkSize
  offset := none

/-- Bytes of a `uint8` tensor and where they start in its storage. -/
structure Chunk where
  start : Nat
  bytes : List UInt8
  deriving DecidableEq

inductive Failure where
  | assertionError
  | runtimeError
  deriving DecidableEq, Repr

/-! ### Splitting -/

/-- `weight.view(-1).view(torch.uint8)` -/
def Weight.buffer (weight : Weight) : Chunk :=
  ⟨weight.storageOffset * weight.tensor.dtype.itemsize, weight.tensor.bytes⟩

/-- `buffer[start:stop]` -/
def Chunk.slice (buffer : Chunk) (start stop : Nat) : Chunk := ⟨buffer.start + start, Slices.slice buffer.bytes start stop⟩

/-- The loop of `split_weight_chunks` over one weight. A round takes at least a byte, so
there are no more rounds than bytes. -/
def splitLoop (bucketSize : Nat) (weight : Weight) : Nat → Nat → List (TensorMeta × Chunk)
  | 0, _ => []
  | rounds + 1, chunkOffset =>
    if chunkOffset < weight.tensor.nbytes then
      let chunkSize := min bucketSize (weight.tensor.nbytes - chunkOffset)
      (weight.chunkMeta chunkOffset chunkSize, weight.buffer.slice chunkOffset (chunkOffset + chunkSize)) ::
        splitLoop bucketSize weight rounds (chunkOffset + chunkSize)
    else []

def splitWeight (bucketSize : Nat) (weight : Weight) : List (TensorMeta × Chunk) :=
  splitLoop bucketSize weight weight.tensor.nbytes 0

def splitWeightChunks (weights : List Weight) (bucketSize : Nat) : List (TensorMeta × Chunk) :=
  weights.flatMap (splitWeight bucketSize)

/-! ### Merging -/

/-- `chunk.view(dtype).view(shape)`: the storage offset must be a multiple of the item size. -/
def Chunk.view (chunk : Chunk) (shape : List Nat) (dtype : DType) : Except Failure Tensor :=
  if dtype.itemsize ∣ chunk.start then
    if sized : chunk.bytes.length = shape.prod * dtype.itemsize then .ok ⟨shape, dtype, chunk.bytes, sized⟩
    else .error .runtimeError
  else .error .runtimeError

/-- `torch.empty(shape, dtype)`, with whatever the memory holds. -/
def Tensor.empty (memory : Nat → UInt8) (shape : List Nat) (dtype : DType) : Tensor where
  shape := shape
  dtype := dtype
  bytes := (List.range (shape.prod * dtype.itemsize)).map memory
  sized := by simp

/-- `merge_buffer[start:stop] = chunk` -/
def Tensor.write (tensor : Tensor) (start stop : Nat) (chunk : Chunk) : Except Failure Tensor :=
  match Slices.assign tensor.bytes start stop chunk.bytes with
  | none => .error .runtimeError
  | some bytes =>
    if sized : bytes.length = tensor.shape.prod * tensor.dtype.itemsize then
      .ok ⟨tensor.shape, tensor.dtype, bytes, sized⟩
    else .error .runtimeError

/-- `merge_name`, `merge_weight` with its `merge_buffer`, and `merge_offset`. -/
structure Merge where
  name : String
  weight : Tensor
  offset : Nat
  deriving DecidableEq

/-- A chunk in the loop of `merge_weight_chunks`, with what it yields. -/
def mergeChunk (memory : Nat → UInt8) (bucketSize : Nat) (merge : Option Merge) (tensorMeta : TensorMeta) (chunk : Chunk) :
    Except Failure (Option Merge × List (String × Tensor)) :=
  if tensorMeta.nbytes ≤ bucketSize then
    if merge.isSome then .error .assertionError
    else chunk.view tensorMeta.shape tensorMeta.dtype >>= fun weight => .ok (none, [(tensorMeta.name, weight)])
  else if merge.isNone ∧ tensorMeta.chunkOffset ≠ 0 then .error .assertionError
  else
    let current := merge.getD ⟨tensorMeta.name, .empty memory tensorMeta.shape tensorMeta.dtype, 0⟩
    if tensorMeta.name ≠ current.name ∨ current.offset ≠ tensorMeta.chunkOffset then .error .assertionError
    else
      current.weight.write tensorMeta.chunkOffset (tensorMeta.chunkOffset + tensorMeta.chunkSize) chunk >>= fun weight =>
        if tensorMeta.chunkOffset + tensorMeta.chunkSize = tensorMeta.nbytes then .ok (none, [(current.name, weight)])
        else .ok (some ⟨current.name, weight, current.offset + tensorMeta.chunkSize⟩, [])

def mergeLoop (memory : Nat → UInt8) (bucketSize : Nat) :
    Option Merge → List (TensorMeta × Chunk) → Except Failure (List (String × Tensor))
  | _, [] => .ok []
  | merge, (tensorMeta, chunk) :: chunks =>
    mergeChunk memory bucketSize merge tensorMeta chunk >>= fun merged =>
      mergeLoop memory bucketSize merged.1 chunks >>= fun rest => .ok (merged.2 ++ rest)

def mergeWeightChunks (memory : Nat → UInt8) (chunks : List (TensorMeta × Chunk)) (bucketSize : Nat) :
    Except Failure (List (String × Tensor)) :=
  mergeLoop memory bucketSize none chunks

end LLMFusion.CheckpointEngine
