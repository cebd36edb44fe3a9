import LLMFusion.CheckpointEngine
import LLMFusion.Lib.Indexing

/-! The transfer of weights through a buffer that both sides share. The sender waits for
the answer to each message before it writes the buffer again. -/

namespace LLMFusion.BucketedWeightTransfer
open CheckpointEngine

/-- An entry of `bucket_meta`. The handle of a large weight leads to the weight itself. -/
structure TensorMetadata where
  name : String
  shape : List Nat
  dtype : DType
  offset : Nat
  handle : Option Tensor
  deriving DecidableEq

/-- A message, and the buffer while it is answered. -/
structure Message where
  bucketMeta : List (String × TensorMetadata)
  isLast : Bool
  buffer : List UInt8
  deriving DecidableEq

/-! ### The sender -/

/-- `buffer`, `bucket_meta` and `offset` of the sender. -/
structure Bucket where
  buffer : List UInt8
  bucketMeta : List (String × TensorMetadata)
  offset : Nat
  deriving DecidableEq

def Bucket.message (bucket : Bucket) (isLast : Bool) : Message := ⟨bucket.bucketMeta, isLast, bucket.buffer⟩

def Bucket.reset (bucket : Bucket) : Bucket := ⟨bucket.buffer, [], 0⟩

def placedAt (offset : Nat) (weight : Weight) : TensorMetadata :=
  ⟨weight.name, weight.tensor.shape, weight.tensor.dtype, offset, none⟩

/-- `_direct_send_large_weight` -/
def directSendLargeWeight (bucket : Bucket) (weight : Weight) : Message :=
  ⟨[(weight.name, ⟨weight.name, weight.tensor.shape, weight.tensor.dtype, 0, some weight.tensor⟩)], false, bucket.buffer⟩

/-- The weight in the bucket, or sent alone. -/
def putWeight (bucketSize : Nat) (useShm : Bool) (bucket : Bucket) (weight : Weight) : List Message × Except Failure Bucket :=
  if bucketSize < bucket.offset + weight.tensor.nbytes then
    if useShm then ([], .error .assertionError) else ([directSendLargeWeight bucket weight], .ok bucket)
  else
    match Slices.assign bucket.buffer bucket.offset (bucket.offset + weight.tensor.nbytes) weight.tensor.bytes with
    | none => ([], .error .runtimeError)
    | some buffer =>
      ([], .ok ⟨buffer, Indexing.insert weight.name (placedAt bucket.offset weight) bucket.bucketMeta,
        bucket.offset + weight.tensor.nbytes⟩)

/-- The body of the loop of `async_send_weights`, with the messages that it sends. -/
def sendWeight (bucketSize : Nat) (useShm : Bool) (bucket : Bucket) (weight : Weight) : List Message × Except Failure Bucket :=
  if bucketSize < bucket.offset + weight.tensor.nbytes ∧ bucket.bucketMeta ≠ [] then
    (bucket.message false :: (putWeight bucketSize useShm bucket.reset weight).1,
      (putWeight bucketSize useShm bucket.reset weight).2)
  else putWeight bucketSize useShm bucket weight

def sendLoop (bucketSize : Nat) (useShm : Bool) (bucket : Bucket) : List Weight → List Message × Except Failure Unit
  | [] => ([bucket.message true], .ok ())
  | weight :: weights =>
    match (sendWeight bucketSize useShm bucket weight).2 with
    | .error failure => ((sendWeight bucketSize useShm bucket weight).1, .error failure)
    | .ok next =>
      ((sendWeight bucketSize useShm bucket weight).1 ++ (sendLoop bucketSize useShm next weights).1,
        (sendLoop bucketSize useShm next weights).2)

/-- The messages of a transfer through a buffer of any content, up to a failure. -/
def asyncSendWeights (memory : Nat → UInt8) (bucketSize : Nat) (useShm : Bool) (weights : List Weight) :
    List Message × Except Failure Unit :=
  sendLoop bucketSize useShm ⟨(List.range bucketSize).map memory, [], 0⟩ weights

/-! ### The receiver -/

/-- `buffer[offset : offset + size].view(dtype=dtype).view(shape)`, or the tensor of the handle. -/
def receiveTensor (buffer : List UInt8) (entry : String × TensorMetadata) : Except Failure (String × Tensor) :=
  match entry.2.handle with
  | some tensor => .ok (entry.1, tensor)
  | none =>
    ((⟨0, buffer⟩ : Chunk).slice entry.2.offset (entry.2.offset + entry.2.dtype.itemsize * entry.2.shape.prod)).view
      entry.2.shape entry.2.dtype >>= fun tensor => .ok (entry.1, tensor)

def receiveMessage (message : Message) : Except Failure (List (String × Tensor)) :=
  message.bucketMeta.mapM (receiveTensor message.buffer)

/-- The buckets that the callback gets, up to the last message. -/
def receiveWeights : List Message → Except Failure (List (List (String × Tensor)))
  | [] => .ok []
  | message :: messages =>
    receiveMessage message >>= fun weights =>
      if message.isLast then .ok [weights] else receiveWeights messages >>= fun rest => .ok (weights :: rest)

end LLMFusion.BucketedWeightTransfer
