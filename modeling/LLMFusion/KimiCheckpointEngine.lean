import LLMFusion.Lib.Indexing

/-! The buckets in which the ranks of a trainer register its weights. The weights are dealt to the
ranks in turn, and a rank fills a bucket until the next of its weights does not fit. -/

namespace LLMFusion.KimiCheckpointEngine

inductive Failure where
  | valueError (message : String)
  | zeroDivision
  deriving DecidableEq, Repr

/-- What is used of tensors of type `τ`, whose elements have types in `δ`. -/
structure Torch (τ δ : Type) where
  toDtype : τ → δ → τ
  elementSize : τ → Nat
  numel : τ → Nat

/-- A dictionary of tensors, in the order in which they were put in. -/
abbrev Bucket (τ : Type) := List (String × τ)

variable {τ δ : Type}

def Torch.tensorSize (torch : Torch τ δ) (tensor : τ) : Nat := torch.elementSize tensor * torch.numel tensor

/-- The buckets that the loop yields from the tensor of `tensorIdx` on. -/
def bucketLoop (torch : Torch τ δ) (bucketBytes : Int) (worldSize rankId : Nat) (rolloutDtype : δ) :
    Nat → Bucket τ → Nat → List (String × τ) → List (Bucket τ)
  | _, currentBucket, _, [] => if currentBucket.isEmpty then [] else [currentBucket]
  | tensorIdx, currentBucket, currentSize, entry :: iterable =>
    let tensor := torch.toDtype entry.2 rolloutDtype
    if tensorIdx % worldSize = rankId then
      let tensorSize := torch.tensorSize tensor
      if bucketBytes < currentSize + tensorSize ∧ currentBucket.isEmpty = false then
        currentBucket :: bucketLoop torch bucketBytes worldSize rankId rolloutDtype (tensorIdx + 1)
          (Indexing.insert entry.1 tensor []) (0 + tensorSize) iterable
      else bucketLoop torch bucketBytes worldSize rankId rolloutDtype (tensorIdx + 1)
        (Indexing.insert entry.1 tensor currentBucket) (currentSize + tensorSize) iterable
    else bucketLoop torch bucketBytes worldSize rankId rolloutDtype (tensorIdx + 1) currentBucket currentSize iterable

/-- `ckpt_get_named_tensor_buckets`. The index is divided by the number of ranks with the first
tensor. -/
def ckptGetNamedTensorBuckets (torch : Torch τ δ) (iterable : List (String × τ)) (bucketBytes : Int)
    (worldSize rankId : Nat) (rolloutDtype : δ) : Except Failure (List (Bucket τ)) :=
  if bucketBytes ≤ 0 then .error (.valueError s!"bucket_bytes must be greater than 0, got {bucketBytes}")
  else if worldSize = 0 ∧ iterable ≠ [] then .error .zeroDivision
  else .ok (bucketLoop torch bucketBytes worldSize rankId rolloutDtype 0 [] 0 iterable)

end LLMFusion.KimiCheckpointEngine
