import LLMFusion.Lib.NdEntries

/-! Sequence parallelism. A row of tokens is padded and cut into one slice for each rank of a
group; around attention an all-to-all gives every rank the whole sequence of some of the heads and
another one takes it back; in the end the slices are gathered and the padding is removed. A
collective is a function of the tensors of all ranks, in the order of the ranks. -/

namespace LLMFusion.Ulysses
open NdTensor

/-- The size of a process' sequence parallel group and its rank in it, when there is one, and the
number of processes of the world. -/
structure Process where
  group : Option (Nat × Nat)
  worldSize : Nat
  deriving DecidableEq, Repr

/-- `dist.get_world_size(group)`; no group stands for the world. -/
def Process.groupSize (process : Process) : Nat := process.group.elim process.worldSize Prod.fst

def getUlyssesSequenceParallelRank (process : Process) : Nat := process.group.elim 0 Prod.snd

/-- Where `slice(0, stop)` ends. -/
def sliceStop (size : Nat) (stop : Int) : Nat := if stop < 0 then (size + stop).toNat else stop.toNat

section Tensors
variable {α : Type}

def padTensor [Zero α] (x : NdTensor α) (dim paddingSize : Nat) : Option (NdTensor α) :=
  cat [x, full (x.shape.set dim paddingSize) 0] dim

/-- A padding of no entries removes all of them. -/
def unpadTensor (x : NdTensor α) (dim : Nat) (paddingSize : Int) : Option (NdTensor α) :=
  x.narrow dim 0 (sliceStop (x.size dim) (-paddingSize))

def sliceInputTensor [Zero α] (process : Process) (x : NdTensor α) (dim : Nat) (padding : Bool) : Option (NdTensor α) := do
  let spWorldSize := process.groupSize
  let spRank := getUlyssesSequenceParallelRank process
  let x ←
    if padding = true ∧ x.size dim % spWorldSize ≠ 0 then padTensor x dim (spWorldSize - x.size dim % spWorldSize) else some x
  let parts := x.size dim / spWorldSize
  x.narrow dim (spRank * parts) ((spRank + 1) * parts)

/-! ### All-to-all -/

/-- `torch.tensor_split(x, sections, dim)`: the first ones have an entry more. -/
def tensorSplit (x : NdTensor α) (sections dim : Nat) : Option (List (NdTensor α)) :=
  let each := x.size dim / sections
  let extras := x.size dim % sections
  (List.range sections).mapM
    (fun i => x.narrow dim (i * each + min i extras) ((i + 1) * each + min (i + 1) extras))

/-- What a rank receives has to fit its buffers, which are made like the first of its own chunks. -/
def receive (chunks : List (List (NdTensor α))) (gatherDim rank : Nat) : Option (NdTensor α) := do
  let own ← chunks[rank]?
  let buffer ← own.head?
  let received ← chunks.mapM (fun sent => sent[rank]?)
  if ∀ chunk ∈ received, chunk.shape = buffer.shape then cat received gatherDim else none

def allToAllTensor (locals : List (NdTensor α)) (scatterDim gatherDim : Nat) : Option (List (NdTensor α)) := do
  let chunks ← locals.mapM (fun x => tensorSplit x locals.length scatterDim)
  (List.range locals.length).mapM (receive chunks gatherDim)

def gatherSeqScatterHeads (grouped : Bool) (locals : List (NdTensor α)) (seqDim headDim unpaddedDimSize : Nat) :
    Option (List (NdTensor α)) :=
  if grouped then do
    let gathered ← allToAllTensor locals headDim seqDim
    if unpaddedDimSize ≠ 0 ∧ unpaddedDimSize % locals.length ≠ 0 then
      gathered.mapM (fun x => unpadTensor x seqDim ((x.size seqDim : Int) - unpaddedDimSize))
    else some gathered
  else some locals

def gatherHeadsScatterSeq [Zero α] (grouped : Bool) (locals : List (NdTensor α)) (headDim seqDim : Nat) :
    Option (List (NdTensor α)) :=
  if grouped then do
    let padded ← locals.mapM (fun x =>
      if x.size seqDim % locals.length ≠ 0 then padTensor x seqDim (locals.length - x.size seqDim % locals.length) else some x)
    allToAllTensor padded seqDim headDim
  else some locals

/-! ### Gathering -/

def allGatherTensor (locals : List (NdTensor α)) : Option (NdTensor α) :=
  if ∀ x ∈ locals, ∀ y ∈ locals, x.shape = y.shape then cat locals 0 else none

/-- `x.split(size, dim)`; parts of no entries are for a dimension without entries. -/
def split (x : NdTensor α) (size dim : Nat) : Option (List (NdTensor α)) :=
  if size = 0 then if x.size dim = 0 then some [x] else none
  else (List.range (max 1 ((x.size dim + size - 1) / size))).mapM (fun i => x.narrow dim (i * size) ((i + 1) * size))

/-- `Gather.forward` -/
def gather (locals : List (NdTensor α)) (gatherDim : Nat) : Option (NdTensor α) := do
  let own ← locals.head?
  let output ← allGatherTensor locals
  let parts ← split output (own.size 0) 0
  cat parts gatherDim

/-- The result of each rank. -/
def gatherOutputsAndUnpad (grouped : Bool) (locals : List (NdTensor α)) (gatherDim : Nat) (unpadDim : Option Nat)
    (paddingSize : Nat) : Option (List (NdTensor α)) :=
  if grouped then do
    let x ← gather locals gatherDim
    let x ←
      match unpadDim with
      | none => some x
      | some unpadDim => if paddingSize = 0 then some x else unpadTensor x unpadDim paddingSize
    some (locals.map (fun _ => x))
  else some locals

/-! ### Inputs -/

/-- `torch.arange(pad_size)` with the leading dimensions of the position ids. -/
def padPosIds (positionIds : NdTensor Nat) (padSize : Nat) : NdTensor Nat :=
  if positionIds.shape.length = 3 then
    ⟨[positionIds.size 0, 1, padSize], (List.replicate (positionIds.size 0) (List.range padSize)).flatten, by simp⟩
  else ⟨[1, padSize], List.range padSize, by simp⟩

def padPositions (positionIds : NdTensor Nat) (padSize : Nat) : Option (NdTensor Nat) :=
  cat [positionIds, padPosIds positionIds padSize] (positionIds.shape.length - 1)

/-- The padded tokens, their positions and the number of tokens added. -/
def ulyssesPad (inputIdsRmpad : NdTensor α) (positionIdsRmpad : Option (NdTensor Nat)) (spSize : Nat) (padValue : α) :
    Option (NdTensor α × Option (NdTensor Nat) × Nat) :=
  if ∀ positionIds ∈ positionIdsRmpad, positionIds.shape.reverse[1]? = some 1 ∧
      positionIds.shape.getLast? = inputIdsRmpad.shape.getLast? then
    if spSize ≤ 1 then some (inputIdsRmpad, positionIdsRmpad, 0)
    else
      match inputIdsRmpad.shape with
      | [_, totalSeqLen] => do
        let padSize := (spSize - totalSeqLen % spSize) % spSize
        if 0 < padSize then
          let inputIds ← cat [inputIdsRmpad, full (inputIdsRmpad.shape.set 1 padSize) padValue] 1
          let positionIds ← positionIdsRmpad.mapM (padPositions · padSize)
          some (inputIds, positionIds, padSize)
        else some (inputIdsRmpad, positionIdsRmpad, padSize)
      | _ => none
  else none

def ulyssesPadAndSliceInputs [Zero α] (process : Process) (inputIdsRmpad : NdTensor α) (positionIdsRmpad : Option (NdTensor Nat))
    (spSize : Nat) (skipPositionIdsRmpad : Bool) (padValue : α) : Option (NdTensor α × Option (NdTensor Nat) × Nat) := do
  let (inputIds, positionIds, padSize) ← ulyssesPad inputIdsRmpad positionIdsRmpad spSize padValue
  let inputIds ← sliceInputTensor process inputIds 1 false
  let positionIds ←
    if skipPositionIdsRmpad then some positionIds else positionIds.mapM (sliceInputTensor process · 1 false)
  some (inputIds, positionIds, padSize)

end Tensors

end LLMFusion.Ulysses
