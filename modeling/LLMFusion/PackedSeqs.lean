import Mathlib
import LLMFusion.Lib.Slices
import LLMFusion.Lib.Fallible

/-! Packing sequences for tensor and context parallelism. Every sequence is padded,
cut into two chunks a rank, and written behind the sequences before it. A tensor
of tokens is a list; the trailing dimensions of a token are part of its type.
`torch` also accepts a source of one item for a longer slice; here every source
of another length is an error. -/

namespace LLMFusion.Mcore
open Slices

variable {α β : Type}

inductive Failure where
  | sliceLength (target source : Nat)
  | maskLength (mask source : Nat)
  | indexError
  | valueError
  | emptyReduction
  | shape (output mask : Nat × Nat)
  | oddLength (localSeqlen : Nat)
  deriving DecidableEq, Repr

/-- The world sizes of the tensor-parallel and the context-parallel group. -/
structure Parallel where
  tpSize : Nat
  cpSize : Nat
  tpPositive : 0 < tpSize
  cpPositive : 0 < cpSize

def Parallel.alignSize (parallel : Parallel) : Nat :=
  if 1 < parallel.cpSize then parallel.tpSize * parallel.cpSize * 2 else parallel.tpSize

def computeFp8ThdAlignSize (alignSize : Nat) : Nat × Nat := (Nat.lcm 16 alignSize, alignSize * 128)

/-- `align_size` as the packing functions use it. -/
def perSeqAlign (parallel : Parallel) (useFp8Padding : Bool) : Nat :=
  if useFp8Padding then (computeFp8ThdAlignSize parallel.alignSize).1 else parallel.alignSize

def padSize (alignSize length : Nat) : Nat := (alignSize - length % alignSize) % alignSize

def setSlice (items : List α) (start stop : Nat) (source : List α) : Except Failure (List α) :=
  match assign items start stop source with
  | some result => .ok result
  | none => .error (.sliceLength (stop - start) source.length)

/-- `if length > 0: items[start : start + length] = source` -/
def setNonempty (items : List α) (start length : Nat) (source : List α) : Except Failure (List α) :=
  if 0 < length then setSlice items start (start + length) source else .ok items

/-- `torch.cumsum` behind a leading `start`. -/
def cumsum (start : Nat) : List Nat → List Nat
  | [] => [start]
  | length :: lengths => start :: cumsum (start + length) lengths

/-- `lengths[-1] += extra` -/
def addLast (extra : Nat) : List Nat → List Nat
  | [] => []
  | [last] => [last + extra]
  | length :: next :: lengths => length :: addLast extra (next :: lengths)

/-- Where the sequences of a packed batch lie before they are split over the ranks. -/
structure PackedSeqParams where
  seqlensInBatchPadded : List Nat
  cuSeqlensPadded : List Nat
  maxSeqlenInBatch : Nat

/-- What both packing functions compute from the lengths. Without sequences there is
no last length to pad and no longest one. -/
def packedSeqParams (parallel : Parallel) (useFp8Padding : Bool) (seqlensInBatch : List Nat) :
    Except Failure PackedSeqParams := do
  let (_, totalAlign) := computeFp8ThdAlignSize parallel.alignSize
  let padded := seqlensInBatch.map (fun length => length + padSize (perSeqAlign parallel useFp8Padding) length)
  let cuPadded := cumsum 0 padded
  let padSizeLast := if useFp8Padding then padSize totalAlign (cuPadded.getLastD 0) else 0
  if useFp8Padding && padded.isEmpty then throw .indexError
  match (addLast padSizeLast padded).max? with
  | some maxSeqlen => return ⟨addLast padSizeLast padded, addLast padSizeLast cuPadded, maxSeqlen⟩
  | none => throw .valueError

/-- One iteration of a packing loop: the tokens of a sequence, its padded length and
the sum of the padded lengths before it. -/
structure Entry (α : Type) where
  tokens : List α
  seqlenPadded : Nat
  cuSeqlenPadded : Nat

def PackedSeqParams.entries (params : PackedSeqParams) (sequences : List (List α)) : List (Entry α) :=
  (sequences.zip (params.seqlensInBatchPadded.zip params.cuSeqlensPadded)).map
    (fun entry => ⟨entry.1, entry.2.1, entry.2.2⟩)

/-- The loop body of `preprocess_packed_seqs`. Both chunks end with the tokens. -/
def packSequence (parallel : Parallel) (cpRank : Nat) (inputIdsRmpad : List α) (entry : Entry α) :
    Except Failure (List α) :=
  if parallel.cpSize ≤ 1 then
    setSlice inputIdsRmpad entry.cuSeqlenPadded (entry.cuSeqlenPadded + entry.tokens.length) entry.tokens
  else do
    let seqlen := entry.seqlenPadded / parallel.cpSize
    let halfSeqlen := seqlen / 2
    let startIdx := entry.cuSeqlenPadded / parallel.cpSize
    let d := entry.tokens
    let firstStart := halfSeqlen * cpRank
    let firstEnd := min (halfSeqlen * (cpRank + 1)) d.length
    let firstLen := firstEnd - firstStart
    let inputIdsRmpad ← setNonempty inputIdsRmpad startIdx firstLen (slice d firstStart firstEnd)
    let remainStart := entry.seqlenPadded - halfSeqlen * (cpRank + 1)
    let remainEnd := min (entry.seqlenPadded - halfSeqlen * cpRank) d.length
    let remainLen := remainEnd - remainStart
    setNonempty inputIdsRmpad (startIdx + halfSeqlen) remainLen (slice d remainStart remainEnd)

/-- `input_ids[i, attention_mask[i]]` for one row. -/
def attended (row : Nat → α) (mask : List Bool) : List α :=
  mask.zipIdx.filterMap (fun entry => if entry.1 then some (row entry.2) else none)

/-- The batch is a matrix of tokens and a mask of the same shape: a mask for each
row, and the token at row `i` and column `t`. -/
def preprocessPackedSeqs [Zero α] {seqLen : Nat} (parallel : Parallel) (cpRank : Nat) (useFp8Padding : Bool)
    (inputIds : Nat → Nat → α) (attentionMask : List (Vector Bool seqLen)) :
    Except Failure (List α × PackedSeqParams) := do
  let params ← packedSeqParams parallel useFp8Padding (attentionMask.map (fun mask => mask.toList.count true))
  let sequences := attentionMask.zipIdx.map (fun row => attended (inputIds row.2) row.1.toList)
  let inputIdsRmpad ← (params.entries sequences).foldlM (packSequence parallel cpRank)
    (List.replicate (params.seqlensInBatchPadded.sum / parallel.cpSize) 0)
  return (inputIdsRmpad, params)

/-- The outputs of all ranks for one sequence, in the order of its tokens. `empty`
is what `torch.empty` leaves in the places that are not written. -/
def unpackSequence (cpSize : Nat) (outputList : Nat → List β) (empty : Nat → β) (cuStart cuStop sLen : Nat) :
    Except Failure (List β) :=
  if cpSize ≤ 1 then .ok (slice (outputList 0) cuStart (cuStart + sLen))
  else do
    let sLenPaddedChunk := (cuStop - cuStart) / cpSize
    let halfSeqlen := sLenPaddedChunk / 2
    let sLenPadded := sLenPaddedChunk * cpSize
    let packedStartIdx := cuStart / cpSize
    let tmp ← (List.range cpSize).foldlM (fun tmp j => do
      let o := outputList j
      let o0 := slice o packedStartIdx (packedStartIdx + halfSeqlen)
      let o1 := slice o (packedStartIdx + halfSeqlen) (packedStartIdx + sLenPaddedChunk)
      let tmp ← setSlice tmp (j * halfSeqlen) ((j + 1) * halfSeqlen) o0
      setSlice tmp (sLenPadded - (j + 1) * halfSeqlen) (sLenPadded - j * halfSeqlen) o1)
      ((List.range sLenPadded).map empty)
    return slice tmp 0 sLen

/-- Sequence `i` of a packed output, `sLen` being its length. -/
def unpackIndex (parallel : Parallel) (outputList : Nat → List β) (empty : Nat → β) (params : PackedSeqParams)
    (sLen i : Nat) : Except Failure (List β) :=
  match params.cuSeqlensPadded[i]?, params.cuSeqlensPadded[i + 1]? with
  | some cuStart, some cuStop => unpackSequence parallel.cpSize outputList empty cuStart cuStop sLen
  | _, _ => .error .indexError

/-- The loop over the sequences of a packed output. -/
def unpackSequences (parallel : Parallel) (outputList : Nat → List β) (empty : Nat → β)
    (params : PackedSeqParams) (seqLens : List Nat) : Except Failure (List (List β)) :=
  seqLens.zipIdx.mapM (fun entry => unpackIndex parallel outputList empty params entry.1 entry.2)

/-- `zeros[mask] = values` for one row. -/
def fillMask [Zero β] : List Bool → List β → Option (List β)
  | [], [] => some []
  | false :: mask, values => (fillMask mask values).map (0 :: ·)
  | true :: mask, value :: values => (fillMask mask values).map (value :: ·)
  | _, _ => none

def setMasked [Zero β] (mask : List Bool) (values : List β) : Except Failure (List β) :=
  match fillMask mask values with
  | some filled => .ok filled
  | none => .error (.maskLength (mask.count true) values.length)

/-- `outputList` is the result of the all-gather: the output of every rank. -/
def postprocessPackedSeqs [Zero β] {seqLen : Nat} (parallel : Parallel) (outputList : Nat → List β)
    (empty : Nat → β) (params : PackedSeqParams) (attentionMask : List (Vector Bool seqLen)) :
    Except Failure (List (List β)) := do
  let seqLens := attentionMask.map (fun mask => mask.toList.count true)
  let sequences ← unpackSequences parallel outputList empty params seqLens
  (attentionMask.zip sequences).mapM (fun row => setMasked row.1.toList row.2)

end LLMFusion.Mcore
