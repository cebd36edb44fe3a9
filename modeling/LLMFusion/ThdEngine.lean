import LLMFusion.PackedSeqs
import LLMFusion.Lib.Indexing

/-! Packing nested sequences for the model engine, with position ids and, for label
tokens, a roll by one place. A rank holds two chunks of a sequence, so the token
after the last one of a chunk is saved before the roll and written back after it. -/

namespace LLMFusion.Mcore
open Slices Indexing

variable {α β : Type}

def getIndex (items : List α) (index : Int) : Except Failure α :=
  match getItem items index with
  | some item => .ok item
  | none => .error .indexError

/-- A position id saved for the roll. An item of a tensor is a view, so what it holds
is read when it is assigned, after all slices of the buffer. -/
inductive SavedPosition where
  | zero
  | view (index : Int)

/-- A view was within the buffer when it was saved. -/
def SavedPosition.value (positionIds : List Nat) : SavedPosition → Nat
  | .zero => 0
  | .view index => (getItem positionIds index).getD 0

/-- The buffers of a rank, and what is to be written after the roll. -/
structure Rmpad (α : Type) where
  inputIds : List α
  positionIds : List Nat
  savedRoll : List (Int × α)
  savedPositionRoll : List (Int × SavedPosition)

def Rmpad.blank [Zero α] (shape : Nat) : Rmpad α :=
  ⟨List.replicate shape 0, List.replicate shape 0, [], []⟩

/-- `d`, with zeros up to `align_size`. -/
def alignTokens [Zero α] (alignSize : Nat) (tokens : List α) : List α :=
  if tokens.length < alignSize then tokens ++ List.replicate (alignSize - tokens.length) 0 else tokens

/-- The slices of one iteration. The first chunk is not clipped to the tokens. The
positions of the second chunk are: `valid_pos_len` is at most `remain_len`. -/
def writeThd [Zero α] (parallel : Parallel) (alignSize cpRank : Nat) (rmpad : Rmpad α) (entry : Entry α) :
    Except Failure (Rmpad α) :=
  if parallel.cpSize ≤ 1 then do
    let seqlen := entry.tokens.length
    let startIdx := entry.cuSeqlenPadded
    let inputIds ← setSlice rmpad.inputIds startIdx (startIdx + seqlen) entry.tokens
    let positionIds ← setSlice rmpad.positionIds startIdx (startIdx + seqlen) (List.range seqlen)
    return { rmpad with inputIds := inputIds, positionIds := positionIds }
  else do
    let seqlen := entry.seqlenPadded / parallel.cpSize
    let halfSeqlen := seqlen / 2
    let startIdx := entry.cuSeqlenPadded / parallel.cpSize
    let d := alignTokens alignSize entry.tokens
    let inputIds ← setSlice rmpad.inputIds startIdx (startIdx + halfSeqlen)
      (slice d (halfSeqlen * cpRank) (halfSeqlen * (cpRank + 1)))
    let positionIds ← setSlice rmpad.positionIds startIdx (startIdx + halfSeqlen)
      (List.range' (halfSeqlen * cpRank) halfSeqlen)
    let remainStart := entry.seqlenPadded - halfSeqlen * (cpRank + 1)
    let remainEnd := min (entry.seqlenPadded - halfSeqlen * cpRank) d.length
    let remainLen := remainEnd - remainStart
    let inputIds ← setNonempty inputIds (startIdx + halfSeqlen) remainLen (slice d remainStart remainEnd)
    let posEnd := min remainEnd entry.tokens.length
    let validPosLen := posEnd - remainStart
    let positionIds ← setNonempty positionIds (startIdx + halfSeqlen) validPosLen
      (List.range' remainStart validPosLen)
    return { rmpad with inputIds := inputIds, positionIds := positionIds }

/-- What an iteration saves for the roll: at the last slot of each chunk the token
that follows, and the position id of the slot itself. -/
def saveRoll [Zero α] (parallel : Parallel) (alignSize cpRank : Nat) (rmpad : Rmpad α) (entry : Entry α) :
    Except Failure (Rmpad α) := do
  let halfSeqlen := entry.seqlenPadded / parallel.cpSize / 2
  let startIdx := entry.cuSeqlenPadded / parallel.cpSize
  let d := alignTokens alignSize entry.tokens
  let remainStart := entry.seqlenPadded - halfSeqlen * (cpRank + 1)
  let remainEnd := min (entry.seqlenPadded - halfSeqlen * cpRank) d.length
  let remainLen := remainEnd - remainStart
  let first : Int := (startIdx + halfSeqlen : Nat) - 1
  let next ← getIndex d ((cpRank + 1) * halfSeqlen : Nat)
  let _ ← getIndex rmpad.positionIds first
  let rmpad := { rmpad with
    savedRoll := insert first next rmpad.savedRoll
    savedPositionRoll := insert first (.view first) rmpad.savedPositionRoll }
  if 0 < remainLen then
    let last : Int := (startIdx + halfSeqlen + remainLen : Nat) - 1
    if remainEnd = d.length then
      let next ← getIndex d 0
      return { rmpad with
        savedRoll := insert last next rmpad.savedRoll
        savedPositionRoll := insert last .zero rmpad.savedPositionRoll }
    else
      let next ← getIndex d remainEnd
      let _ ← getIndex rmpad.positionIds last
      return { rmpad with
        savedRoll := insert last next rmpad.savedRoll
        savedPositionRoll := insert last (.view last) rmpad.savedPositionRoll }
  else return rmpad

/-- The loop body of `preprocess_thd_engine`. -/
def packThdSequence [Zero α] (parallel : Parallel) (alignSize : Nat) (needRoll : Bool) (cpRank : Nat)
    (rmpad : Rmpad α) (entry : Entry α) : Except Failure (Rmpad α) := do
  let rmpad ← writeThd parallel alignSize cpRank rmpad entry
  if needRoll && 1 < parallel.cpSize then saveRoll parallel alignSize cpRank rmpad entry else return rmpad

/-- `torch.roll(items, shifts=-1)` followed by the saved assignments. -/
def rollSaved (items : List α) (saved : List (Int × α)) : Except Failure (List α) :=
  match setItems saved (items.rotate 1) with
  | some rolled => .ok rolled
  | none => .error .indexError

/-- `cpSize` is `local_cp_size` where that is given, and `cpRank` the rank in its
group. The result is the packed tokens, the layout and the position ids. -/
def preprocessThdEngine [Zero α] (parallel : Parallel) (cpRank : Nat) (useFp8Padding needRoll : Bool)
    (inputIds : List (List α)) : Except Failure (List α × PackedSeqParams × List Nat) := do
  let params ← packedSeqParams parallel useFp8Padding (inputIds.map List.length)
  let rmpad ← (params.entries inputIds).foldlM
    (packThdSequence parallel (perSeqAlign parallel useFp8Padding) needRoll cpRank)
    (Rmpad.blank (params.seqlensInBatchPadded.sum / parallel.cpSize))
  if needRoll then
    let rolled ← rollSaved rmpad.inputIds rmpad.savedRoll
    let positions ← rollSaved rmpad.positionIds
      (rmpad.savedPositionRoll.map (fun entry => (entry.1, entry.2.value rmpad.positionIds)))
    return (rolled, params, positions)
  else return (rmpad.inputIds, params, rmpad.positionIds)

def postprocessThdEngine (parallel : Parallel) (outputList : Nat → List β) (empty : Nat → β)
    (params : PackedSeqParams) (inputIds : List (List α)) : Except Failure (List (List β)) :=
  unpackSequences parallel outputList empty params (inputIds.map List.length)

end LLMFusion.Mcore
