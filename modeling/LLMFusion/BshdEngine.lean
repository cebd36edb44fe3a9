import LLMFusion.PackedSeqs
import LLMFusion.Lib.Gather

/-! Padding nested sequences to one length for the model engine. A rank holds two
chunks of every padded row; without context parallelism it holds the whole row. The
masks are those of CUDA devices, one flag for each token. -/

namespace LLMFusion.Mcore
open Slices Gather

variable {α β : Type}

/-- `max_seqlen` after padding. -/
def bshdSeqlen (parallel : Parallel) (useFp8Padding : Bool) (batchSize maxSeqlen : Nat) : Nat :=
  let alignSize := parallel.alignSize
  let maxSeqlen := if 1 < alignSize then maxSeqlen + padSize alignSize maxSeqlen else maxSeqlen
  if useFp8Padding then
    let fp8TotalAlign := 128 * parallel.tpSize * parallel.cpSize
    let fp8SeqAlign := Nat.lcm (fp8TotalAlign / Nat.gcd batchSize fp8TotalAlign) alignSize
    (maxSeqlen + fp8SeqAlign - 1) / fp8SeqAlign * fp8SeqAlign
  else maxSeqlen

/-- `items[indices]` -/
def takeIndices (items : List α) (indices : List Nat) : Except Failure (List α) :=
  match gather items indices with
  | some picked => .ok picked
  | none => .error .indexError

/-- The two chunks of a padded sequence, or the items behind theirs. -/
def localSequence (needRoll : Bool) (seq : List α) (maxSeqlen firstStart secondStart chunkLen : Nat) :
    Except Failure (List α) :=
  let firstChunk := slice seq firstStart (firstStart + chunkLen)
  let secondChunk := slice seq secondStart (secondStart + chunkLen)
  if needRoll then
    let localPos := List.range' firstStart chunkLen ++ List.range' secondStart chunkLen
    takeIndices seq (localPos.map (fun position => (position + 1) % maxSeqlen))
  else .ok (firstChunk ++ secondChunk)

/-- The row of one sequence, and its mask. The positions of a chunk that hold a token
are its first ones; a negative count is zero here. -/
def bshdRow [Zero α] (parallel : Parallel) (cpRank : Nat) (needRoll : Bool) (maxSeqlen localMaxSeqlen : Nat)
    (tokens : List α) : Except Failure (List α × List Bool) :=
  let inputIds := List.replicate localMaxSeqlen (0 : α)
  let attentionMask := List.replicate localMaxSeqlen false
  let seqlen := tokens.length
  if parallel.cpSize ≤ 1 then do
    let inputIds ← setSlice inputIds 0 seqlen tokens
    return (inputIds, fill attentionMask 0 seqlen true)
  else do
    let seq := if seqlen < maxSeqlen then tokens ++ List.replicate (maxSeqlen - seqlen) 0 else tokens
    let chunkLen := maxSeqlen / (2 * parallel.cpSize)
    let firstStart := cpRank * chunkLen
    let secondStart := (2 * parallel.cpSize - cpRank - 1) * chunkLen
    let localSeq ← localSequence needRoll seq maxSeqlen firstStart secondStart chunkLen
    let inputIds ← setSlice inputIds 0 localMaxSeqlen localSeq
    let validFirst := min (seqlen - firstStart) chunkLen
    let validSecond := min (seqlen - secondStart) chunkLen
    let attentionMask := if 0 < validFirst then fill attentionMask 0 validFirst true else attentionMask
    let attentionMask := if 0 < validSecond then fill attentionMask chunkLen (chunkLen + validSecond) true
      else attentionMask
    return (inputIds, attentionMask)

structure Bshd (α : Type) where
  inputIds : List (List α)
  attentionMask : List (List Bool)
  positionIds : List (List Nat)

/-- All of `preprocess_bshd_engine` after the padded length. -/
def bshd [Zero α] (parallel : Parallel) (cpRank : Nat) (needRoll : Bool) (maxSeqlen : Nat)
    (inputIds : List (List α)) : Except Failure (Bshd α) := do
  let localMaxSeqlen := if 1 < parallel.cpSize then maxSeqlen / parallel.cpSize else maxSeqlen
  let rows ← inputIds.mapM (bshdRow parallel cpRank needRoll maxSeqlen localMaxSeqlen)
  let chunkLen := maxSeqlen / (2 * parallel.cpSize)
  let positionIds := if parallel.cpSize ≤ 1 then List.range localMaxSeqlen
    else List.range' (cpRank * chunkLen) chunkLen ++ List.range' (maxSeqlen - (cpRank + 1) * chunkLen) chunkLen
  if positionIds.length ≠ localMaxSeqlen then throw (.shape (1, positionIds.length) (rows.length, localMaxSeqlen))
  let inputIdsBshd := rows.map Prod.fst
  let inputIdsBshd := if needRoll && parallel.cpSize ≤ 1 then inputIdsBshd.map (fun row => row.rotate 1)
    else inputIdsBshd
  return ⟨inputIdsBshd, rows.map Prod.snd, List.replicate rows.length positionIds⟩

/-- The longest of no sequences is refused. -/
def preprocessBshdEngine [Zero α] (parallel : Parallel) (cpRank : Nat) (needRoll useFp8Padding : Bool)
    (inputIds : List (List α)) : Except Failure (Bshd α) :=
  match (inputIds.map List.length).max? with
  | some maxSeqlen => bshd parallel cpRank needRoll
      (bshdSeqlen parallel useFp8Padding inputIds.length maxSeqlen) inputIds
  | none => .error .emptyReduction

/-- `items[mask]` -/
def selectMasked (items : List α) (mask : List Bool) : Except Failure (List α) :=
  if items.length = mask.length then
    .ok ((items.zip mask).filterMap (fun entry => if entry.2 then some entry.1 else none))
  else .error (.maskLength mask.length items.length)

/-- The rows of a tensor of outputs have one length, and so have those of a mask. -/
def getRow {width : Nat} (rows : List (Vector α width)) (i : Nat) : Except Failure (List α) :=
  match rows[i]? with
  | some row => .ok row.toList
  | none => .error .indexError

/-- `tmp` and `full_mask` -/
structure Unpadded (β : Type) where
  tmp : List β
  fullMask : List Bool

section Postprocess
variable {localSeqlen maskSeqlen : Nat} (outputList : Nat → List (Vector β localSeqlen))
  (maskList : Nat → List (Vector Bool maskSeqlen))

/-- The chunks of rank `j` of row `i`. -/
def placeRank (halfSeqlen fullSeqlen i : Nat) (state : Unpadded β) (j : Nat) : Except Failure (Unpadded β) := do
  let o ← getRow (outputList j) i
  let m ← getRow (maskList j) i
  let frontStart := j * halfSeqlen
  let frontEnd := (j + 1) * halfSeqlen
  let backStart := fullSeqlen - (j + 1) * halfSeqlen
  let backEnd := fullSeqlen - j * halfSeqlen
  let tmp ← setSlice state.tmp frontStart frontEnd (o.take halfSeqlen)
  let tmp ← setSlice tmp backStart backEnd (o.drop halfSeqlen)
  let fullMask ← setSlice state.fullMask frontStart frontEnd (m.take halfSeqlen)
  let fullMask ← setSlice fullMask backStart backEnd (m.drop halfSeqlen)
  return ⟨tmp, fullMask⟩

/-- Row `i` of the result. `empty` is what `torch.empty` leaves in the places that
are not written. -/
def unpadRow (cpSize cpRank : Nat) (empty : Nat → β) (i : Nat) : Except Failure (List β) :=
  if cpSize ≤ 1 then do
    let output ← getRow (outputList cpRank) i
    let mask ← getRow (maskList cpRank) i
    selectMasked output mask
  else if localSeqlen % 2 ≠ 0 then .error (.oddLength localSeqlen)
  else do
    let fullSeqlen := localSeqlen * cpSize
    let unpadded ← (List.range cpSize).foldlM (placeRank outputList maskList (localSeqlen / 2) fullSeqlen i)
      ⟨(List.range fullSeqlen).map empty, List.replicate fullSeqlen false⟩
    selectMasked unpadded.tmp unpadded.fullMask

/-- `outputList` and `maskList` are the results of the all-gathers. -/
def postprocessBshdEngine (parallel : Parallel) (cpRank : Nat) (empty : Nat → β) :
    Except Failure (List (List β)) :=
  let output := (outputList cpRank).length
  let attentionMask := (maskList cpRank).length
  if (output, localSeqlen) ≠ (attentionMask, maskSeqlen) then
    .error (.shape (output, localSeqlen) (attentionMask, maskSeqlen))
  else (List.range output).mapM (unpadRow outputList maskList parallel.cpSize cpRank empty)

end Postprocess

end LLMFusion.Mcore
