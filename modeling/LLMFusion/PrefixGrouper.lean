import LLMFusion.Lib.Masking
import LLMFusion.Lib.Slices
import Mathlib.Algebra.GroupWithZero.Nat
import Mathlib.Algebra.BigOperators.Group.List.Basic
import Mathlib.Order.Lattice

/-! A forward pass in which rows with one prompt share it. Rows with equal uids that follow each
other are a group; the library packs the prompt of the group's first row and the responses of all its
rows into one row, by the masks it is given, and takes the outputs apart again. -/

namespace LLMFusion.PrefixGrouper
open Slices

/-- Consecutive pieces of given sizes. -/
def pieces {α : Type} : List Nat → List α → List (List α)
  | [], _ => []
  | size :: sizes, items => items.take size :: pieces sizes (items.drop size)

/-! ### The library, as far as it is used -/

/-- What the library pads with, and the output it puts before a suffix whose prefix is empty. -/
structure Fill (L : Type) where
  id : Nat
  logits : L
  empty : L

structure GroupInfo where
  prefixLen : Nat
  suffixLens : List Nat
  deriving DecidableEq, Repr

def GroupInfo.total (info : GroupInfo) : Nat := info.prefixLen + info.suffixLens.sum

def maximum (sizes : List Nat) : Nat := sizes.foldr max 0

/-- Group infos; the padding mask is as wide as the longest group. -/
abbrev Grouper := List GroupInfo

def fromUngroupedMasks (prefixMask suffixMask : List (List Bool)) (groupSizes : List Nat) : Grouper :=
  List.zipWith (fun mask masks => ⟨mask.count true, masks.map (List.count true)⟩) prefixMask (pieces groupSizes suffixMask)

namespace Grouper
variable {L : Type} (grouper : Grouper)

def maxLen : Nat := maximum (grouper.map GroupInfo.total)

def maxSuffix : Nat := maximum (grouper.flatMap GroupInfo.suffixLens)

/-- Prefixes and suffixes are compacted by their masks, and the rows are padded on the right. -/
def concatInput (fill : Fill L) (prefixIds : List (List Nat)) (prefixMask : List (List Bool)) (suffixIds : List (List Nat))
    (suffixMask : List (List Bool)) : List (List Nat) :=
  let suffixes := pieces (grouper.map (fun info => info.suffixLens.length)) (List.zipWith Masking.select suffixMask suffixIds)
  List.zipWith (fun ids suffixes =>
      let row := ids ++ suffixes.flatten
      row ++ List.replicate (grouper.maxLen - row.length) fill.id)
    (List.zipWith Masking.select prefixMask prefixIds) suffixes

/-- The outputs for a row of tokens with their positions. A token sees the prefix up to itself, or
the whole prefix and its own suffix up to itself. -/
def attend (model : List (Nat × Nat) → L) (fill : Fill L) (info : GroupInfo) (tokens : List (Nat × Nat)) : List L :=
  (List.range info.prefixLen).map (fun place => model (tokens.take (place + 1))) ++
    (pieces info.suffixLens (tokens.drop info.prefixLen)).flatMap (fun suffix =>
      (List.range suffix.length).map (fun place => model (tokens.take info.prefixLen ++ suffix.take (place + 1)))) ++
    List.replicate (grouper.maxLen - info.total) fill.logits

/-- The outputs of the suffixes, each with the last one of its prefix in front. -/
def suffixOut (fill : Fill L) (output : List (List L)) : List (List L) :=
  (List.zipWith (fun info outputs =>
      (pieces info.suffixLens (outputs.drop info.prefixLen)).map (fun suffix =>
        (outputs.take info.prefixLen).getLast?.getD fill.empty :: suffix ++
          List.replicate (grouper.maxSuffix - suffix.length) fill.logits))
    grouper output).flatten

/-- The mask of those outputs. -/
def suffixMask : List (List Bool) :=
  grouper.flatMap (fun info => info.suffixLens.map (fun length =>
    true :: List.replicate length true ++ List.replicate (grouper.maxSuffix - length) false))

end Grouper

/-- The masked items of every row, padded on the right. -/
def convertPadding (value : Nat) (ids : List (List Nat)) (mask : List (List Bool)) : List (List Nat) :=
  let width := maximum (mask.map (List.count true))
  List.zipWith (fun mask ids =>
    let row := Masking.select mask ids
    row ++ List.replicate (width - row.length) value) mask ids

/-! ### The forward pass -/

structure MicroBatch (U : Type) where
  prompts : List (List Nat)
  responses : List (List Nat)
  responseMask : List (List Bool)
  uid : List U
  padTokenId : Option Nat

/-- The positions of the suffixes of a row, from a place on. -/
def writeSuffixes (prefixLen : Nat) : List Nat → Nat → List Nat → Option (List Nat)
  | [], _, row => some row
  | suffixLen :: suffixLens, curPos, row =>
    if suffixLen > 0 then do
      let row ← assign row curPos (curPos + suffixLen) (List.range' prefixLen suffixLen)
      writeSuffixes prefixLen suffixLens (curPos + suffixLen) row
    else writeSuffixes prefixLen suffixLens curPos row

def buildPositionIds (grouper : Grouper) : Option (List (List Nat)) :=
  grouper.mapM (fun info => do
    let row ← assign (List.replicate grouper.maxLen 0) 0 info.prefixLen (List.range info.prefixLen)
    writeSuffixes info.prefixLen info.suffixLens info.prefixLen row)

variable {U : Type} [DecidableEq U]

/-- The sizes of the groups from the current one on, with `cur` rows of it behind. -/
def groupSizesFrom (cur : Nat) (previous : U) : List U → List Nat
  | [] => [cur]
  | uid :: uids =>
    if uid = previous then groupSizesFrom (cur + 1) uid uids else cur :: groupSizesFrom 1 uid uids

def groupSizes : List U → List Nat
  | [] => [1]
  | uid :: uids => groupSizesFrom 1 uid uids

def prefixIndices (cursor : Nat) : List Nat → List Nat
  | [] => []
  | size :: sizes => cursor :: prefixIndices (cursor + size) sizes

/-- What the model is called with. -/
structure PgInputs where
  grouper : Grouper
  concatInputIds : List (List Nat)
  positionIds : List (List Nat)

def buildPgFromMicroBatch {L : Type} (fill : Fill L) (microBatch : MicroBatch U) (padTokenId : Nat) : Option PgInputs := do
  let groupSizes := groupSizes microBatch.uid
  let prefixIds ← Gather.gather microBatch.prompts (prefixIndices 0 groupSizes)
  let prefixMask := prefixIds.map (List.map (fun id => decide (id ≠ padTokenId)))
  let grouper := fromUngroupedMasks prefixMask microBatch.responseMask groupSizes
  let concatInputIds := grouper.concatInput fill prefixIds prefixMask microBatch.responses microBatch.responseMask
  return ⟨grouper, concatInputIds, ← buildPositionIds grouper⟩

/-- A model by its logits for the next token after tokens at positions, with what is made of logits:
the division by the temperature, the log probability of a token and the entropy. -/
structure Model (L K : Type) where
  logits : List (Nat × Nat) → L
  divide : L → L
  logprobsFromLogits : L → Nat → K
  entropyFn : L → K

variable {L K : Type}

/-- The log probabilities, the entropy and the mask of the compacted suffixes. -/
structure PgOutputs (K : Type) where
  logProbs : List (List K)
  entropy : List (List K)
  suffixMask : List (List Bool)

def pgForward (model : Model L K) (fill : Fill L) (inputs : PgInputs) (completionIds : List (List Nat))
    (completionMask : List (List Bool)) : PgOutputs K :=
  let output := List.zipWith (fun info tokens => inputs.grouper.attend model.logits fill info tokens) inputs.grouper
    (List.zipWith List.zip inputs.concatInputIds inputs.positionIds)
  let suffixOut := (inputs.grouper.suffixOut fill output).map (fun row => row.dropLast.map model.divide)
  let completionIdsRight := convertPadding fill.id completionIds completionMask
  ⟨List.zipWith (List.zipWith model.logprobsFromLogits) suffixOut completionIdsRight, suffixOut.map (List.map model.entropyFn),
    inputs.grouper.suffixMask.map List.tail⟩

/-- Positions without a token become zero, and the rows get the width of the responses. -/
def maskedAndPadded [Zero K] (width : Nat) (suffixMask : List (List Bool)) (values : List (List K)) : List (List K) :=
  (List.zipWith (List.zipWith (fun token value => if token = true then value else 0)) suffixMask values).map
    (fun row => row ++ List.replicate (width - row.length) 0)

/-- The entropy, where it is calculated, and the log probabilities. -/
def forwardMicroBatchWithPrefixGrouper [Zero K] (model : Model L K) (fill : Fill L) (microBatch : MicroBatch U)
    (calculateEntropy : Bool) : Option (Option (List (List K)) × List (List K)) := do
  let padTokenId := microBatch.padTokenId.getD 0
  let inputs ← buildPgFromMicroBatch fill microBatch padTokenId
  let outputs := pgForward model fill inputs microBatch.responses microBatch.responseMask
  let width := (microBatch.responses.headD []).length
  return (if calculateEntropy then some (maskedAndPadded width outputs.suffixMask outputs.entropy) else none,
    maskedAndPadded width outputs.suffixMask outputs.logProbs)

end LLMFusion.PrefixGrouper
