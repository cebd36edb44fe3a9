import Mathlib.Algebra.Order.Field.Basic
import Mathlib.Algebra.BigOperators.Group.List.Basic

/-! Statistics of the valid places of a tensor. Every value comes with its place in the mask,
so the two have one shape; `rsqrt` is the function of that name. -/

namespace LLMFusion.TorchFunctional

inductive Failure where
  | emptyMask
  | singleMask
  | emptyStack
  | noScore
  | keyError
  | lengthMismatch (scores gidx : Nat)
  | negativeDimension (size : Int)
  | indexOutOfRange
  | missingNumTokens
  | missingBatchSize
  | invalidMode (mode : String)
  deriving DecidableEq, Repr

variable {K : Type} [Field K]

/-- A place of a mask as a factor. -/
def weight (valid : Bool) : K := if valid then 1 else 0

/-- `1e-8` -/
def tiny : K := 1 / 10 ^ 8

def maskSum (mask : List Bool) : K := (mask.map weight).sum

def maskedSum (entries : List (K × Bool)) : K :=
  (entries.map (fun entry => (if entry.2 then entry.1 else 0) * weight entry.2)).sum

def maskedMean (entries : List (K × Bool)) : K :=
  maskedSum entries / (maskSum (entries.map Prod.snd) + tiny)

def maskedVar [DecidableEq K] (entries : List (K × Bool)) (unbiased : Bool) : Except Failure K := do
  let mean := maskedMean entries
  let variance := maskedMean (entries.map (fun entry => ((entry.1 - mean) ^ 2, entry.2)))
  if unbiased then
    let maskSum : K := maskSum (entries.map Prod.snd)
    if maskSum = 0 then throw .emptyMask
    if maskSum = 1 then throw .singleMask
    let besselCorrection := maskSum / (maskSum - 1)
    return variance * besselCorrection
  else return variance

def maskedWhiten [DecidableEq K] (rsqrt : K → K) (rows : List (List (K × Bool))) (shiftMean : Bool) :
    Except Failure (List (List K)) := do
  let mean := maskedMean rows.flatten
  let var ← maskedVar rows.flatten true
  let whitened := rows.map (List.map (fun entry => (entry.1 - mean) * rsqrt (var + tiny)))
  return if shiftMean then whitened else whitened.map (List.map (· + mean))

@[simp] theorem weight_true : (weight true : K) = 1 := rfl

@[simp] theorem weight_false : (weight false : K) = 0 := rfl

end LLMFusion.TorchFunctional
