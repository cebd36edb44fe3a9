import LLMFusion.Lib.Masking
import LLMFusion.Lib.Splitting
import LLMFusion.PolicyLoss

/-! Correction for rollouts of another policy: tokens and sequences outside a trust region are
masked, and the others are weighted. Every log ratio comes with its place in `response_mask`. A mask
of ones and zeros is of type `Bool`, where the product of two masks is their conjunction. -/

namespace LLMFusion.RolloutCorrHelper
open TorchFunctional CoreAlgos Groupwise

inductive Failure where
  /-- `TypeError` -/
  | booleanThreshold
  | missingThreshold
  | emptyThreshold
  | invalidThreshold (spec : String)
  | nonpositiveThreshold (spec : String)
  | crossedThresholds
  | thresholdCount (options : Nat)
  | separatedThreshold (spec : String)
  | missingLower
  | missingOption
  | invalidOption (name : String)
  | noValidToken
  | emptyReduction
  | zeroDivision
  deriving DecidableEq, Repr

inductive ThresholdSpec (K : Type) where
  /-- `None` -/
  | absent
  | boolean (value : Bool)
  | number (value : K)
  | text (value : String)

def ThresholdSpec.isNone {K : Type} : ThresholdSpec K → Bool
  | absent => true
  | _ => false

/-- Functions of the math module and of tensors, and how numbers are read and written. -/
structure Functions (K : Type) extends Elementary K where
  sqrt : K → K
  /-- `float(text)`, without a `ValueError` -/
  float : String → Option K
  str : K → String

/-! ### Thresholds -/

/-- `text.strip()` -/
def strip (text : String) : String := String.ofList (Splitting.trim isSpace text.toList)

/-- `[part.strip() for part in text.split(",") if part.strip()]` -/
def splitCommas (text : String) : List String :=
  ((text.toList.splitOn ',').map (fun part => String.ofList (Splitting.trim isSpace part))).filter (fun part => decide (part ≠ ""))

/-- `text.split("_", 1)`, when there is an underscore. -/
def splitBounds (text : String) : Option (String × String) :=
  (Splitting.cut '_' text.toList).map (Prod.map String.ofList String.ofList)

section Thresholds
variable {K : Type} [Field K] [LinearOrder K] (py : Functions K)

def readFloat (spec text : String) : Except Failure K :=
  match py.float text with
  | some value => .ok value
  | none => .error (.invalidThreshold spec)

/-- `1.0 / x` -/
def reciprocal (x : K) : Except Failure K := if x = 0 then .error .zeroDivision else .ok (1 / x)

/-- The upper bound, and the lower bound of a range. -/
def parseRolloutIsThreshold (thresholdSpec : ThresholdSpec K) : Except Failure (K × Option K) := do
  let (upper, lower) ← show Except Failure (K × Option K) from match thresholdSpec with
    | .absent => .error .missingThreshold
    | .boolean _ => .error .booleanThreshold
    | .number value => .ok (value, none)
    | .text text =>
      let spec := strip text
      if spec = "" then .error .emptyThreshold
      else match splitBounds spec with
        | some (lowerStr, upperStr) => do
          let lower ← readFloat py text lowerStr
          let upper ← readFloat py text upperStr
          return (upper, some lower)
        | none => do
          let upper ← readFloat py text spec
          return (upper, none)
  if upper ≤ 0 then throw (.nonpositiveThreshold "upper")
  match lower with
  | none => return (upper, none)
  | some lower =>
    if lower ≤ 0 then throw (.nonpositiveThreshold "lower")
    if lower > upper then throw .crossedThresholds
    return (upper, some lower)

/-- The members of `SUPPORTED_ROLLOUT_RS_OPTIONS`. -/
inductive RsOption where
  | tokenK1 | tokenK2 | tokenK3
  | seqSumK1 | seqSumK2 | seqSumK3
  | seqMeanK1 | seqMeanK2 | seqMeanK3
  | seqMaxK2 | seqMaxK3
  deriving DecidableEq, Repr

namespace RsOption

def supported : List RsOption :=
  [tokenK1, tokenK2, tokenK3, seqSumK1, seqSumK2, seqSumK3, seqMeanK1, seqMeanK2, seqMeanK3, seqMaxK2, seqMaxK3]

def name : RsOption → String
  | tokenK1 => "token_k1"
  | tokenK2 => "token_k2"
  | tokenK3 => "token_k3"
  | seqSumK1 => "seq_sum_k1"
  | seqSumK2 => "seq_sum_k2"
  | seqSumK3 => "seq_sum_k3"
  | seqMeanK1 => "seq_mean_k1"
  | seqMeanK2 => "seq_mean_k2"
  | seqMeanK3 => "seq_mean_k3"
  | seqMaxK2 => "seq_max_k2"
  | seqMaxK3 => "seq_max_k3"

def named (text : String) : Option RsOption := supported.find? (fun option => decide (option.name = text))

/-- `option.endswith("k1")` and so on -/
inductive Estimator where
  | k1 | k2 | k3
  deriving DecidableEq, Repr

def estimator : RsOption → Estimator
  | tokenK1 | seqSumK1 | seqMeanK1 => .k1
  | tokenK2 | seqSumK2 | seqMeanK2 | seqMaxK2 => .k2
  | tokenK3 | seqSumK3 | seqMeanK3 | seqMaxK3 => .k3

/-- How the statistic of a sequence is made of those of its tokens; an option of tokens makes none. -/
inductive Aggregation where
  | token | sum | mean | max
  deriving DecidableEq, Repr

def aggregation : RsOption → Aggregation
  | tokenK1 | tokenK2 | tokenK3 => .token
  | seqSumK1 | seqSumK2 | seqSumK3 => .sum
  | seqMeanK1 | seqMeanK2 | seqMeanK3 => .mean
  | seqMaxK2 | seqMaxK3 => .max

end RsOption

/-- `"token"` or `"sequence"` -/
inductive Level where
  | token
  | sequence
  deriving DecidableEq, Repr

def RsOption.level (option : RsOption) : Level :=
  match option.aggregation with
  | .token => .token
  | _ => .sequence

structure Thresholds (K : Type) where
  lower : Option K
  upper : K

def optionThresholds (option : RsOption) (spec : String) : Except Failure (Thresholds K) :=
  match option.estimator with
  | .k1 => do
    let (lowerStr, upperStr) ← show Except Failure (String × String) from match splitBounds spec with
      | some bounds => .ok bounds
      | none => do
        let upper ← readFloat py spec spec
        let lower ← reciprocal upper
        return (py.str lower, spec)
    let lower ← readFloat py spec lowerStr
    let upper ← readFloat py spec upperStr
    if lower ≤ 0 ∨ upper ≤ 0 then throw (.nonpositiveThreshold spec)
    return ⟨some lower, upper⟩
  | _ => do
    if (splitBounds spec).isSome then throw (.separatedThreshold spec)
    let upper ← readFloat py spec spec
    if upper ≤ 0 then throw (.nonpositiveThreshold spec)
    return ⟨none, upper⟩

/-- `str(True)` or `str(False)` -/
def strBool (value : Bool) : String := if value then "True" else "False"

/-- One threshold for each option, or one that all of them share. -/
def rawSpecs (options : Nat) (thresholdSpec : ThresholdSpec K) : Except Failure (List String) := do
  let rawSpecs ← show Except Failure (List String) from match thresholdSpec with
    | .absent => .error .missingThreshold
    | .boolean value => .ok [strBool value]
    | .number value => .ok [py.str value]
    | .text text => .ok (splitCommas text)
  match rawSpecs with
  | [] => throw .emptyThreshold
  | [spec] => return List.replicate options spec
  | specs => if specs.length = options then return specs else throw (.thresholdCount options)

/-- The entries of the dictionary; the options are distinct. -/
def parseRolloutRsThresholds (options : List RsOption) (thresholdSpec : ThresholdSpec K) :
    Except Failure (List (RsOption × Thresholds K)) := do
  let rawSpecs ← rawSpecs py options.length thresholdSpec
  (options.zip rawSpecs).mapM (fun entry => do
    let thresholds ← optionThresholds py entry.1 entry.2
    return (entry.1, thresholds))

end Thresholds

/-! ### Metrics -/

abbrev Metrics (K : Type) := List (String × K)

section Metrics
variable {K : Type} [Field K] [LinearOrder K]

/-- `values.max()` -/
def largest (values : List K) : Except Failure K :=
  match values.max? with
  | some value => .ok value
  | none => .error .emptyReduction

/-- `values.min()` -/
def smallest (values : List K) : Except Failure K :=
  match values.min? with
  | some value => .ok value
  | none => .error .emptyReduction

/-- The values at the valid places. The other places are filled with infinities, which are neither
the largest nor the smallest value when a place is valid. -/
def validValues (rows : List (List (K × Bool))) : List K := (rows.flatten.filter Prod.snd).map Prod.fst

/-- `seq_valid_mask` -/
def seqValidMask (rows : List (List (K × Bool))) : List Bool := rows.map (fun row => row.any Prod.snd)

/-- `(values > threshold).float().mean()` and so on -/
def fraction (holds : K → Bool) (values : List K) : K := mean (values.map (fun value => weight (holds value)))

/-- The same of the valid places. -/
def maskedFraction (holds : K → Bool) (rows : List (List (K × Bool))) : K :=
  maskedMean (rows.flatten.map (fun entry => (weight (holds entry.1), entry.2)))

/-- The standard deviation of the clamped values. -/
def clampedStd (sqrt : K → K) (least most : K) (rows : List (List (K × Bool))) : K :=
  if maskSum (rows.flatten.map Prod.snd) > (1 : K) then
    let clamped := rows.flatten.map (fun entry => (clamp entry.1 least most, entry.2))
    let meanClamped := maskedMean clamped
    let variance := maskedMean (clamped.map (fun entry => (entry.1 ^ 2, entry.2))) - meanClamped ^ 2
    sqrt (max variance 0)
  else 0

/-- The metrics of one option, of the statistic at every place. -/
def computeRsMetrics (sqrt : K → K) (optionName : String) (rsStatistic : List (List (K × Bool))) (level : Level)
    (perSequenceValues : Option (List K)) (upper lower : K) (applyLowerThreshold : Bool) : Except Failure (Metrics K) := do
  if ¬ rsStatistic.any (fun row => row.any Prod.snd) then throw .noValidToken
  let key := fun metric => "rollout_rs_" ++ optionName ++ metric
  let seqValues := perSequenceValues.getD (rsStatistic.map maskedMean)
  let seqValuesValid := Masking.select (seqValidMask rsStatistic) seqValues
  let bySequence := level = .sequence ∧ seqValuesValid ≠ []
  let most ← largest (if bySequence then seqValuesValid else validValues rsStatistic)
  let least ← smallest (if bySequence then seqValuesValid else validValues rsStatistic)
  let fractionOf := fun holds => if bySequence then fraction holds seqValuesValid else maskedFraction holds rsStatistic
  let tokenMetrics := [
    (key "_mean", maskedMean rsStatistic.flatten),
    (key "_max", most),
    (key "_min", least),
    (key "_fraction_high", fractionOf (fun value => upper < value)),
    (key "_fraction_low", if applyLowerThreshold then fractionOf (fun value => value < lower) else 0),
    (key "_std", clampedStd sqrt (if applyLowerThreshold then lower else 0) upper rsStatistic)]
  if seqValuesValid = [] then
    return tokenMetrics ++ [(key "_seq_mean", 0), (key "_seq_std", 0), (key "_seq_max", 0), (key "_seq_min", 0),
      (key "_seq_max_deviation", 0), (key "_seq_fraction_high", 0), (key "_seq_fraction_low", 0)]
  let seqMost ← largest seqValuesValid
  let seqLeast ← smallest seqValuesValid
  let deviation ← largest (seqValuesValid.map (fun value => |value - 0|))
  return tokenMetrics ++ [
    (key "_seq_mean", mean seqValuesValid),
    (key "_seq_std", if 1 < seqValuesValid.length then std sqrt seqValuesValid else 0),
    (key "_seq_max", seqMost),
    (key "_seq_min", seqLeast),
    (key "_seq_max_deviation", deviation),
    (key "_seq_fraction_high", fraction (fun value => upper < value) seqValuesValid)] ++
    if applyLowerThreshold then [(key "_seq_fraction_low", fraction (fun value => value < lower) seqValuesValid)] else []

end Metrics

/-! ### Rejection -/

section Rejection
variable {K : Type} [Field K] [LinearOrder K] (py : Functions K)

/-- `SAFETY_BOUND` -/
def safetyBound : K := (20 : Nat)

def logRatioSafe (logRatio : K) : K := clamp logRatio (-safetyBound) safetyBound

/-- `token_k1`, `token_k2` and `token_k3` -/
def tokenStat (logRatio : K) : RsOption.Estimator → K
  | .k1 => -logRatioSafe logRatio
  | .k2 => 1 / (2 : Nat) * logRatioSafe logRatio ^ 2
  | .k3 => py.exp (logRatioSafe logRatio) - 1 - logRatioSafe logRatio

def sequenceMax (values : List (K × Bool)) : Except Failure K :=
  if values = [] then .error .emptyReduction
  else .ok (((values.filter Prod.snd).map Prod.fst).max?.getD 0)

/-- The statistics of the sequences, for an option of sequences. -/
def sequenceStats (option : RsOption) (rows : List (List (K × Bool))) : Except Failure (Option (List K)) :=
  let values := rows.map (List.map (fun entry => (tokenStat py entry.1 option.estimator, entry.2)))
  match option.aggregation with
  | .token => .ok none
  | .sum => .ok (some (values.map maskedSum))
  | .mean => .ok (some (values.map maskedMean))
  | .max => (values.mapM sequenceMax).map some

/-- `per_token_stat`, where the statistic of a sequence is that of each of its tokens. -/
def perTokenStat (option : RsOption) (rows : List (List (K × Bool))) : Option (List K) → List (List (K × Bool))
  | none => rows.map (List.map (fun entry => (tokenStat py entry.1 option.estimator, entry.2)))
  | some seqStats => List.zipWith (fun seqStat row => row.map (fun entry => (seqStat, entry.2))) seqStats rows

/-- What the statistic is compared with: the logarithms of both bounds for `k1`, the upper bound otherwise. -/
structure Bounds (K : Type) where
  lower : Option K
  upper : K

def boundsOf (option : RsOption) (thresholds : Thresholds K) : Except Failure (Bounds K) :=
  match option.estimator with
  | .k1 => match thresholds.lower with
    | none => .error .missingLower
    | some lower => .ok ⟨some (py.log lower), py.log thresholds.upper⟩
  | _ => .ok ⟨none, thresholds.upper⟩

def Bounds.keep (bounds : Bounds K) (stat : K) : Bool :=
  decide (stat ≤ bounds.upper) && bounds.lower.all (fun lower => decide (lower ≤ stat))

/-- What the loop over the options keeps. -/
structure RejectionState (K : Type) where
  combinedMask : List (List Bool)
  metrics : Metrics K

/-- The product of two masks. -/
def meet (mask other : List (List Bool)) : List (List Bool) := List.zipWith (List.zipWith and) mask other

def seqMaskedFraction (rows : List (List (K × Bool))) (keep : List (List Bool)) : K :=
  let seqValid : List K := (seqValidMask rows).map weight
  let seqKeep := List.zipWith (fun row keep => (row.zip keep).all (fun entry => !entry.1.2 || entry.2)) rows keep
  if seqValid.sum > 0 then
    (List.zipWith (fun keep valid => (1 - weight keep) * valid) seqKeep seqValid).sum / seqValid.sum
  else 0

/-- `masked_mean(1 - mask, response_mask)` -/
def maskedOut (rows : List (List (K × Bool))) (keep : List (List Bool)) : K :=
  maskedMean (List.zipWith (List.zipWith (fun entry keep => (1 - weight keep, entry.2))) rows keep).flatten

/-- The body of the loop over the options. -/
def applyOption (rows : List (List (K × Bool))) (state : RejectionState K) (entry : RsOption × Thresholds K) :
    Except Failure (RejectionState K) := do
  let bounds ← boundsOf py entry.1 entry.2
  let seqStats ← sequenceStats py entry.1 rows
  let perTokenStat := perTokenStat py entry.1 rows seqStats
  let tokenKeep := perTokenStat.map (List.map (fun token => bounds.keep token.1))
  let optionMetrics ← computeRsMetrics py.sqrt entry.1.name perTokenStat entry.1.level seqStats bounds.upper
    (bounds.lower.getD 0) (entry.1.estimator == .k1)
  return {
    combinedMask := meet state.combinedMask tokenKeep
    metrics := state.metrics ++ optionMetrics ++
      [("rollout_rs_" ++ entry.1.name ++ "_masked_fraction", maskedOut rows tokenKeep),
        ("rollout_rs_" ++ entry.1.name ++ "_seq_masked_fraction", seqMaskedFraction rows tokenKeep)] }

/-- The options of a string, each once. -/
def normalizedOptions (rolloutRs : String) : Except Failure (List RsOption) := do
  let optionModes := splitCommas rolloutRs
  if optionModes = [] then throw .missingOption
  let options ← optionModes.mapM (fun opt => show Except Failure RsOption from match RsOption.named opt with
    | some option => .ok option
    | none => .error (.invalidOption opt))
  return options.reverse.dedup.reverse

/-- The response mask without the tokens that an option rejects, and the metrics. -/
def computeRolloutRejectionMask {width : Nat} (batch : List (Vector (K × Bool) width)) (rolloutRs : String)
    (rolloutRsThreshold : ThresholdSpec K) : Except Failure (List (List Bool) × Metrics K) := do
  if rolloutRsThreshold.isNone then throw .missingThreshold
  let rows := batch.map Vector.toList
  let responseMask := rows.map (List.map Prod.snd)
  if rows = [] then return (responseMask, [])
  let options ← normalizedOptions rolloutRs
  let thresholdSpecs ← parseRolloutRsThresholds py options rolloutRsThreshold
  let state ← thresholdSpecs.foldlM (applyOption py rows) ⟨responseMask.map (List.map (fun _ => true)), []⟩
  let finalMask := state.combinedMask
  let seqHasMasked := List.zipWith (fun row keep => (row.zip keep).any (fun entry => entry.1.2 && !entry.2)) rows finalMask
  return (meet responseMask finalMask, state.metrics ++
    [("rollout_rs_masked_fraction", maskedOut rows finalMask),
      ("rollout_rs_seq_masked_fraction", mean (seqHasMasked.map weight))])

end Rejection

/-! ### Importance sampling -/

section Weights
variable {K : Type} [Field K] [LinearOrder K] (py : Functions K)

/-- The metrics of the applied weights. The logarithms are those of the sequences. -/
def computeIsMetrics (rolloutIsWeights rawRolloutIsWeights : List (List (K × Bool))) (logRatioForMetrics : List K)
    (rolloutIs : Level) (rolloutIsThreshold : K) (rolloutIsThresholdLower : Option K) : Except Failure (Metrics K) := do
  if ¬ rolloutIsWeights.any (fun row => row.any Prod.snd) then throw .noValidToken
  let lower ← show Except Failure K from match rolloutIsThresholdLower with
    | some lower => .ok lower
    | none => reciprocal rolloutIsThreshold
  let levelMetrics ← show Except Failure (Metrics K) from match rolloutIs with
    | .sequence => do
      let logMax ← largest logRatioForMetrics
      let logMin ← smallest logRatioForMetrics
      return [
        ("rollout_is_max", py.exp (min logMax safetyBound)),
        ("rollout_is_min", py.exp logMin),
        ("rollout_is_mean", maskedMean rolloutIsWeights.flatten),
        ("rollout_is_ratio_fraction_high", fraction (fun value => py.log rolloutIsThreshold < value) logRatioForMetrics),
        ("rollout_is_ratio_fraction_low", fraction (fun value => value < py.log lower) logRatioForMetrics)]
    | .token => do
      let most ← largest (validValues rolloutIsWeights)
      let least ← smallest (validValues rolloutIsWeights)
      return [
        ("rollout_is_mean", maskedMean rolloutIsWeights.flatten),
        ("rollout_is_ratio_fraction_high", maskedFraction (fun value => rolloutIsThreshold < value) rawRolloutIsWeights),
        ("rollout_is_ratio_fraction_low", maskedFraction (fun value => value < lower) rawRolloutIsWeights),
        ("rollout_is_max", most),
        ("rollout_is_min", least)]
  let weightsForEss := rolloutIsWeights.flatten.map (fun entry => (clamp entry.1 0 rolloutIsThreshold, entry.2))
  let meanForEss := maskedMean weightsForEss
  let normalized := weightsForEss.map (fun entry => (entry.1 / (meanForEss + tiny), entry.2))
  let essSize ← reciprocal (maskedMean (normalized.map (fun entry => (entry.1 ^ 2, entry.2))))
  let seqMeanWeights := rolloutIsWeights.map maskedMean
  let seqMost ← largest seqMeanWeights
  let seqLeast ← smallest seqMeanWeights
  let deviation ← largest (seqMeanWeights.map (fun value => |value - 1|))
  return levelMetrics ++ [
    ("rollout_is_std", clampedStd py.sqrt 0 rolloutIsThreshold rolloutIsWeights),
    ("rollout_is_eff_sample_size", essSize),
    ("rollout_is_seq_mean", mean seqMeanWeights),
    ("rollout_is_seq_std", if 1 < seqMeanWeights.length then std py.sqrt seqMeanWeights else 0),
    ("rollout_is_seq_max", seqMost),
    ("rollout_is_seq_min", seqLeast),
    ("rollout_is_seq_max_deviation", deviation),
    ("rollout_is_seq_fraction_high", fraction (fun value => rolloutIsThreshold < value) seqMeanWeights),
    ("rollout_is_seq_fraction_low", fraction (fun value => value < lower) seqMeanWeights)]

/-- `raw_rollout_is_weights` -/
def rawWeights (rolloutIs : Level) (rows : List (List (K × Bool))) : List (List (K × Bool)) :=
  rows.map (fun row => row.map (fun entry =>
    let logRatio := match rolloutIs with
      | .token => entry.1
      | .sequence => maskedSum row
    (py.exp (logRatioSafe logRatio) * weight entry.2, entry.2)))

/-- Truncated for a single upper bound, zero outside a range. -/
def applyBounds (upper : K) (lower : Option K) (raw : K) : K :=
  match lower with
  | none => min raw upper
  | some lower => if lower ≤ raw ∧ raw ≤ upper then raw else 0

/-- The mean for batch normalisation. With several ranks, `others` are the sum and the number that
`all_reduce` adds to those of this rank. -/
def weightsMean (others : Option (K × K)) (rolloutIs : Level) (weights : List (List (K × Bool))) : K :=
  let entries := match rolloutIs with
    | .token => weights.flatten
    | .sequence => (weights.map maskedMean).zip (seqValidMask weights)
  match others with
  | some (sum, count) =>
    ((entries.map (fun entry => entry.1 * weight entry.2)).sum + sum) / (maskSum (entries.map Prod.snd) + count)
  | none => match rolloutIs with
    | .token => maskedMean entries
    | .sequence => (entries.map (fun entry => entry.1 * weight entry.2)).sum / max (maskSum (entries.map Prod.snd)) tiny

def computeRolloutCorrectionWeights {width : Nat} (others : Option (K × K)) (batch : List (Vector (K × Bool) width))
    (rolloutIs : Level) (rolloutIsThreshold : ThresholdSpec K) (rolloutIsBatchNormalize : Bool) :
    Except Failure (List (List K) × Metrics K) := do
  let (upper, lower) ← parseRolloutIsThreshold py rolloutIsThreshold
  let rows := batch.map Vector.toList
  let raw := rawWeights py rolloutIs rows
  let weights := raw.map (List.map (fun entry => (applyBounds upper lower entry.1, entry.2)))
  let metrics ← computeIsMetrics py weights raw (rows.map maskedSum) rolloutIs upper lower
  let metrics := match lower with
    | none => metrics
    | some lower => metrics ++
      [("rollout_is_oob_ratio", maskedFraction (fun value => decide (value < lower) || decide (upper < value)) raw)]
  let values := weights.map (List.map Prod.fst)
  if rolloutIsBatchNormalize then
    let weightsMean := weightsMean others rolloutIs weights
    if tiny < weightsMean then
      return (values.map (List.map (· / weightsMean)), metrics ++ [("rollout_is_batch_norm_factor", weightsMean)])
    else return (values, metrics ++ [("rollout_is_batch_norm_factor", 1)])
  else return (values, metrics)

end Weights

end LLMFusion.RolloutCorrHelper
