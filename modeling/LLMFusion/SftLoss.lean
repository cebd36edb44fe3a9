import LLMFusion.Losses
import LLMFusion.Lib.Shards

/-! Supervised fine-tuning on packed sequences. The sequences of a micro-batch lie behind each other; labels and loss mask
are rolled to the left by one token over all of them. -/

namespace LLMFusion.SftLoss
open CoreAlgos Losses TorchFunctional

/-- A sequence with its loss mask, which leaves the first token out. -/
structure Sample (K : Type) where
  inputIds : List Nat
  lossMask : List Bool
  aligned : lossMask.length = inputIds.length
  unmasked : ∀ first, lossMask.head? = some first → first = false
  temperature : K

namespace Sample
variable {K : Type}

def positionIds (sample : Sample K) : List Nat := List.range sample.inputIds.length

def numTokens (sample : Sample K) : Nat := sample.lossMask.count true

end Sample

/-- The model of a group of ranks for sequence parallelism: of the padded tokens and positions of the group it gives every
rank the logits of its part. -/
abbrev Module (K : Type) := (spSize : Nat) → (inputIds positionIds : List Nat) → (spRank : Nat) → List (List K)

/-- What `prepare_model_inputs` returns on a rank; the tokens of the group are cut by the model here. -/
structure ModelInputs (K : Type) where
  inputIds : List Nat
  positionIds : List Nat
  inputIdsRmpadRolled : List Nat
  temperatureRmpad : List K
  padSize : Nat

variable {K : Type} [Field K] [LinearOrder K]

def ulyssesPadAndSliceInputs {α : Type} (spSize spRank : Nat) (padValue : α) (items : List α) : List α :=
  Shards.shard spSize spRank (items ++ List.replicate (Shards.missing spSize items.length) padValue)

def prepareModelInputs (spSize spRank : Nat) (microBatch : List (Sample K)) : ModelInputs K :=
  let inputIdsRmpad := microBatch.flatMap Sample.inputIds
  let positionIdsRmpad := microBatch.flatMap Sample.positionIds
  let temperatureRmpad := microBatch.flatMap (fun sample => List.replicate sample.inputIds.length sample.temperature)
  let inputIdsRmpadRolled := inputIdsRmpad.rotate 1
  if 1 < spSize then
    let padSize := Shards.missing spSize inputIdsRmpad.length
    { inputIds := inputIdsRmpad ++ List.replicate padSize 0
      positionIds := positionIdsRmpad ++ List.range padSize
      inputIdsRmpadRolled := ulyssesPadAndSliceInputs spSize spRank 0 inputIdsRmpadRolled
      temperatureRmpad := ulyssesPadAndSliceInputs spSize spRank 1 temperatureRmpad
      padSize := padSize }
  else
    { inputIds := inputIdsRmpad
      positionIds := positionIdsRmpad
      inputIdsRmpadRolled := inputIdsRmpadRolled
      temperatureRmpad := temperatureRmpad
      padSize := 0 }

/-- `logits.div_(temperature.clamp(min=1e-8))` -/
def divTemperature (logits : List K) (temperature : K) : List K := logits.map (· / max temperature tiny)

section Loss
variable (logprob : List K → Nat → K) (module : Module K)

/-- The log-probs of a rank; `logprob` is `logprobs_from_logits` at one token. -/
def rankLogProbs (spSize : Nat) (microBatch : List (Sample K)) (spRank : Nat) : List K :=
  let inputs : ModelInputs K := prepareModelInputs spSize spRank microBatch
  let logitsRmpad := module spSize inputs.inputIds inputs.positionIds spRank
  let logitsRmpad := List.zipWith divTemperature logitsRmpad inputs.temperatureRmpad
  List.zipWith logprob logitsRmpad inputs.inputIdsRmpadRolled

/-- The values of `log_probs`, gathered from the group. -/
def logProbs (spSize : Nat) (microBatch : List (Sample K)) : List K :=
  if 1 < spSize then
    let gathered := (List.range spSize).flatMap (rankLogProbs logprob module spSize microBatch)
    gathered.take (gathered.length - (prepareModelInputs spSize 0 microBatch).padSize)
  else rankLogProbs logprob module spSize microBatch 0

/-- `-masked_sum(log_prob_flatten, loss_mask_flatten) / batch_num_tokens * dp_size`; a quotient by zero is no number. -/
def sftLoss (spSize : Nat) (state : Unit) (data : BatchData) (microBatch : List (Sample K)) :
    Except LossFailure (Option K) × Unit :=
  let logProbFlatten := logProbs logprob module spSize microBatch
  let lossMaskFlatten := (microBatch.flatMap Sample.lossMask).rotate 1
  let total := maskedSum (logProbFlatten.zip lossMaskFlatten)
  match data.batchNumTokens with
  | none => (.error (.aggregation .missingNumTokens), state)
  | some batchNumTokens =>
    (.ok (if batchNumTokens = 0 then none else some (-total / batchNumTokens * data.dpSize)), state)

end Loss

end LLMFusion.SftLoss
