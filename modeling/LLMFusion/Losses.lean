import LLMFusion.PolicyLoss
import LLMFusion.Lib.PartialSums

/-! The losses of the actor and the critic, and their accumulation over micro-batches. Every rank
back-propagates the loss of each of its micro-batches, and the gradients are averaged over the
ranks: what is trained on is the average over the ranks of the sums over their micro-batches. -/

namespace LLMFusion.Losses
open CoreAlgos

/-- A token with the outputs of the models. -/
structure PpoToken (K : Type) extends PolicyToken K where
  entropy : K
  refLogProb : K

/-- The normalisers that a micro-batch carries. -/
structure BatchData where
  dpSize : Nat
  batchNumTokens : Option Nat
  globalBatchSize : Option Nat
  deriving DecidableEq, Repr

/-- Which optional tensors a batch has. -/
structure Fields where
  entropy : Bool
  rolloutIsWeights : Bool
  deriving DecidableEq, Repr

variable {K : Type} [Field K] [LinearOrder K] {width : Nat}

/-- The items that `ppo_loss` writes. -/
def batchInfo (config : ActorConfig K) (data : BatchData) : GlobalBatchInfo K :=
  ⟨some data.dpSize, some data.batchNumTokens, some data.globalBatchSize, some config.lossScaleFactor⟩

/-- The policy loss with the entropy and the KL loss, by the normalisers in `info`. -/
def combinedLoss (f : Elementary K) (choices : BatchChoices K width) (config : ActorConfig K) (fields : Fields)
    (batch : List (Vector (PpoToken K) width)) (info : GlobalBatchInfo K) : Except LossFailure (Option K) := do
  let pgLoss ← computePolicyLoss f choices config fields.rolloutIsWeights (batch.map (Vector.map PpoToken.toPolicyToken)) info
  let policyLoss ←
    if fields.entropy then do
      let entropyLoss ← aggregate (tokenwise PpoToken.entropy (fun token => token.valid) batch) config.lossAggMode info
      pure (Option.map₂ (fun loss entropy => loss - config.entropyCoeff * entropy) pgLoss entropyLoss)
    else pure pgLoss
  if config.useKlLoss then do
    let kld := fun token : PpoToken K => klPenalty f token.logProb token.refLogProb config.klLossType config.straightThrough
    let klLoss ← aggregate (tokenwise kld (fun token => token.valid) batch) config.lossAggMode info
    pure (Option.map₂ (fun loss kl => loss + kl * config.klLossCoef) policyLoss klLoss)
  else pure policyLoss

/-- The loss, and what the call leaves in `config.global_batch_info`. -/
def ppoLoss (f : Elementary K) (choices : BatchChoices K width) (config : ActorConfig K) (fields : Fields)
    (info : GlobalBatchInfo K) (data : BatchData) (batch : List (Vector (PpoToken K) width)) :
    Except LossFailure (Option K) × GlobalBatchInfo K :=
  let info := info.update (batchInfo config data)
  (combinedLoss f choices config fields batch info, info)

structure CriticConfig (K : Type) where
  cliprangeValue : K
  lossAggMode : String

/-- The normalisers of the data are not read. -/
def valueLoss (config : CriticConfig K) (state : Unit) (_data : BatchData) (batch : List (Vector (ValueToken K) width)) :
    Except LossFailure (Option K) × Unit :=
  (computeValueLoss config.cliprangeValue batch config.lossAggMode, state)

/-! ### Accumulating over micro-batches -/

section Engine
variable {α σ : Type} (loss : σ → BatchData → List α → Except LossFailure (Option K) × σ)

/-- The loop over the micro-batches of a rank. The state is the config. -/
def backwardAll (data : BatchData) : Option K → σ → List (List α) → Except LossFailure (Option K)
  | gradient, _, [] => .ok gradient
  | gradient, state, microBatch :: rest =>
    match loss state data microBatch with
    | (.ok value, state) => backwardAll data (Option.map₂ (· + ·) gradient value) state rest
    | (.error failure, _) => .error failure

/-- Every rank has the number of valid tokens of all ranks and a config of its own. -/
def forwardBackwardBatch (numTokens : α → Nat) (state : σ) (globalBatchSize : Option Nat) (ranks : List (List (List α))) :
    Except LossFailure (Option K) := do
  let batchNumTokens := (ranks.flatten.flatten.map numTokens).sum
  let data : BatchData := ⟨ranks.length, some batchNumTokens, globalBatchSize⟩
  let gradients ← ranks.mapM (backwardAll loss data (some 0) state)
  return (PartialSums.total gradients).map (· / ranks.length)

end Engine

/-- A distribution of the rows of a mini-batch over ranks, and over the micro-batches of each. -/
structure Division (rows : Nat) where
  ranks : List (List (List (Fin rows)))
  nonempty : ∀ microBatch ∈ ranks.flatten, microBatch ≠ []
  covers : ranks.flatten.flatten.Perm (List.finRange rows)

namespace Division

theorem undivided_nonempty (count : Nat) :
    ∀ microBatch ∈ [[List.finRange (count + 1)]].flatten, microBatch ≠ [] := by
  intro microBatch member
  rw [List.flatten_singleton, List.mem_singleton] at member
  apply List.ne_nil_of_length_pos
  rw [member, List.length_finRange]
  exact count.succ_pos

theorem undivided_covers (count : Nat) :
    [[List.finRange (count + 1)]].flatten.flatten.Perm (List.finRange (count + 1)) := by
  rw [List.flatten_singleton, List.flatten_singleton]

/-- All rows in one micro-batch on one rank. -/
def undivided (count : Nat) : Division (count + 1) :=
  ⟨[[List.finRange (count + 1)]], undivided_nonempty count, undivided_covers count⟩

/-- The rows themselves, on their ranks. -/
def batches {α : Type} {rows : Nat} (division : Division rows) (row : Fin rows → α) : List (List (List α)) :=
  division.ranks.map (List.map (List.map row))

end Division

/-- The loss that a mini-batch is trained on. -/
def trainingLoss {α σ : Type} {rows : Nat} (loss : σ → BatchData → List α → Except LossFailure (Option K) × σ)
    (numTokens : α → Nat) (state : σ) (globalBatchSize : Option Nat) (row : Fin rows → α) (division : Division rows) :
    Except LossFailure (Option K) :=
  forwardBackwardBatch loss numTokens state globalBatchSize (division.batches row)

end LLMFusion.Losses
