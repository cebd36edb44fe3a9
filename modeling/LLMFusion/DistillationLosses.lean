import LLMFusion.Losses

/-! The distillation loss, alone or with the policy loss. Both config objects keep the normalisers
of the global batch: `ppo_loss` writes those of the actor, and the distillation loss, which is
computed first, reads them. -/

namespace LLMFusion.Distillation
open CoreAlgos Losses

/-- The names of the registered losses. -/
inductive LossMode where
  | kl | k1 | abs | mse | k2 | lowVarKl | k3 | forwardKlTopk
  deriving DecidableEq, Repr

structure DistillationLossConfig (K : Type) extends ClipConfig K where
  lossMode : LossMode
  useTaskRewards : Bool
  distillationLossCoef : K
  lossMaxClamp : Option K
  usePolicyGradient : Bool
  policyLossMode : PolicyLossMode
  -- there is no such field
  noClipRatioC : clipRatioC = none
  vanillaOnly : policyLossMode = .vanilla
  estimates : usePolicyGradient = false → lossMode ≠ .k1

/-- A token with the log probability of the teacher, and its loss over the top tokens. -/
structure DistillationToken (K : Type) extends PpoToken K where
  teacherLogProb : K
  topkLoss : K

/-- The data of a call and the outputs of the model. -/
structure MicroBatch (K : Type) where
  width : Nat
  fields : Fields
  data : BatchData
  rows : List (Vector (DistillationToken K) width)

/-- No token is valid. -/
def MicroBatch.masked {K : Type} (batch : MicroBatch K) : Bool :=
  batch.rows.all (fun row => row.toList.all (fun token => !token.valid))

/-- `global_batch_info` of the actor config and of the distillation loss config. -/
structure State (K : Type) where
  actor : GlobalBatchInfo K
  distillation : GlobalBatchInfo K

variable {K : Type} [Field K] [LinearOrder K] (f : Elementary K)

def distillationLossFn : LossMode → DistillationToken K → K
  | .kl, token | .k1, token => klPenalty f token.logProb token.teacherLogProb .k1 false
  | .abs, token => klPenalty f token.logProb token.teacherLogProb .abs false
  | .mse, token | .k2, token => klPenalty f token.logProb token.teacherLogProb .k2 false
  | .lowVarKl, token | .k3, token => klPenalty f token.logProb token.teacherLogProb .k3 false
  -- the losses were computed in the logits processor
  | .forwardKlTopk, token => max token.topkLoss 0

variable (lossConfig : DistillationLossConfig K)

def clampedLoss (token : DistillationToken K) : K :=
  let loss := distillationLossFn f lossConfig.lossMode token
  lossConfig.lossMaxClamp.elim loss (fun bound => clamp loss (-bound) bound)

/-- The negative distillation loss is the advantage. -/
def rewarded (token : DistillationToken K) : PolicyToken K :=
  { token.toPolicyToken with advantage := -clampedLoss f lossConfig token }

/-- The aggregated distillation loss, by the normalisers in `info`. -/
def aggregatedLoss (lossAggMode : String) (info : GlobalBatchInfo K) (batch : MicroBatch K) : Except LossFailure (Option K) :=
  if lossConfig.usePolicyGradient then
    computePolicyLossVanilla f lossConfig.toClipConfig batch.fields.rolloutIsWeights
      (batch.rows.map (Vector.map (rewarded f lossConfig))) lossAggMode info
  else aggregate (tokenwise (clampedLoss f lossConfig) (fun token => token.valid) batch.rows) lossAggMode info

variable (config : ActorConfig K)

/-- The loss, and what the call leaves in the normalisers of the distillation loss config. -/
def distillationLoss (state : State K) (batch : MicroBatch K) : Except LossFailure (Option K) × GlobalBatchInfo K :=
  -- the range of the losses of no token
  if batch.masked then (.error .noValidToken, state.distillation)
  else if lossConfig.usePolicyGradient then
    let info := state.distillation.update state.actor
    (aggregatedLoss f lossConfig config.lossAggMode info batch, info)
  else (aggregatedLoss f lossConfig config.lossAggMode state.actor batch, state.distillation)

variable (choices : (width : Nat) → BatchChoices K width)

/-- The policy loss is left out without task rewards. -/
def weighLosses (policyLoss distillLoss : Option K) : Option K :=
  let policyLoss := if lossConfig.useTaskRewards then policyLoss else some 0
  let distillationLossCoef := if lossConfig.useTaskRewards then lossConfig.distillationLossCoef else 1
  Option.map₂ (fun policyLoss distillLoss => policyLoss + distillLoss * distillationLossCoef) policyLoss distillLoss

def distillationPpoLoss (state : State K) (batch : MicroBatch K) : Except LossFailure (Option K) × State K :=
  match distillationLoss f lossConfig config state batch with
  | (.error failure, distillation) => (.error failure, ⟨state.actor, distillation⟩)
  | (.ok distillLoss, distillation) =>
    match ppoLoss f (choices batch.width) config batch.fields state.actor batch.data
        (batch.rows.map (Vector.map DistillationToken.toPpoToken)) with
    | (.error failure, actor) => (.error failure, ⟨actor, distillation⟩)
    | (.ok policyLoss, actor) => (.ok (weighLosses lossConfig policyLoss distillLoss), ⟨actor, distillation⟩)

/-- The losses of the calls with one actor config and one distillation config. -/
def losses (state : State K) : List (MicroBatch K) → List (Except LossFailure (Option K))
  | [] => []
  | batch :: rest =>
    let (loss, state) := distillationPpoLoss f lossConfig config choices state batch
    loss :: losses state rest

end LLMFusion.Distillation
