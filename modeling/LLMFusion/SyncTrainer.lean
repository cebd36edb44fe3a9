import LLMFusion.PaddingUtils
import LLMFusion.DistillationLosses

/-! What the synchronous trainer computes on a batch of the transfer queue: the advantages of its
rows and the losses of its micro-batches. A row is padded to the width of the batch, with zero rewards
and an unset mask; what the models say of its tokens is arbitrary. -/

namespace LLMFusion.SyncTrainer
open TorchFunctional CoreAlgos Losses Distillation
open PaddingUtils hiding Failure

inductive Estimator where
  | gae
  | grpo
  | rloo
  deriving DecidableEq, Repr

structure Trainer (K : Type) where
  f : Elementary K
  sqrt : K → K
  rsqrt : K → K
  width : Nat
  gamma : K
  lam : K
  normAdvByStdInGrpo : Bool
  dpSize : Nat
  globalBatchSize : Option Nat
  choices : (width : Nat) → BatchChoices K width
  config : ActorConfig K
  fields : Fields
  /-- The loss of the actor is the distillation loss if there is a teacher. -/
  distillation : Option (DistillationLossConfig K)
  critic : Option (CriticConfig K)

/-- What the models say of the tokens of a row. -/
structure Outputs (K : Type) (width : Nat) where
  values : Key → Vector K width
  actor : Key → Vector (DistillationToken K) width
  critic : Key → Vector (ValueToken K) width

variable {K : Type} [Field K] [LinearOrder K]

/-! ### Rows -/

/-- A place of the padded `response_mask`. -/
def maskAt (sample : Option (Sample K)) (place : Nat) : Bool :=
  (sample.bind (fun sample => sample.responseMask[place]?)).getD false

/-- A place of the padded `rm_scores`. -/
def rewardAt (sample : Option (Sample K)) (place : Nat) : K :=
  ((sample.bind Sample.rmScores).bind (fun scores => scores[place]?)).getD 0

variable {width : Nat}

def valuedRow (values : Vector K width) (sample : Option (Sample K)) : Vector (ValuedToken K) width :=
  values.mapIdx (fun place value => ⟨⟨rewardAt sample place, maskAt sample place⟩, value⟩)

def actorRow (tokens : Vector (DistillationToken K) width) (sample : Option (Sample K)) : Vector (DistillationToken K) width :=
  tokens.mapIdx (fun place token => { token with valid := maskAt sample place })

def criticRow (tokens : Vector (ValueToken K) width) (sample : Option (Sample K)) : Vector (ValueToken K) width :=
  tokens.mapIdx (fun place token => { token with valid := maskAt sample place })

/-! ### Advantages -/

/-- A row with its `uid`. -/
structure Trajectory (K : Type) (width : Nat) where
  uid : Option String
  tokens : Vector (ValuedToken K) width

def Trajectory.rewards (row : Trajectory K width) : Vector (Token K) width := row.tokens.map ValuedToken.toToken

/-- `1e-6` -/
def epsilon : K := 1 / (10 : Nat) ^ 6

variable (trainer : Trainer K)

def computeAdvantage (estimator : Estimator) (data : List (Trajectory K width)) : Except Failure (List (List K) × List (List K)) :=
  match estimator with
  | .gae => computeGaeAdvantageReturn trainer.rsqrt (data.map Trajectory.tokens) trainer.gamma trainer.lam
  | .grpo =>
    computeGrpoOutcomeAdvantage trainer.sqrt (data.map Trajectory.rewards) (data.map Trajectory.uid) epsilon
      trainer.normAdvByStdInGrpo
  | .rloo => computeRlooOutcomeAdvantage (data.map Trajectory.rewards) (data.map Trajectory.uid)

/-- The index and the row of the final output of a session. -/
abbrev FinalSessions := List ((String × Nat) × (Nat × Nat))

/-- One pass of the loop over the keys. -/
def recordOutput (finalSessions : FinalSessions) (entry : Key × Nat) : FinalSessions :=
  match finalSessions with
  | [] => [((entry.1.uid, entry.1.sessionId), (entry.1.index, entry.2))]
  | session :: rest =>
    if session.1 = (entry.1.uid, entry.1.sessionId) then
      if session.2.1 < entry.1.index then (session.1, (entry.1.index, entry.2)) :: rest else session :: rest
    else session :: recordOutput rest entry

def finalSessions (keys : List Key) : FinalSessions := keys.zipIdx.foldl recordOutput []

/-- `argmax` of a mask: the first valid token, or the first token. -/
def firstNnz (mask : List Bool) : Nat := if true ∈ mask then mask.idxOf true else 0

def finalScore (advantages : List K) (mask : List Bool) : Except Failure K :=
  match advantages[firstNnz mask]? with
  | some score => .ok score
  | none => .error .indexOutOfRange

/-- The score of the session of a key. -/
def sessionScore (sessions : FinalSessions) (finalScores : List K) (key : Key) : Except Failure K :=
  match finalScores[(sessions.map Prod.fst).idxOf (key.uid, key.sessionId)]? with
  | some score => .ok score
  | none => .error .indexOutOfRange

def computeAdvantageForMultiTrajectories (estimator : Estimator) (keys : List Key) (data : List (Trajectory K width)) :
    Except Failure (List (List K) × List (List K)) :=
  match estimator with
  | .grpo => do
    let sessions := finalSessions keys
    let finalData := sessions.filterMap (fun session => data[session.2.2]?)
    let advantages ← computeAdvantage trainer .grpo finalData
    let finalScores ← (advantages.1.zip finalData).mapM (fun entry =>
      finalScore entry.1 (entry.2.tokens.toList.map (fun token => token.valid)))
    let scores ← keys.mapM (sessionScore sessions finalScores)
    let scores := List.zipWith (fun score row => row.tokens.toList.map (fun token => score * weight token.valid)) scores data
    return (scores, scores)
  | estimator => computeAdvantage trainer estimator data

/-- The advantages and returns of the rows of a batch. -/
def advantages (tq : TransferQueue K) (partitionId : String) (outputs : Outputs K trainer.width) (estimator : Estimator)
    (keys : List Key) : Except Failure (List (List K) × List (List K)) :=
  computeAdvantageForMultiTrajectories trainer estimator keys (keys.map (fun key =>
    ⟨(tq partitionId key).map Sample.uid, valuedRow (outputs.values key) (tq partitionId key)⟩))

/-! ### Losses -/

/-- `loss_mask.sum()` -/
def numTokens (tq : TransferQueue K) (partitionId : String) (keys : List Key) : Nat :=
  (keys.map (fun key => (tq partitionId key).elim 0 (fun sample => sample.lossMask.count true))).sum

/-- What a micro-batch carries of its mini-batch. -/
def batchData (tq : TransferQueue K) (partitionId : String) (miniBatch : List Key) : BatchData :=
  ⟨trainer.dpSize, some (numTokens tq partitionId miniBatch), trainer.globalBatchSize⟩

/-- The loss that the actor is trained on. -/
def actorLossOf (state : State K) (data : BatchData) (rows : List (Vector (DistillationToken K) trainer.width)) :
    Except LossFailure (Option K) :=
  match trainer.distillation with
  | none =>
    (ppoLoss trainer.f (trainer.choices trainer.width) trainer.config trainer.fields state.actor data
      (rows.map (Vector.map DistillationToken.toPpoToken))).1
  | some lossConfig =>
    (distillationPpoLoss trainer.f lossConfig trainer.config trainer.choices state ⟨trainer.width, trainer.fields, data, rows⟩).1

def actorLoss (tq : TransferQueue K) (partitionId : String) (outputs : Outputs K trainer.width) (state : State K)
    (miniBatch microBatch : List Key) : Except LossFailure (Option K) :=
  actorLossOf trainer state (batchData trainer tq partitionId miniBatch)
    (microBatch.map (fun key => actorRow (outputs.actor key) (tq partitionId key)))

def criticLoss (config : CriticConfig K) (tq : TransferQueue K) (partitionId : String) (outputs : Outputs K width)
    (data : BatchData) (microBatch : List Key) : Except LossFailure (Option K) :=
  (valueLoss config () data (microBatch.map (fun key => criticRow (outputs.critic key) (tq partitionId key)))).1

end LLMFusion.SyncTrainer
