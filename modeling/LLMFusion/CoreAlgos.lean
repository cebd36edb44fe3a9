import LLMFusion.Groupwise

/-! Advantages and the aggregation of the loss. A batch is a matrix of tokens, each with what
the estimators are given of it and its place in `response_mask`. Numbers are exact; `sqrt` and
`rsqrt` are the functions of those names. -/

namespace LLMFusion.CoreAlgos
open TorchFunctional Grouping Groupwise Indexing

/-- A token of a response. -/
structure Token (K : Type) where
  reward : K
  valid : Bool

/-- A token with its value. -/
structure ValuedToken (K : Type) extends Token K where
  value : K

variable {ι K : Type} [Field K] [LinearOrder K] {width : Nat}

/-! ### Advantages of tokens -/

/-- What the loop of `compute_gae_advantage_return` keeps. -/
structure GaeState (K : Type) where
  nextvalues : K
  lastgaelam : K
  advantages : List K

/-- Values and TD-errors on observation tokens are skipped. -/
def gaeStep (gamma lam : K) (token : ValuedToken K) (state : GaeState K) : GaeState K :=
  let delta := token.reward + gamma * state.nextvalues - token.value
  let next := delta + gamma * lam * state.lastgaelam
  let nextvalues := token.value * weight token.valid + (1 - weight token.valid) * state.nextvalues
  let lastgaelam := next * weight token.valid + (1 - weight token.valid) * state.lastgaelam
  ⟨nextvalues, lastgaelam, lastgaelam :: state.advantages⟩

/-- The advantages of one row before whitening. -/
def gaeAdvantages (gamma lam : K) (row : List (ValuedToken K)) : List K :=
  (row.foldr (gaeStep gamma lam) ⟨0, 0, []⟩).advantages

def computeGaeAdvantageReturn (rsqrt : K → K) (batch : List (Vector (ValuedToken K) width)) (gamma lam : K) :
    Except Failure (List (List K) × List (List K)) := do
  if width = 0 then throw .emptyStack
  let rows := batch.map Vector.toList
  let advantages := rows.map (gaeAdvantages gamma lam)
  let returns := List.zipWith (List.zipWith (fun advantage token => advantage + token.value)) advantages rows
  let advantages ← maskedWhiten rsqrt
    (List.zipWith (List.zipWith (fun advantage token => (advantage, token.valid))) advantages rows) true
  return (advantages, returns)

/-- What the loop of `compute_reinforce_plus_plus_outcome_advantage` keeps. -/
structure ReinforceState (K : Type) where
  runningReturn : K
  returns : List K

def reinforceStep (gamma : K) (token : Token K) (state : ReinforceState K) : ReinforceState K :=
  let runningReturn := token.reward + gamma * state.runningReturn
  -- Reset after EOS
  ⟨runningReturn * weight token.valid, runningReturn :: state.returns⟩

def reinforceReturns (gamma : K) (row : List (Token K)) : List K :=
  (row.foldr (reinforceStep gamma) ⟨0, []⟩).returns

def computeReinforcePlusPlusOutcomeAdvantage (rsqrt : K → K) (batch : List (Vector (Token K) width)) (gamma : K) :
    Except Failure (List (List K) × List (List K)) := do
  let rows := batch.map Vector.toList
  let returns := rows.map (reinforceReturns gamma)
  let advantages ← maskedWhiten rsqrt
    (List.zipWith (List.zipWith (fun value token => (value, token.valid))) returns rows) true
  let advantages := List.zipWith (List.zipWith (fun advantage token => advantage * weight token.valid)) advantages rows
  return (advantages, returns)

/-! ### Advantages of groups -/

/-- `token_level_rewards.sum(dim=-1)` -/
def scoresOf (batch : List (Vector (Token K) width)) : List K :=
  batch.map (fun row => (row.toList.map Token.reward).sum)

/-- `scores.unsqueeze(-1) * response_mask` -/
def unsqueezeMask (scores : List K) (batch : List (Vector (Token K) width)) : List (List K) :=
  List.zipWith (fun score row => row.toList.map (fun token => score * weight token.valid)) scores batch

/-- `torch.mean` -/
def mean (scores : List K) : K := scores.sum / scores.length

/-- `torch.std` -/
def std (sqrt : K → K) (scores : List K) : K :=
  sqrt ((scores.map (fun score => (score - mean scores) ^ 2)).sum / (scores.length - 1))

def getKey [DecidableEq ι] {α : Type} (entries : List (ι × α)) (key : ι) : Except Failure α :=
  match entries.lookup key with
  | some value => .ok value
  | none => .error .keyError

/-- A statistic of every group, with a value for a group of one. -/
def groupStatistic {α : Type} (single : α) (statistic : List K → α) (id2score : List (ι × List K)) :
    Except Failure (List (ι × α)) :=
  id2score.mapM (fun group =>
    match group.2 with
    | [] => Except.error .noScore
    | [_] => .ok (group.1, single)
    | scores => .ok (group.1, statistic scores))

def computeGrpoOutcomeAdvantage [DecidableEq ι] (sqrt : K → K) (batch : List (Vector (Token K) width)) (index : List ι)
    (epsilon : K) (normAdvByStdInGrpo : Bool) : Except Failure (List (List K) × List (List K)) := do
  let scores := scoresOf batch
  let id2score := collect (index.zip scores)
  let id2mean ← groupStatistic 0 mean id2score
  let id2std ← groupStatistic 1 (std sqrt) id2score
  let scores ← (index.zip scores).mapM (fun entry => do
    let mean ← getKey id2mean entry.1
    if normAdvByStdInGrpo then
      let std ← getKey id2std entry.1
      return (entry.2 - mean) / (std + epsilon)
    else return entry.2 - mean)
  let scores := unsqueezeMask scores batch
  return (scores, scores)

/-- `values[g]` -/
def gatherAt (values : List K) (g : Int) : Except Failure K :=
  match getItem values g with
  | some value => .ok value
  | none => .error .indexOutOfRange

def computeGrpoVectorizedOutcomeAdvantage (sqrt : K → K) (batch : List (Vector (Token K) width)) (index : Index)
    (epsilon : K) (normAdvByStdInGrpo : Bool) : Except Failure (List (List K) × List (List K)) := do
  let scores := scoresOf batch
  let g := asTorchIndex index
  let statistics ← groupMeanStd sqrt scores g 0
  let scalars ← (g.zip scores).mapM (fun entry => do
    let mean ← gatherAt statistics.mean entry.1
    if normAdvByStdInGrpo then
      let std ← gatherAt statistics.std entry.1
      return (entry.2 - mean) / (std + epsilon)
    else return entry.2 - mean)
  let advantages := unsqueezeMask scalars batch
  return (advantages, advantages)

def computeRlooOutcomeAdvantage [DecidableEq ι] (batch : List (Vector (Token K) width)) (index : List ι) :
    Except Failure (List (List K) × List (List K)) := do
  let scores := scoresOf batch
  let id2score := collect (index.zip scores)
  let id2mean ← groupStatistic 0 mean id2score
  let scores ← (index.zip scores).mapM (fun entry => do
    let group ← getKey id2score entry.1
    let responseNum := group.length
    if responseNum > 1 then
      let mean ← getKey id2mean entry.1
      return entry.2 * responseNum / (responseNum - 1) - mean * responseNum / (responseNum - 1)
    else return entry.2)
  let scores := unsqueezeMask scores batch
  return (scores, scores)

/-- `torch.bincount(inv, weights=values)` -/
def bincount (inv : List Nat) (values : List K) : List K :=
  match inv.max? with
  | some largest => indexAdd (largest + 1) inv values
  | none => []

def computeRlooVectorizedOutcomeAdvantage [LinearOrder ι] (batch : List (Vector (Token K) width)) (index : List ι) :
    List (List K) × List (List K) :=
  let scores := scoresOf batch
  let inv := uniqueInverse index
  let c := inv.map (fun g => (bincount inv (inv.map (fun _ => (1 : K)))).getD g 0)
  let sums := inv.map (fun g => (bincount inv scores).getD g 0)
  let adv := List.zipWith (fun cs s =>
    (cs.1 * cs.2 - s) / max (cs.1 - 1) 1 * (if cs.1 > 1 then 1 else 0)) (c.zip scores) sums
  let adv := unsqueezeMask adv batch
  (adv, adv)

/-! ### Aggregating the loss -/

/-- `torch.sum(loss_mat * loss_mask, dim=-1)` for one row. -/
def tokenSum (row : List (K × Bool)) : K := (row.map (fun entry => entry.1 * weight entry.2)).sum

/-- A normaliser over the global batch, which one rank alone can count. -/
def orCount (given : Option Nat) (dpSize : Nat) (missing : Failure) (count : K) : Except Failure K :=
  match given with
  | some given => .ok given
  | none => if dpSize > 1 then .error missing else .ok count

/-- The losses of a micro-batch, each with its place in `loss_mask`. -/
def aggLoss (losses : List (Vector (K × Bool) width)) (lossAggMode : String) (dpSize : Nat)
    (batchNumTokens globalBatchSize : Option Nat) (lossScaleFactor : Option K) : Except Failure K :=
  let rows := losses.map Vector.toList
  if lossAggMode = "token-mean" then do
    let batchNumTokens ← orCount batchNumTokens dpSize .missingNumTokens (maskSum (rows.flatten.map Prod.snd))
    return maskedSum rows.flatten / batchNumTokens * dpSize
  else if lossAggMode = "seq-mean-token-sum" ∨ lossAggMode = "seq-mean-token-sum-norm" then do
    -- exclude fully masked sequences
    let seqLosses := rows.map (fun row => (tokenSum row, decide (maskSum (row.map Prod.snd) > (0 : K))))
    let globalBatchSize ← orCount globalBatchSize dpSize .missingBatchSize (maskSum (seqLosses.map Prod.snd))
    let loss := maskedSum seqLosses / globalBatchSize * dpSize
    if lossAggMode = "seq-mean-token-sum-norm" then
      let horizon := (width : K)
      return loss / lossScaleFactor.getD horizon
    else return loss
  else if lossAggMode = "seq-mean-token-mean" then do
    let seqLosses := rows.map (fun row =>
      (tokenSum row / (maskSum (row.map Prod.snd) + tiny), decide (maskSum (row.map Prod.snd) > (0 : K))))
    let globalBatchSize ← orCount globalBatchSize dpSize .missingBatchSize (maskSum (seqLosses.map Prod.snd))
    return maskedSum seqLosses / globalBatchSize * dpSize
  else .error (.invalidMode lossAggMode)

end LLMFusion.CoreAlgos
