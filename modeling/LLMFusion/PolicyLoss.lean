import LLMFusion.CoreAlgos

/-! Policy losses and the value loss. The normalisers of the global batch are a dictionary on the
config, whose items become the keyword arguments of `agg_loss`. A loss is `none` where a division
by zero leaves no number. -/

namespace LLMFusion.CoreAlgos
open TorchFunctional

inductive LossFailure where
  | aggregation (failure : Failure)
  | clipRatioC
  | noValidToken
  deriving DecidableEq, Repr

/-- The functions that are not rational. -/
structure Elementary (K : Type) where
  exp : K → K
  log : K → K
  sigmoid : K → K

/-- `config.global_batch_info`, where a key may be missing. -/
structure GlobalBatchInfo (K : Type) where
  dpSize : Option Nat
  batchNumTokens : Option (Option Nat)
  globalBatchSize : Option (Option Nat)
  lossScaleFactor : Option (Option K)
  deriving DecidableEq, Repr

namespace GlobalBatchInfo
variable {K : Type}

def empty : GlobalBatchInfo K := ⟨none, none, none, none⟩

/-- The items of one dictionary written over another. -/
def update (info items : GlobalBatchInfo K) : GlobalBatchInfo K where
  dpSize := items.dpSize.or info.dpSize
  batchNumTokens := items.batchNumTokens.or info.batchNumTokens
  globalBatchSize := items.globalBatchSize.or info.globalBatchSize
  lossScaleFactor := items.lossScaleFactor.or info.lossScaleFactor

end GlobalBatchInfo

/-- What a policy loss reads of a token. -/
structure PolicyToken (K : Type) where
  oldLogProb : K
  logProb : K
  advantage : K
  rolloutIsWeight : K
  valid : Bool

/-- The fields about clipping; `clip_ratio_c` is not in every config. -/
structure ClipConfig (K : Type) where
  clipRatio : K
  clipRatioLow : Option K
  clipRatioHigh : Option K
  clipRatioC : Option K

/-- The names in `POLICY_LOSS_REGISTRY`. -/
inductive PolicyLossMode where
  | vanilla | dppoTv | dppoKl | gspo | sapo | gpg | clipCov | klCov | geoMean | cispo | bypassMode
  deriving DecidableEq, Repr

inductive LossType where
  | ppoClip
  | reinforce
  deriving DecidableEq, Repr

/-- The estimators `kl` or `k1`, `abs`, `mse` or `k2`, and `low_var_kl` or `k3`. -/
inductive KlEstimator where
  | k1 | abs | k2 | k3
  deriving DecidableEq, Repr

/-- What `__post_init__` accepts. -/
def validLossAggModes : List String := ["token-mean", "seq-mean-token-sum", "seq-mean-token-mean", "seq-mean-token-sum-norm"]

structure ActorConfig (K : Type) extends ClipConfig K where
  lossMode : PolicyLossMode
  lossType : LossType
  ppoKlCoef : Option K
  tauPos : K
  tauNeg : K
  entropyCoeff : K
  useKlLoss : Bool
  klLossCoef : K
  klLossType : KlEstimator
  -- the type ends with a plus
  straightThrough : Bool
  lossAggMode : String
  lossScaleFactor : Option K
  validMode : lossAggMode ∈ validLossAggModes

section Losses
variable {K : Type} [Field K] [LinearOrder K] {width : Nat}

def low (config : ClipConfig K) : K := config.clipRatioLow.getD config.clipRatio

def high (config : ClipConfig K) : K := config.clipRatioHigh.getD config.clipRatio

/-- `torch.clamp`, with the minimum first. -/
def clamp (x least most : K) : K := min (max x least) most

/-- What `agg_loss` divides a sum by. -/
def divisor (losses : List (Vector (K × Bool) width)) (lossAggMode : String) (batchNumTokens globalBatchSize : Option Nat)
    (lossScaleFactor : Option K) : K :=
  let rows := losses.map Vector.toList
  let numTokens := batchNumTokens.elim (maskSum (rows.flatten.map Prod.snd)) (fun count => (count : K))
  let batchSize := globalBatchSize.elim
    (maskSum (rows.map (fun row => decide (maskSum (row.map Prod.snd) > (0 : K))))) (fun count => (count : K))
  if lossAggMode = "token-mean" then numTokens
  else if lossAggMode = "seq-mean-token-sum-norm" then batchSize * lossScaleFactor.getD (width : K)
  else batchSize

/-- `agg_loss(loss_mat, loss_mask, loss_agg_mode, **config.global_batch_info)` -/
def aggregate (losses : List (Vector (K × Bool) width)) (lossAggMode : String) (info : GlobalBatchInfo K) :
    Except LossFailure (Option K) :=
  let dpSize := info.dpSize.getD 1
  let batchNumTokens := info.batchNumTokens.join
  let globalBatchSize := info.globalBatchSize.join
  let lossScaleFactor := info.lossScaleFactor.join
  match aggLoss losses lossAggMode dpSize batchNumTokens globalBatchSize lossScaleFactor with
  | .ok loss => .ok (if divisor losses lossAggMode batchNumTokens globalBatchSize lossScaleFactor = 0 then none else some loss)
  | .error failure => .error (.aggregation failure)

/-! ### Losses of tokens -/

/-- Losses with the mask, by a term of each token. -/
def tokenwise {α : Type} (term : α → K) (valid : α → Bool) (batch : List (Vector α width)) : List (Vector (K × Bool) width) :=
  batch.map (Vector.map (fun token => (term token, valid token)))

/-- Apply rollout correction weights if provided. -/
def applyWeight (weighted : Bool) (token : PolicyToken K) (loss : K) : K :=
  if weighted then loss * token.rolloutIsWeight else loss

variable (f : Elementary K) (config : ClipConfig K)

/-- Clamped for stability. -/
def clampedKl (token : PolicyToken K) : K := clamp (token.logProb - token.oldLogProb) (-(20 : Nat)) (20 : Nat)

def ratio (token : PolicyToken K) : K := f.exp (clampedKl token)

def vanillaTerm (clipRatioC : K) (token : PolicyToken K) : K :=
  let pgLosses1 := -token.advantage * ratio f token
  let pgLosses2 := -token.advantage * clamp (ratio f token) (1 - low config) (1 + high config)
  let clipPgLosses1 := max pgLosses1 pgLosses2
  let pgLosses3 := -token.advantage * clipRatioC
  let clipPgLosses2 := min pgLosses3 clipPgLosses1
  if token.advantage < 0 then clipPgLosses2 else clipPgLosses1

def computePolicyLossVanilla (weighted : Bool) (batch : List (Vector (PolicyToken K) width)) (lossAggMode : String)
    (info : GlobalBatchInfo K) : Except LossFailure (Option K) :=
  let clipRatioC := config.clipRatioC.getD (3 : Nat)
  if 1 < clipRatioC then
    aggregate (tokenwise (fun token => applyWeight weighted token (vanillaTerm f config clipRatioC token)) PolicyToken.valid batch)
      lossAggMode info
  else .error .clipRatioC

def truncatedRatio (token : PolicyToken K) : K := min (ratio f token) (config.clipRatioC.getD (20 : Nat))

/-- Both divergences mask the tokens that have moved too far. -/
def dppoTerm (validPositive validNegative : PolicyToken K → Bool) (token : PolicyToken K) : K :=
  -token.advantage * truncatedRatio f config token * token.logProb *
    weight (if token.advantage > 0 then validPositive token else validNegative token)

def dppoTvTerm : PolicyToken K → K :=
  dppoTerm f config
    (fun token => f.exp token.logProb - f.exp token.oldLogProb ≤ high config)
    (fun token => -low config ≤ f.exp token.logProb - f.exp token.oldLogProb)

def binaryKl (token : PolicyToken K) : K :=
  let prob := f.exp token.logProb
  let oldProb := f.exp token.oldLogProb
  oldProb * (token.oldLogProb - token.logProb) + (1 - oldProb) * f.log ((1 - oldProb + tiny) / (1 - prob + tiny))

def dppoKlTerm : PolicyToken K → K :=
  dppoTerm f config
    (fun token => binaryKl f token ≤ high config ∨ f.exp token.logProb ≤ f.exp token.oldLogProb)
    (fun token => binaryKl f token ≤ low config ∨ f.exp token.oldLogProb ≤ f.exp token.logProb)

def gpgTerm (token : PolicyToken K) : K := -token.logProb * token.advantage

def cispoTerm (token : PolicyToken K) : K :=
  -clamp (ratio f token) (1 - low config) (1 + high config) * token.advantage * token.logProb

def gateFunction (x tau : K) : K := f.sigmoid (tau * (x - 1)) * ((4 : Nat) / tau)

def sapoTerm (tauPos tauNeg : K) (token : PolicyToken K) : K :=
  -gateFunction f (ratio f token) (if token.advantage > 0 then tauPos else tauNeg) * token.advantage

/-! ### Losses of sequences -/

/-- `(x * response_mask).sum(dim=-1)` -/
def sequenceSum (term : PolicyToken K → K) (row : Vector (PolicyToken K) width) : K :=
  (row.toList.map (fun token => term token * weight token.valid)).sum

def responseLength (row : Vector (PolicyToken K) width) : K := maskSum (row.toList.map PolicyToken.valid)

/-- Every token has the ratio of its sequence. -/
def sequenceRatio (row : Vector (PolicyToken K) width) : K :=
  f.exp (min (sequenceSum (fun token => token.logProb - token.oldLogProb) row / max (responseLength row) 1) (10 : Nat))

def gspoTerm (row : Vector (PolicyToken K) width) (token : PolicyToken K) : K :=
  let pgLosses1 := -token.advantage * sequenceRatio f row
  let pgLosses2 := -token.advantage * clamp (sequenceRatio f row) (1 - low config) (1 + high config)
  max pgLosses1 pgLosses2

/-- `torch.sign` -/
def sign (x : K) : K := if 0 < x then 1 else if x < 0 then -1 else 0

def negativeApproxKlMin (token : PolicyToken K) : K :=
  let negativeApproxKl := token.logProb - token.oldLogProb
  let negativeApproxKlClamp := clamp negativeApproxKl (-low config) (high config)
  sign token.advantage * min (sign token.advantage * negativeApproxKl) (sign token.advantage * negativeApproxKlClamp)

/-- `(x * response_mask).sum(dim=-1) / (response_mask_sum + 1e-8)` -/
def sequenceMean (term : PolicyToken K → K) (row : Vector (PolicyToken K) width) : K :=
  sequenceSum term row / (responseLength row + tiny)

def geoMeanTerm (weighted : Bool) (row : Vector (PolicyToken K) width) : K :=
  let loss := -sequenceMean PolicyToken.advantage row * f.exp (sequenceMean (negativeApproxKlMin config) row)
  if weighted then
    loss * f.exp (sequenceMean (fun token => f.log (token.rolloutIsWeight + 1 / (10 : Nat) ^ 10)) row)
  else loss

/-- `torch.mean` of the losses of the sequences. -/
def computePolicyLossGeoMean (weighted : Bool) (batch : List (Vector (PolicyToken K) width)) : Option K :=
  if batch = [] then none else some (mean (batch.map (geoMeanTerm f config weighted)))

/-! ### Losses of batches -/

/-- What is decided for a whole batch: which tokens are chosen by their covariance, and the
weights and the mask of the rollout correction. -/
structure BatchChoices (K : Type) (width : Nat) where
  topKIdx : List (Vector (PolicyToken K) width) → Nat → Nat → Bool
  largeCovIdxs : List (Vector (PolicyToken K) width) → Nat → Nat → Bool
  rolloutCorrection : List (Vector (PolicyToken K) width) → Nat → Nat → Option K × Bool

def clipCovTerm (chosen : Bool) (token : PolicyToken K) : K :=
  let ratio := f.exp (token.logProb - token.oldLogProb)
  max (-token.advantage * ratio) (-token.advantage * clamp ratio (1 - low config) (1 + high config)) * weight (!chosen)

def klCovTerm (ppoKlCoef : K) (chosen : Bool) (token : PolicyToken K) : K :=
  let negativeApproxKl := token.logProb - token.oldLogProb
  let pgLosses1 := -token.advantage * f.exp negativeApproxKl
  if chosen then pgLosses1 + ppoKlCoef * |negativeApproxKl| else pgLosses1

/-- Losses by a term of each token and whether it is chosen in its batch. -/
def chosenwise (chosen : List (Vector (PolicyToken K) width) → Nat → Nat → Bool) (term : Bool → PolicyToken K → K)
    (batch : List (Vector (PolicyToken K) width)) : List (Vector (K × Bool) width) :=
  batch.mapIdx (fun index row => row.mapIdx (fun place token => (term (chosen batch index place) token, token.valid)))

/-- The tokens with the mask and the weights of the rollout correction. -/
def corrected (correction : List (Vector (PolicyToken K) width) → Nat → Nat → Option K × Bool)
    (batch : List (Vector (PolicyToken K) width)) : List (Vector (PolicyToken K × Option K) width) :=
  batch.mapIdx (fun index row => row.mapIdx (fun place token =>
    ({ token with valid := (correction batch index place).2 }, (correction batch index place).1)))

def reinforceTerm (entry : PolicyToken K × Option K) : K :=
  let loss := -entry.1.advantage * entry.1.logProb
  entry.2.elim loss (loss * ·)

def computePolicyLossBypassMode (choices : BatchChoices K width) (lossType : LossType)
    (batch : List (Vector (PolicyToken K) width)) (lossAggMode : String) (info : GlobalBatchInfo K) :
    Except LossFailure (Option K) :=
  let batch := corrected choices.rolloutCorrection batch
  match lossType with
  | .reinforce => aggregate (tokenwise reinforceTerm (fun entry => entry.1.valid) batch) lossAggMode info
  -- the ratio already handles the weights
  | .ppoClip => computePolicyLossVanilla f config false (batch.map (Vector.map Prod.fst)) lossAggMode info

/-! ### The value loss and the KL penalty -/

structure ValueToken (K : Type) where
  vpred : K
  value : K
  target : K
  valid : Bool

/-- `clip_by_value` -/
def clipByValue (x least most : K) : K := max (min x most) least

def clippedVfLoss (cliprangeValue : K) (token : ValueToken K) : K :=
  let vpredclipped := clipByValue token.vpred (token.value - cliprangeValue) (token.value + cliprangeValue)
  let vfLosses1 := (token.vpred - token.target) ^ 2
  let vfLosses2 := (vpredclipped - token.target) ^ 2
  max vfLosses1 vfLosses2

def computeValueLoss (cliprangeValue : K) (batch : List (Vector (ValueToken K) width)) (lossAggMode : String) :
    Except LossFailure (Option K) := do
  let loss ← aggregate (tokenwise (clippedVfLoss cliprangeValue) ValueToken.valid batch) lossAggMode .empty
  return loss.map (1 / (2 : Nat) * ·)

def klPenaltyForward (logprob refLogprob : K) : KlEstimator → K
  | .k1 => logprob - refLogprob
  | .abs => |logprob - refLogprob|
  | .k2 => 1 / (2 : Nat) * (logprob - refLogprob) ^ 2
  | .k3 =>
    let kl := clamp (refLogprob - logprob) (-(20 : Nat)) (20 : Nat)
    clamp (f.exp kl - kl - 1) (-(10 : Nat)) (10 : Nat)

/-- With a plus the gradient is that of the second estimator. -/
def klPenalty (logprob refLogprob : K) (estimator : KlEstimator) (straightThrough : Bool) : K :=
  let forwardScore := klPenaltyForward f logprob refLogprob estimator
  if straightThrough then
    let backwardScore := 1 / (2 : Nat) * (logprob - refLogprob) ^ 2
    backwardScore - backwardScore + forwardScore
  else forwardScore

end Losses

/-- The policy loss of a mode. -/
def computePolicyLoss {K : Type} [Field K] [LinearOrder K] {width : Nat} (f : Elementary K) (choices : BatchChoices K width)
    (config : ActorConfig K) (weighted : Bool) (batch : List (Vector (PolicyToken K) width)) (info : GlobalBatchInfo K) :
    Except LossFailure (Option K) :=
  let clip := config.toClipConfig
  let ofTokens (term : PolicyToken K → K) := tokenwise (fun token => applyWeight weighted token (term token)) PolicyToken.valid batch
  match config.lossMode with
  | .vanilla => computePolicyLossVanilla f clip weighted batch config.lossAggMode info
  | .dppoTv => aggregate (ofTokens (dppoTvTerm f clip)) config.lossAggMode info
  | .dppoKl => aggregate (ofTokens (dppoKlTerm f clip)) config.lossAggMode info
  | .gspo =>
    aggregate (batch.map (fun row => row.map (fun token => (applyWeight weighted token (gspoTerm f clip row token), token.valid))))
      "seq-mean-token-mean" info
  | .sapo => aggregate (ofTokens (sapoTerm f config.tauPos config.tauNeg)) "seq-mean-token-mean" info
  | .gpg => aggregate (ofTokens gpgTerm) config.lossAggMode info
  | .clipCov =>
    aggregate (chosenwise choices.topKIdx (fun chosen token => applyWeight weighted token (clipCovTerm f clip chosen token)) batch)
      config.lossAggMode info
  | .klCov =>
    aggregate (chosenwise choices.largeCovIdxs
      (fun chosen token => applyWeight weighted token (klCovTerm f (config.ppoKlCoef.getD 1) chosen token)) batch)
      config.lossAggMode info
  | .geoMean => .ok (computePolicyLossGeoMean f clip weighted batch)
  | .cispo => aggregate (ofTokens (cispoTerm f clip)) config.lossAggMode info
  | .bypassMode => computePolicyLossBypassMode f clip choices config.lossType batch config.lossAggMode info

end LLMFusion.CoreAlgos
