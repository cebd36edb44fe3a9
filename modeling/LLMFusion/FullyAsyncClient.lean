import LLMFusion.Replica
import LLMFusion.Lib.Indexing
import LLMFusion.Lib.Runs

/-! The client of the fully asynchronous trainer. A request that was aborted is resumed
behind the tokens it has, until the server ends it or the limit of tokens is reached.
The limit is counted down in the caller's sampling parameters. -/

namespace LLMFusion.FullyAsyncClient
open Replica Runs

/-- The entries of `sampling_params` that are numbers or `None`. -/
abbrev SamplingParams := List (String × Option Int)

variable {τ ρ κ : Type}

def limitKey (samplingParams : SamplingParams) : Option String :=
  if (samplingParams.lookup "max_tokens").isSome then some "max_tokens"
  else if (samplingParams.lookup "max_new_tokens").isSome then some "max_new_tokens"
  else none

/-- `original_max_tokens`, with its key. -/
def originalMaxTokens (samplingParams : SamplingParams) : Option (String × Int) :=
  (limitKey samplingParams).bind (fun key =>
    ((samplingParams.lookup key).getD none).map (fun maxTokens => (key, maxTokens)))

/-- What the loop of `generate` keeps, with the caller's sampling parameters. -/
structure Progress (τ ρ κ : Type) where
  tokenIds : List τ
  logProbs : List ρ
  routedExperts : Option (List κ)
  numPreempted : Int
  stopReason : Option String
  globalSteps : Option Int
  minGlobalSteps : Option Int
  maxGlobalSteps : Option Int
  samplingParams : SamplingParams

def Progress.start (samplingParams : SamplingParams) : Progress τ ρ κ where
  tokenIds := []
  logProbs := []
  routedExperts := none
  numPreempted := 0
  stopReason := none
  globalSteps := none
  minGlobalSteps := none
  maxGlobalSteps := none
  samplingParams := samplingParams

/-- Routing is kept as it was and only the rows of new tokens are appended. -/
def mergeRouting (routedExperts : Option (List κ)) (output : TokenOutput τ ρ κ) : Option (List κ) :=
  match output.routedExperts with
  | none => routedExperts
  | some rows =>
    if output.tokenIds.length > 0 then
      match routedExperts with
      | none => some rows
      | some before => some (before ++ Indexing.fromIndex rows (-(output.tokenIds.length : Int)))
    else routedExperts

def mergeOutput (progress : Progress τ ρ κ) (output : TokenOutput τ ρ κ) : Progress τ ρ κ :=
  let globalSteps := (output.extraFields.lookup "global_steps").getD none
  { progress with
    tokenIds := progress.tokenIds ++ output.tokenIds
    logProbs := progress.logProbs ++ output.logProbs.getD []
    routedExperts := mergeRouting progress.routedExperts output
    numPreempted := progress.numPreempted + output.numPreempted.getD 0
    stopReason := output.stopReason
    globalSteps := globalSteps
    minGlobalSteps := progress.minGlobalSteps.or globalSteps
    maxGlobalSteps := globalSteps }

inductive Phase (τ ρ κ : Type) where
  | waiting (progress : Progress τ ρ κ)
  | returned (progress : Progress τ ρ κ)

/-- `sampling_params[limit_key] = original_max_tokens - len(final_output.token_ids)` -/
def countDown (limit : Option (String × Int)) (progress : Progress τ ρ κ) : Progress τ ρ κ :=
  match limit with
  | some (key, maxTokens) => { progress with
      samplingParams := Indexing.insert key (some (maxTokens - progress.tokenIds.length)) progress.samplingParams }
  | none => progress

/-- An iteration of the loop behind the call of the server. -/
def afterOutput (partialRollout : Bool) (limit : Option (String × Int)) (progress : Progress τ ρ κ)
    (output : TokenOutput τ ρ κ) : Phase τ ρ κ :=
  let updated := countDown limit (mergeOutput progress output)
  if limit.any (fun limit => limit.2 ≤ (updated.tokenIds.length : Int)) then
    .returned { updated with stopReason := some "length" }
  else if !aborted output.stopReason || !partialRollout then .returned updated
  else .waiting updated

/-- A call of the server. -/
structure Call (τ ρ κ : Type) where
  promptIds : List τ
  samplingParams : SamplingParams
  output : TokenOutput τ ρ κ

/-- The server is called with the tokens so far and may answer anything. -/
inductive Step (partialRollout : Bool) (limit : Option (String × Int)) (promptIds : List τ) :
    Phase τ ρ κ → Call τ ρ κ → Phase τ ρ κ → Prop where
  | call (progress : Progress τ ρ κ) (output : TokenOutput τ ρ κ) :
      Step partialRollout limit promptIds (.waiting progress)
        ⟨promptIds ++ progress.tokenIds, progress.samplingParams, output⟩ (afterOutput partialRollout limit progress output)

/-- `generate` with the calls it makes. -/
def Generate (partialRollout : Bool) (promptIds : List τ) (samplingParams : SamplingParams) (calls : List (Call τ ρ κ))
    (phase : Phase τ ρ κ) : Prop :=
  Run (Step partialRollout (originalMaxTokens samplingParams) promptIds) (.waiting (.start samplingParams)) calls phase

/-- The output that is returned. -/
def finalOutput (progress : Progress τ ρ κ) : TokenOutput τ ρ κ where
  tokenIds := progress.tokenIds
  logProbs := some progress.logProbs
  routedExperts := progress.routedExperts
  stopReason := progress.stopReason
  numPreempted := some progress.numPreempted
  extraFields := [("global_steps", progress.globalSteps), ("min_global_steps", progress.minGlobalSteps),
    ("max_global_steps", progress.maxGlobalSteps)]

end LLMFusion.FullyAsyncClient
