import LLMFusion.RewardLoop
import LLMFusion.TeacherLoop

/-! The batch of an agent loop worker. Every output is padded on its own, and the padded outputs are put together: which
columns there are is decided by the first of them. -/

namespace LLMFusion.AgentLoopBatch
open Indexing
open RewardLoop (PyValue Dict PositionIds computePositionIdWithMask textPositionIds)

inductive Failure where
  | attributeError
  | typeError
  | keyError (key : String)
  | indexError
  | valueError
  | sizeMismatch
  deriving DecidableEq, Repr

/-- `routed_experts` of the tokens, with the last two dimensions of the tensor. -/
structure Experts where
  layerNum : Nat
  topkNum : Nat
  tokens : List (List (List Int))
  deriving DecidableEq, Repr

/-- An output of an agent loop with its score and the fields of its teacher. -/
structure AgentLoopOutput (K : Type) where
  promptIds : List Nat
  responseIds : List Nat
  responseMask : List Nat
  responseLogprobs : Option (List K)
  routedExperts : Option Experts
  teacher : Option (List (List Nat) × List (List K))
  rewardScore : Option K
  numTurns : Nat
  metrics : Dict K
  extraFields : Dict K

/-- Token ids with their attention mask, padded on the left or on the right. -/
def padded (padTokenId : Nat) (left : Bool) (maxLength : Nat) (tokens : List Nat) : List Nat × List Nat :=
  let pads := List.replicate (maxLength - tokens.length) padTokenId
  let zeros := List.replicate (maxLength - tokens.length) 0
  let ones := List.replicate tokens.length 1
  if left then (pads ++ tokens, zeros ++ ones) else (tokens ++ pads, ones ++ zeros)

/-- A tokenizer that pads; what it does without tokens is left open. -/
structure Tokenizer where
  padTokenId : Nat
  pad : (left : Bool) → (maxLength : Nat) → List Nat → Except Failure (List Nat × List Nat)
  pads : ∀ left maxLength tokens, tokens ≠ [] → tokens.length ≤ maxLength →
    pad left maxLength tokens = .ok (padded padTokenId left maxLength tokens)
  padsEmpty : ∀ left maxLength, pad left maxLength [] = .ok (padded padTokenId left maxLength []) ∨
    ∃ failure, pad left maxLength [] = .error failure

/-- A multi-modal processor, by what its `get_rope_index` and the processor itself return. -/
structure Processor (K : Type) where
  ropeIndex : AgentLoopOutput K → List Nat → List Nat → List (List Int)
  regular : ∀ output inputIds mask, (ropeIndex output inputIds mask).map List.length = List.replicate 3 inputIds.length
  inputs : AgentLoopOutput K → List Nat → PyValue K

structure Worker (K : Type) where
  promptLength : Nat
  responseLength : Nat
  tokenizer : Tokenizer
  processor : Option (Processor K)
  hasRewardLoopWorkers : Bool

/-- `_InternalAgentLoopOutput` -/
structure InternalOutput (K : Type) where
  promptIds : List Nat
  responseIds : List Nat
  inputIds : List Nat
  positionIds : PositionIds
  responseMask : List Nat
  attentionMask : List Nat
  responseLogprobs : Option (List K)
  routedExperts : Option Experts
  teacherIds : Option (List (List Nat))
  teacherLogprobs : Option (List (List K))
  multiModalInputs : PyValue K
  rewardScore : Option K
  numTurns : Nat
  metrics : Dict K
  extraFields : Dict K

variable {K : Type}

/-! ### One output -/

def zeroExperts (layerNum topkNum count : Nat) : List (List (List Int)) :=
  List.replicate count (List.replicate layerNum (List.replicate topkNum 0))

/-- The experts at the places of their tokens, among zeros. -/
def placeExperts (startPos totalLength : Nat) (experts : Experts) : Except Failure Experts :=
  let length := experts.tokens.length
  let endPos := min (startPos + length) totalLength
  if endPos - startPos = length then
    .ok { experts with tokens := zeroExperts experts.layerNum experts.topkNum startPos ++ experts.tokens ++
            zeroExperts experts.layerNum experts.topkNum (totalLength - endPos) }
  else .error .sizeMismatch

def placeOptional (startPos totalLength : Nat) : Option Experts → Except Failure (Option Experts)
  | none => .ok none
  | some experts => (placeExperts startPos totalLength experts).map some

def computePositionIds (processor : Option (Processor K)) (output : AgentLoopOutput K) (inputIds attentionMask : List Nat) :
    PositionIds :=
  match processor with
  | none => .flat (computePositionIdWithMask attentionMask)
  | some processor => .channels (textPositionIds attentionMask :: processor.ropeIndex output inputIds attentionMask)

def computeMultiModalInputs (processor : Option (Processor K)) (output : AgentLoopOutput K) (inputIds : List Nat) : PyValue K :=
  match processor with
  | none => .dict []
  | some processor => processor.inputs output inputIds

variable [Zero K]

/-- `_agent_loop_postprocess` of an output to which `_compute_score` and `_compute_teacher_logprobs` have added their results. -/
def agentLoopPostprocess (worker : Worker K) (rawPrompt : PyValue K) (output : AgentLoopOutput K) :
    Except Failure (InternalOutput K) := do
  let prompt ← worker.tokenizer.pad true worker.promptLength output.promptIds
  let response ← worker.tokenizer.pad false worker.responseLength output.responseIds
  let mask ← worker.tokenizer.pad false worker.responseLength output.responseMask
  let inputIds := prompt.1 ++ response.1
  let attentionMask := prompt.2 ++ response.2
  let routedExperts ← placeOptional (prompt.1.length - output.promptIds.length) inputIds.length output.routedExperts
  let teacher := output.teacher.map (fun teacher =>
    TeacherLoop.padTeacherOutputs teacher.1 teacher.2 prompt.1.length response.1.length output.promptIds.length
      output.responseIds.length worker.tokenizer.padTokenId)
  return {
    promptIds := prompt.1
    responseIds := response.1
    inputIds := inputIds
    positionIds := computePositionIds worker.processor output inputIds attentionMask
    responseMask := List.zipWith (· * ·) mask.1 response.2
    attentionMask := attentionMask
    responseLogprobs := output.responseLogprobs.map (fun logprobs =>
      logprobs ++ List.replicate (worker.responseLength - logprobs.length) 0)
    routedExperts := routedExperts
    teacherIds := teacher.map Prod.fst
    teacherLogprobs := teacher.map Prod.snd
    multiModalInputs := computeMultiModalInputs worker.processor output inputIds
    rewardScore := output.rewardScore
    numTurns := output.numTurns
    metrics := output.metrics
    extraFields := insert "raw_prompt" rawPrompt output.extraFields }

/-! ### The batch -/

/-- `torch.cat` of tensors of one row each. -/
def cat {α σ : Type} [DecidableEq σ] (shape : α → σ) (rows : List α) : Except Failure (List α) :=
  match rows with
  | [] => .error .valueError
  | first :: _ => if ∀ row ∈ rows, shape row = shape first then .ok rows else .error .sizeMismatch

def orTypeError {α : Type} : Option α → Except Failure α
  | some value => .ok value
  | none => .error .typeError

/-- A column that is there if the first output has it. -/
def catOptional {α σ : Type} [DecidableEq σ] (shape : α → σ) (rows : List (Option α)) : Except Failure (Option (List α)) :=
  match rows with
  | some _ :: _ => do
    let present ← rows.mapM orTypeError
    let column ← cat shape present
    return some column
  | _ => .ok none

/-- A score at a place of a row of zeros. -/
def placeScore (width : Nat) (responseLength : Int) (score : K) : Except Failure (List K) :=
  match setItem (List.replicate width (0 : K)) responseLength score with
  | some row => .ok row
  | none => .error .indexError

/-- `rm_scores`, if every output has a score. -/
def rmScores (promptLength : Nat) (inputs : List (InternalOutput K)) : Except Failure (Option (List (List K))) :=
  match inputs.mapM InternalOutput.rewardScore with
  | none => .ok none
  | some scores => do
    let rows ← (inputs.zip scores).mapM (fun input =>
      placeScore input.1.responseMask.length (((input.1.attentionMask.drop promptLength).sum : Nat) - 1 : Int) input.2)
    return some rows

mutual

/-- The shape of a value as an array, if it has one. -/
def shapeOf : PyValue K → Option (List Nat)
  | .list [] => some [0]
  | .list (item :: items) =>
    match shapeOf item with
    | some first => if haveShape first items then some ((items.length + 1) :: first) else none
    | none => none
  | _ => some []

def haveShape (shape : List Nat) : List (PyValue K) → Bool
  | [] => true
  | item :: items => shapeOf item == some shape && haveShape shape items

end

/-- `np.array` of a value for each output; the entries are made of one type, which is not told apart here. -/
def npArray (values : List (PyValue K)) : Except Failure (List (PyValue K)) :=
  if (shapeOf (.list values)).isSome then .ok values else .error .valueError

def rewardInfoKey : String := "reward_extra_info"

/-- `extra_fields.get("reward_extra_info", {})` -/
def rewardExtraInfo (extraFields : Dict K) : Except Failure (Dict K) :=
  match (extraFields.lookup rewardInfoKey).getD (.dict []) with
  | .dict entries => .ok entries
  | _ => .error .attributeError

def subscript (entries : Dict K) (key : String) : Except Failure (PyValue K) :=
  match entries.lookup key with
  | some value => .ok value
  | none => .error (.keyError key)

abbrev Columns (K : Type) := List (String × List (PyValue K))

def updateColumns (columns others : Columns K) : Columns K :=
  others.foldl (fun columns column => insert column.1 column.2 columns) columns

def defaultExtraKeys : List String :=
  ["turn_scores", "tool_rewards", "min_global_steps", "max_global_steps", "extras", "workbench_actions",
    "bfcl_multiturn_calls"]

/-- The extra fields of all outputs, with `None` where one has not the key. -/
def extraColumns (inputs : List (InternalOutput K)) : Columns K :=
  let allKeys := (inputs.flatMap (fun input => input.extraFields.map Prod.fst) ++ defaultExtraKeys).dedup
  allKeys.map (fun key => (key, inputs.map (fun input => (input.extraFields.lookup key).getD .none)))

/-- The columns of the keys of the first output. -/
def rewardColumns (infos : List (Dict K)) : Except Failure (Columns K) :=
  match infos with
  | [] => .error .indexError
  | first :: _ => first.mapM (fun entry => do
    let values ← infos.mapM (fun info => subscript info entry.1)
    let column ← npArray values
    return (entry.1, column))

structure Batch (K : Type) where
  prompts : List (List Nat)
  responses : List (List Nat)
  responseMask : List (List Nat)
  inputIds : List (List Nat)
  attentionMask : List (List Nat)
  positionIds : List PositionIds
  rolloutLogProbs : Option (List (List K))
  routedExperts : Option (List Experts)
  teacherLogprobs : Option (List (List (List K)))
  teacherIds : Option (List (List (List Nat)))
  rmScores : Option (List (List K))
  nonTensorBatch : Columns K
  metrics : List (Dict K)
  rewardExtraKeys : Option (List String)

def positionShape : PositionIds → List Nat
  | .flat ids => [ids.length]
  | .channels rows => rows.map List.length

def expertsShape (experts : Experts) : Nat × Nat × Nat := (experts.tokens.length, experts.layerNum, experts.topkNum)

def postprocess (worker : Worker K) (inputNonTensorBatch : Columns K) (inputs : List (InternalOutput K)) :
    Except Failure (Batch K) := do
  let prompts ← cat List.length (inputs.map InternalOutput.promptIds)
  let responses ← cat List.length (inputs.map InternalOutput.responseIds)
  let responseMask ← cat List.length (inputs.map InternalOutput.responseMask)
  let attentionMask ← cat List.length (inputs.map InternalOutput.attentionMask)
  let inputIds ← cat List.length (inputs.map InternalOutput.inputIds)
  let positionIds ← cat positionShape (inputs.map InternalOutput.positionIds)
  let rolloutLogProbs ← catOptional List.length (inputs.map InternalOutput.responseLogprobs)
  let routedExperts ← catOptional expertsShape (inputs.map InternalOutput.routedExperts)
  let teacherLogprobs ← catOptional (List.map List.length) (inputs.map InternalOutput.teacherLogprobs)
  let teacherIds ← catOptional (List.map List.length) (inputs.map InternalOutput.teacherIds)
  let rmScores ← rmScores (prompts.headD []).length inputs
  let infos ← inputs.mapM (fun input => rewardExtraInfo input.extraFields)
  let rewardColumns ← rewardColumns infos
  let columns : Columns K := [("__num_turns__", inputs.map (fun input => .int input.numTurns))]
  let columns := if worker.hasRewardLoopWorkers then columns else updateColumns columns inputNonTensorBatch
  let columns := updateColumns columns rewardColumns
  let columns := insert "multi_modal_inputs" (inputs.map InternalOutput.multiModalInputs) columns
  return {
    prompts := prompts
    responses := responses
    responseMask := responseMask
    inputIds := inputIds
    attentionMask := attentionMask
    positionIds := positionIds
    rolloutLogProbs := rolloutLogProbs
    routedExperts := routedExperts
    teacherLogprobs := teacherLogprobs
    teacherIds := teacherIds
    rmScores := rmScores
    nonTensorBatch := updateColumns columns (extraColumns inputs)
    metrics := inputs.map InternalOutput.metrics
    rewardExtraKeys := rmScores.map (fun _ => rewardColumns.map Prod.fst) }

/-- The outputs of a worker, each beside its prompt, as a batch. -/
def generate (worker : Worker K) (inputNonTensorBatch : Columns K) (outputs : List (PyValue K × AgentLoopOutput K)) :
    Except Failure (Batch K) := do
  let inputs ← outputs.mapM (fun output => agentLoopPostprocess worker output.1 output.2)
  postprocess worker inputNonTensorBatch inputs

end LLMFusion.AgentLoopBatch
