import LLMFusion.ForwardKl
import LLMFusion.Lib.Shards
import LLMFusion.Padding

/-! The teacher of a distillation. A server gives the log probabilities of the tokens of a sequence,
they are padded like the sequence and packed with it, and the loss is computed where the student
predicts the same token. Token ids are natural numbers. -/

namespace LLMFusion.TeacherLoop
open Indexing Padding

inductive Failure where
  /-- no log probabilities at a token that is not the first -/
  | noneType
  | indexError
  | assertion
  /-- lists that `torch.tensor` or `torch.cat` does not take -/
  | notATensor
  | keyError (key : String)
  /-- `vLLM does not support temperature for prompt_logprobs.` -/
  | temperature
  /-- `Routing key is required for multi-teacher distillation ...` -/
  | routingKeyRequired
  /-- `No teacher configured for routing key ...` -/
  | noTeacher (routingKey : String)
  deriving DecidableEq, Repr

structure Logprob (K : Type) where
  logprob : K
  rank : Nat
  deriving DecidableEq, Repr

/-- `prompt_logprobs` of an output. There are none for the first token. -/
abbrev PromptLogprobs (K : Type) := List (Option (List (Nat × Logprob K)))

variable {K : Type}

/-! ### The server -/

/-- What is written into the result, with `None` where a rank is missing. -/
structure Extracted (K : Type) where
  promptIds : List (List (Option Nat))
  promptLogprobs : List (List (Option K))

def extractRow (numPromptLogprobs : Nat) :
    Option (List (Nat × Logprob K)) → Except Failure (List (Option Nat) × List (Option K))
  | none => .error .noneType
  | some logprobsDict =>
    if numPromptLogprobs = 0 then
      match logprobsDict with
      | [] => .error .indexError
      | (tokenId, token) :: _ => .ok ([some tokenId], [some token.logprob])
    else if logprobsDict.length = numPromptLogprobs ∨ logprobsDict.length = numPromptLogprobs + 1 then
      -- the sampled token may not be in the top-k
      let ranked := logprobsDict.filter (fun entry => entry.2.rank ≤ numPromptLogprobs)
      match setItems (ranked.map (fun entry => ((entry.2.rank : Int) - 1, some entry.1))) (List.replicate numPromptLogprobs none),
          setItems (ranked.map (fun entry => ((entry.2.rank : Int) - 1, some entry.2.logprob)))
            (List.replicate numPromptLogprobs none) with
      | some promptIds, some promptLogprobs => .ok (promptIds, promptLogprobs)
      | _, _ => .error .indexError
    else .error .assertion

def extractPromptLogprobs [Zero K] (promptLogprobs : PromptLogprobs K) (numPromptLogprobs : Option Nat) :
    Except Failure (Option (Extracted K)) :=
  match numPromptLogprobs with
  | none => .ok none
  | some numPromptLogprobs => do
    let rows ← promptLogprobs.tail.mapM (extractRow numPromptLogprobs)
    -- a dummy for the last token
    return some ⟨rows.map Prod.fst ++ [List.replicate (max numPromptLogprobs 1) (some 0)],
      rows.map Prod.snd ++ [List.replicate (max numPromptLogprobs 1) (some 0)]⟩

/-! ### The teacher manager -/

/-- A teacher with the temperature of its config, and what its engine returns for a sequence. -/
structure TeacherModel (K : Type) where
  temperature : K
  promptLogprobs : List Nat → Option Nat → PromptLogprobs K

/-- The configs and the clients, which have the same keys, in one dictionary. -/
structure AsyncTeacherLLMServerManager (K : Type) where
  teacherModels : List (String × TeacherModel K)
  useTopk : Bool
  topk : Option Nat

def getTeacherSamplingParams [One K] [DecidableEq K] (temperature : K) (useTopk : Bool) (topk : Option Nat) :
    Except Failure (Option Nat) :=
  if temperature ≠ 1 then .error .temperature
  else .ok (if useTopk then topk else some 0)

/-- A tensor of two dimensions. -/
def toTensor {α : Type} (rows : List (List (Option α))) : Except Failure (List (List α)) :=
  match rows.mapM (fun row => row.mapM id) with
  | none => .error .notATensor
  | some rows => if ∀ row ∈ rows, row.length = (rows.headD []).length then .ok rows else .error .notATensor

namespace AsyncTeacherLLMServerManager
variable (manager : AsyncTeacherLLMServerManager K)

def resolveTeacherKey (routingKey : Option String) : Except Failure String :=
  match manager.teacherModels with
  | [(key, _)] => .ok key
  | teacherModels =>
    match routingKey with
    | none => .error .routingKeyRequired
    | some routingKey => if (teacherModels.lookup routingKey).isSome then .ok routingKey else .error (.noTeacher routingKey)

def computeTeacherLogprobsSingle [Zero K] [One K] [DecidableEq K] (sequenceIds : List Nat) (routingKey : Option String) :
    Except Failure (List (List Nat) × List (List K)) := do
  let teacherKey ← manager.resolveTeacherKey routingKey
  match manager.teacherModels.lookup teacherKey with
  | none => throw (.keyError teacherKey)
  | some teacher =>
    let numLogprobs ← getTeacherSamplingParams teacher.temperature manager.useTopk manager.topk
    let output ← extractPromptLogprobs (teacher.promptLogprobs sequenceIds numLogprobs) numLogprobs
    match output with
    | none => throw (.keyError "prompt_ids")
    | some extracted =>
      let teacherIds ← toTensor extracted.promptIds
      let teacherLogprobs ← toTensor extracted.promptLogprobs
      if teacherIds.length = teacherLogprobs.length ∧ teacherLogprobs.length = sequenceIds.length then
        return (teacherIds, teacherLogprobs)
      else throw .assertion

end AsyncTeacherLLMServerManager

/-! ### The batch -/

/-- `F.pad` of the first dimension; a negative size crops. -/
def padRows {α : Type} (left right : Int) (value : α) (rows : List (List α)) : List (List α) :=
  let blank := List.replicate (rows.headD []).length value
  let padded := List.replicate left.toNat blank ++ rows ++ List.replicate right.toNat blank
  (padded.take (padded.length - (-right).toNat)).drop (-left).toNat

def padTeacherOutputs [Zero K] (teacherIds : List (List Nat)) (teacherLogprobs : List (List K))
    (promptWidth responseWidth promptLength responseLength padTokenId : Nat) : List (List Nat) × List (List K) :=
  let leftPadSize : Int := promptWidth - promptLength
  let rightPadSize : Int := responseWidth - responseLength
  (padRows leftPadSize rightPadSize padTokenId teacherIds, padRows leftPadSize rightPadSize 0 teacherLogprobs)

def rowVector {α : Type} (width : Nat) (row : List α) : Option (Vector α width) :=
  if fits : row.toArray.size = width then some ⟨row.toArray, fits⟩ else none

/-- `torch.cat` of the samples of a batch -/
def stackRows {α : Type} (batch width : Nat) (rows : List (List α)) : Except Failure (Padded α batch width) :=
  match rows.mapM (rowVector width) with
  | none => .error .notATensor
  | some rows =>
    match rowVector batch rows with
    | none => .error .notATensor
    | some padded => .ok padded

/-- A prompt with its response and the key of its teacher. -/
structure Sample where
  promptIds : List Nat
  responseIds : List Nat
  routingKey : Option String
  deriving DecidableEq, Repr

/-- The teacher's fields of a sample. -/
def teacherFields [Zero K] [One K] [DecidableEq K] (manager : AsyncTeacherLLMServerManager K)
    (promptWidth responseWidth padTokenId : Nat) (sample : Sample) : Except Failure (List (List Nat) × List (List K)) := do
  let (teacherIds, teacherLogprobs) ← manager.computeTeacherLogprobsSingle (sample.promptIds ++ sample.responseIds) sample.routingKey
  return padTeacherOutputs teacherIds teacherLogprobs promptWidth responseWidth sample.promptIds.length
    sample.responseIds.length padTokenId

/-- A batch with the teacher's fields of its samples. -/
def withTeacher [Zero K] [One K] [DecidableEq K] {batch promptWidth responseWidth : Nat}
    (manager : AsyncTeacherLLMServerManager K) (padTokenId : Nat) (samples : List Sample)
    (data : TensorDict Nat K batch promptWidth responseWidth) :
    Except Failure (TensorDict Nat K batch promptWidth responseWidth) := do
  let fields ← samples.mapM (teacherFields manager promptWidth responseWidth padTokenId)
  let teacherIds ← stackRows batch (promptWidth + responseWidth) (fields.map Prod.fst)
  let teacherLogprobs ← stackRows batch (promptWidth + responseWidth) (fields.map Prod.snd)
  return { data with teacherIds := some teacherIds, teacherLogprobs := some teacherLogprobs }

/-! ### The loss -/

/-- `slice_input_tensor` along the tokens of one packed row -/
def sliceInputTensor {α : Type} (spSize spRank : Nat) (blank : α) (rows : List α) : List α :=
  Shards.shard spSize spRank
    (if rows.length % spSize ≠ 0 then rows ++ List.replicate (spSize - rows.length % spSize) blank else rows)

section Loss
variable [Field K] [LinearOrder K] (exp log : K → K)

/-- The outputs for the tokens of a rank, `student_logits` being the rank's part. -/
def computeForwardKlTopk (spSize spRank : Nat) (studentLogits : List (List K)) (teacherTopkLogProbs : Nested (List K))
    (teacherTopkIds : Nested (List Nat)) (clamp : Option K) : Option (List (ForwardKl.Outputs K)) :=
  let logProbs := teacherTopkLogProbs.values
  let ids := teacherTopkIds.values
  let logProbs :=
    if 1 < spSize then sliceInputTensor spSize spRank (List.replicate (logProbs.headD []).length 0) logProbs else logProbs
  let ids := if 1 < spSize then sliceInputTensor spSize spRank (List.replicate (ids.headD []).length 0) ids else ids
  if logProbs.length = ids.length ∧ ids.length = studentLogits.length then
    (studentLogits.zip (logProbs.zip ids)).mapM (fun (logits, logProbs, ids) =>
      ForwardKl.Fsdp.computeForwardKlTopk exp log logits logProbs ids clamp)
  else none

end Loss

/-- `gather_outputs_and_unpad` of the parts of all ranks -/
def gatherOutputsAndUnpad {β : Type} (locals : List (List β)) (paddingSize : Nat) : List β :=
  if paddingSize = 0 then locals.flatten else locals.flatten.take (locals.flatten.length - paddingSize)

/-- The outputs of the loss for the tokens of every sequence. A group of one rank does not gather. -/
def topkOutputs {β : Type} (spSize : Nat) (outputs : Nat → Option (List β)) (padSize : Nat) (offsets : List Nat) :
    Option (Nested β) :=
  if 1 < spSize then do
    let locals ← (List.range spSize).mapM outputs
    return Nested.fromJagged (gatherOutputsAndUnpad locals padSize) offsets
  else do return Nested.fromJagged (← outputs 0) offsets

end LLMFusion.TeacherLoop
