import LLMFusion.Lib.Fallible
import LLMFusion.Lib.Indexing
import Mathlib.Algebra.Field.Defs
import Mathlib.Algebra.GroupWithZero.Nat
import Mathlib.Order.Lattice

/-! The reward of a session with several outputs. The agent loop pads all outputs into one batch,
and a reward worker scores its last row: by one of the reward managers, or by a reward model. -/

namespace LLMFusion.RewardLoop
open Indexing

inductive Failure where
  | indexError
  | keyError (key : String)
  | typeError
  /-- `RewardLoopWorker only support single data item`, or a missing `raw_prompt` -/
  | assertion
  /-- a sequence that does not fit beside the first one -/
  | sizeMismatch (expected got : Nat)
  /-- `TensorRT-LLM backend does not support reward models currently.` -/
  | trtllm
  /-- `RewardLoopManager does not support ...` -/
  | unsupported (engineName : String)
  | timeout
  | raised (message : String)
  deriving DecidableEq, Repr

/-- Values of dictionaries. -/
inductive PyValue (K : Type) where
  | none
  | flag (value : Bool)
  | int (value : Int)
  | float (value : K)
  | text (value : String)
  | list (items : List (PyValue K))
  | dict (entries : List (String × PyValue K))

abbrev Dict (K : Type) := List (String × PyValue K)

variable {K : Type}

def PyValue.asDict : PyValue K → Except Failure (Dict K)
  | .dict entries => .ok entries
  | _ => .error .typeError

def subscript (entries : Dict K) (key : String) : Except Failure (PyValue K) :=
  match entries.lookup key with
  | some value => .ok value
  | none => .error (.keyError key)

/-- `entries.update(others)` -/
def update (entries others : Dict K) : Dict K :=
  others.foldl (fun entries entry => insert entry.1 entry.2 entries) entries

structure AgentLoopOutput (K : Type) where
  promptIds : List Int
  responseIds : List Int
  rewardScore : Option (PyValue K)
  numTurns : Nat
  extraFields : Dict K

/-! ### The batch -/

/-- `pad_sequence` of one-dimensional tensors -/
def padSequence {α : Type} (paddingValue : α) (sequences : List (List α)) : List (List α) :=
  let width := (sequences.map List.length).foldr max 0
  sequences.map (fun sequence => sequence ++ List.replicate (width - sequence.length) paddingValue)

/-- A row that is copied into `width` places: one entry alone is repeated. -/
def copyInto (width : Nat) : List Int → Except Failure (List Int)
  | [entry] => .ok (List.replicate width entry)
  | row => if row.length = width then .ok row else .error (.sizeMismatch width row.length)

/-- `pad_sequence` of tensors of four rows each: all are copied into the shape of the first. -/
def padChannels : List (List (List Int)) → Except Failure (List (List (List Int)))
  | [] => .error .indexError
  | first :: sequences => (first :: sequences).mapM (fun rows => rows.mapM (copyInto (first.headD []).length))

/-- A multi-modal processor, by what its `get_rope_index` returns. -/
structure Processor (K : Type) where
  ropeIndex : AgentLoopOutput K → List Int → List Nat → List (List Int)
  three : ∀ output inputIds mask, (ropeIndex output inputIds mask).length = 3
  regular : ∀ output inputIds mask, ∀ row ∈ ropeIndex output inputIds mask, row.length = inputIds.length

/-- `compute_position_id_with_mask`: `clip(cumsum(mask) - 1, min=0)` -/
def computePositionIdWithMask (mask : List Nat) : List Int :=
  (List.range mask.length).map (fun column => max (((mask.take (column + 1)).sum : Nat) - 1 : Int) 0)

/-- The positions of the tokens that count, and 1 at the others. -/
def textPositionIds (mask : List Nat) : List Int :=
  (List.range mask.length).map (fun column =>
    if mask[column]? = some 0 then 1 else ((mask.take column).countP (· ≠ 0) : Nat))

def AgentLoopOutput.inputIds (output : AgentLoopOutput K) : List Int := output.promptIds ++ output.responseIds

def AgentLoopOutput.attentionMask (output : AgentLoopOutput K) : List Nat := List.replicate output.inputIds.length 1

/-- The positions in the text and the three that the processor gives. -/
def Processor.positionIds (processor : Processor K) (output : AgentLoopOutput K) : List (List Int) :=
  textPositionIds output.attentionMask :: processor.ropeIndex output output.inputIds output.attentionMask

inductive PositionIds where
  | flat (ids : List Int)
  | channels (rows : List (List Int))
  deriving DecidableEq, Repr

def paddedPositionIds (processor : Option (Processor K)) (outputs : List (AgentLoopOutput K)) :
    Except Failure (List PositionIds) :=
  match processor with
  | none => .ok ((padSequence 0 (outputs.map (computePositionIdWithMask ·.attentionMask))).map .flat)
  | some processor => do
    let padded ← padChannels (outputs.map processor.positionIds)
    return padded.map .channels

/-- A row of a batch. -/
structure DataProtoItem (K : Type) where
  prompts : List Int
  responses : List Int
  attentionMask : List Nat
  inputIds : List Int
  positionIds : PositionIds
  nonTensorBatch : Dict K

/-- A batch, row by row. -/
abbrev DataProto (K : Type) := List (DataProtoItem K)

def nonTensorRow (kwargs : Dict K) (output : AgentLoopOutput K) : Dict K :=
  update kwargs [("__num_turns__", .int output.numTurns), ("tool_extra_fields", .dict output.extraFields),
    ("prompt_len", .int output.promptIds.length), ("response_len", .int output.responseIds.length)]

/-- What `_compute_score` sends to the reward worker. -/
def scoreBatch (processor : Option (Processor K)) (outputs : List (AgentLoopOutput K)) (kwargs : Dict K) :
    Except Failure (DataProto K) := do
  let positionIds ← paddedPositionIds processor outputs
  let prompts := padSequence 0 (outputs.map (·.promptIds))
  let responses := padSequence 0 (outputs.map (·.responseIds))
  let attentionMask := padSequence 0 (outputs.map (·.attentionMask))
  let inputIds := padSequence 0 (outputs.map (·.inputIds))
  let columns := (((prompts.zip responses).zip attentionMask).zip inputIds).zip (positionIds.zip outputs)
  return columns.map (fun ((((prompt, response), mask), ids), (position, output)) =>
    ⟨prompt, response, mask, ids, position, nonTensorRow kwargs output⟩)

/-! ### The reward managers -/

structure Tokenizer where
  /-- the ids, and whether special tokens are skipped -/
  decode : List Int → Bool → String
  eosToken : String

/-- The arguments of a reward function. -/
structure ScoreCall (K : Type) where
  dataSource : PyValue K
  solutionStr : String
  groundTruth : PyValue K
  extraInfo : PyValue K
  rewardRouterAddress : Option String

inductive ScoreError where
  | timeout
  | raised (message : String)
  deriving DecidableEq, Repr

structure RewardManager (K : Type) where
  tokenizer : Tokenizer
  computeScore : ScoreCall K → Except ScoreError (PyValue K)
  rewardRouterAddress : Option String

/-- `overlong_buffer_cfg` with `max_resp_len`, as the constructor accepts them. -/
structure OverlongBuffer (K : Type) where
  enable : Bool
  len : Nat
  maxRespLen : Nat
  penaltyFactor : K
  log : Bool
  fits : len ≤ maxRespLen
  positive : enable = true → 0 < len

structure Reward (K : Type) where
  rewardScore : PyValue K
  /-- missing in the result of a reward model -/
  rewardExtraInfo : Option (Dict K)

/-- `data[-1:][0]` -/
def lastItem (data : DataProto K) : Except Failure (DataProtoItem K) :=
  match getItem (fromIndex data (-1)) 0 with
  | some item => .ok item
  | none => .error .indexError

/-- `attention_mask[-response_length:].sum()` -/
def DataProtoItem.validResponseLength (item : DataProtoItem K) : Nat :=
  (fromIndex item.attentionMask (-(item.responses.length : Int))).sum

def DataProtoItem.validResponseIds (item : DataProtoItem K) : List Int :=
  item.responses.take item.validResponseLength

def DataProtoItem.extraInfo (item : DataProtoItem K) : PyValue K := (item.nonTensorBatch.lookup "extra_info").getD (.dict [])

def DataProtoItem.groundTruth (item : DataProtoItem K) : Except Failure (PyValue K) := do
  let rewardModel ← subscript item.nonTensorBatch "reward_model"
  let entries ← rewardModel.asDict
  subscript entries "ground_truth"

/-- `extra_info.update(tool_extra_fields.items())` -/
def DataProtoItem.withToolFields (item : DataProtoItem K) (extraInfo : Dict K) : Except Failure (Dict K) :=
  match item.nonTensorBatch.lookup "tool_extra_fields" with
  | none | some .none => .ok extraInfo
  | some fields => do return update extraInfo (← fields.asDict)

def DataProtoItem.withRollout (item : DataProtoItem K) (extraInfo : Dict K) : Dict K :=
  update extraInfo [("num_turns", (item.nonTensorBatch.lookup "__num_turns__").getD .none),
    ("rollout_reward_scores", (item.nonTensorBatch.lookup "reward_scores").getD (.dict []))]

/-- A call of the reward function, with what a manager makes of `extra_info`. -/
def RewardManager.scoreCall (manager : RewardManager K) (item : DataProtoItem K)
    (extraInfo : PyValue K → Except Failure (PyValue K)) : Except Failure (ScoreCall K) := do
  let dataSource ← subscript item.nonTensorBatch "data_source"
  let groundTruth ← item.groundTruth
  let extraInfo ← extraInfo item.extraInfo
  return ⟨dataSource, manager.tokenizer.decode item.validResponseIds true, groundTruth, extraInfo,
    manager.rewardRouterAddress⟩

/-- The reward function raises through the manager. -/
def RewardManager.result (manager : RewardManager K) (call : ScoreCall K) : Except Failure (PyValue K) :=
  match manager.computeScore call with
  | .ok result => .ok result
  | .error .timeout => .error .timeout
  | .error (.raised message) => .error (.raised message)

/-- The score in a result, and the extra information with the result written into it. -/
def readResult (rewardExtraInfo : Dict K) : PyValue K → Except Failure (PyValue K × Dict K)
  | .dict entries => do return (← subscript entries "score", update rewardExtraInfo entries)
  | score => .ok (score, insert "acc" score rewardExtraInfo)

def toolAndRollout (item : DataProtoItem K) (extraInfo : PyValue K) : Except Failure (PyValue K) := do
  let extraInfo ← item.withToolFields (← extraInfo.asDict)
  return .dict (item.withRollout extraInfo)

namespace NaiveRewardManager

def request (manager : RewardManager K) (item : DataProtoItem K) : Except Failure (ScoreCall K) :=
  manager.scoreCall item (toolAndRollout item)

def runSingle (manager : RewardManager K) (data : DataProto K) : Except Failure (Reward K) := do
  let item ← lastItem data
  let result ← manager.result (← request manager item)
  let (score, rewardExtraInfo) ← readResult [("response_length", .int item.validResponseLength)] result
  return ⟨score, some rewardExtraInfo⟩

end NaiveRewardManager

namespace DAPORewardManager
variable [Field K] [LinearOrder K]

def request (manager : RewardManager K) (item : DataProtoItem K) : Except Failure (ScoreCall K) :=
  manager.scoreCall item .ok

def overlongReward (cfg : OverlongBuffer K) (validResponseLength : Nat) : K :=
  let exceedLen : K := (validResponseLength : K) - ((cfg.maxRespLen : K) - (cfg.len : K))
  min (-exceedLen / (cfg.len : K) * cfg.penaltyFactor) 0

def addReward (reward : PyValue K) (overlongReward : K) : Except Failure (PyValue K) :=
  match reward with
  | .int value => .ok (.float ((value : K) + overlongReward))
  | .float value => .ok (.float (value + overlongReward))
  | .flag value => .ok (.float ((if value then 1 else 0) + overlongReward))
  | _ => .error .typeError

def runSingle (manager : RewardManager K) (overlongBufferCfg : Option (OverlongBuffer K)) (data : DataProto K) :
    Except Failure (Reward K) := do
  let item ← lastItem data
  let result ← manager.result (← request manager item)
  let (score, rewardExtraInfo) ← readResult [] result
  match overlongBufferCfg with
  | none => return ⟨score, some rewardExtraInfo⟩
  | some cfg =>
    if cfg.enable then
      let overlong := overlongReward cfg item.validResponseLength
      let reward ← addReward score overlong
      if cfg.log then
        return ⟨reward, some (update rewardExtraInfo
          [("overlong_reward", .float overlong), ("overlong", .flag (decide (overlong < 0)))])⟩
      else return ⟨reward, some rewardExtraInfo⟩
    else return ⟨score, some rewardExtraInfo⟩

end DAPORewardManager

namespace GDPORewardManager

def request (manager : RewardManager K) (experimentName : String) (item : DataProtoItem K) :
    Except Failure (ScoreCall K) :=
  manager.scoreCall item (fun extraInfo => do
    return .dict (insert "experiment_name" (.text experimentName) (← extraInfo.asDict)))

def runSingle (manager : RewardManager K) (experimentName : String) (data : DataProto K) :
    Except Failure (Reward K) := do
  let item ← lastItem data
  let result ← manager.result (← request manager experimentName item)
  let (score, rewardExtraInfo) ← readResult [] result
  return ⟨score, some rewardExtraInfo⟩

end GDPORewardManager

namespace RemoteRewardManager

def request (manager : RewardManager K) (item : DataProtoItem K) : Except Failure (ScoreCall K) :=
  manager.scoreCall item (toolAndRollout item)

def runSingle (manager : RewardManager K) (data : DataProto K) : Except Failure (Reward K) := do
  let item ← lastItem data
  let result ← manager.result (← request manager item)
  let (score, rewardExtraInfo) ← readResult [] result
  return ⟨score, some rewardExtraInfo⟩

end RemoteRewardManager

namespace RateLimitedRewardManager

def request (manager : RewardManager K) (item : DataProtoItem K) : Except Failure (ScoreCall K) :=
  manager.scoreCall item (fun extraInfo => do return .dict (← item.withToolFields (← extraInfo.asDict)))

/-- A reward function that fails counts as a score of 0. The limiters only delay the call. -/
def runSingle [Zero K] (manager : RewardManager K) (data : DataProto K) : Except Failure (Reward K) := do
  let item ← lastItem data
  let call ← request manager item
  match manager.computeScore call with
  | .error .timeout => return ⟨.float 0, some [("timeout", .flag true), ("acc", .float 0)]⟩
  | .error (.raised message) => return ⟨.float 0, some [("error", .text message), ("acc", .float 0)]⟩
  | .ok result =>
    match readResult [] result with
    | .ok (score, rewardExtraInfo) => return ⟨score, some rewardExtraInfo⟩
    | .error _ => return ⟨.float 0, some [("error", .text "'score'"), ("acc", .float 0)]⟩

end RateLimitedRewardManager

/-- The managers, with what each one is made with. -/
inductive Manager (K : Type) where
  | naive (manager : RewardManager K)
  | dapo (manager : RewardManager K) (overlongBufferCfg : Option (OverlongBuffer K))
  | gdpo (manager : RewardManager K) (experimentName : String)
  | remote (manager : RewardManager K)
  | limited (manager : RewardManager K)

def Manager.base : Manager K → RewardManager K
  | .naive manager | .dapo manager _ | .gdpo manager _ | .remote manager | .limited manager => manager

def Manager.request : Manager K → DataProtoItem K → Except Failure (ScoreCall K)
  | .naive manager => NaiveRewardManager.request manager
  | .dapo manager _ => DAPORewardManager.request manager
  | .gdpo manager experimentName => GDPORewardManager.request manager experimentName
  | .remote manager => RemoteRewardManager.request manager
  | .limited manager => RateLimitedRewardManager.request manager

def Manager.runSingle [Field K] [LinearOrder K] : Manager K → DataProto K → Except Failure (Reward K)
  | .naive manager => NaiveRewardManager.runSingle manager
  | .dapo manager overlongBufferCfg => DAPORewardManager.runSingle manager overlongBufferCfg
  | .gdpo manager experimentName => GDPORewardManager.runSingle manager experimentName
  | .remote manager => RemoteRewardManager.runSingle manager
  | .limited manager => RateLimitedRewardManager.runSingle manager

/-! ### The reward worker -/

/-- An item of the `data` of a response. -/
structure Pooled (K : Type) where
  probs : List K
  embedding : List K

structure Payload where
  model : String
  input : String
  /-- sent as `False`, or not at all -/
  useActivation : Option Bool
  deriving DecidableEq

structure RewardLoopWorker (K : Type) where
  customRewardFunction : Bool
  rewardModelEnable : Bool
  rewardManager : Manager K
  inputTokenizer : Tokenizer
  applyChatTemplate : List (PyValue K) → String
  bosToken : Option String
  engineName : String
  modelPath : String
  postRequest : Payload → String → Except Failure (List (Pooled K))

namespace RewardLoopWorker

/-- The chat that a reward model sees. -/
def chat (worker : RewardLoopWorker K) (data : DataProto K) : Except Failure (List (PyValue K)) :=
  match data with
  | [item] =>
    match item.nonTensorBatch.lookup "raw_prompt" with
    | some (.list rawPrompt) =>
      let rolloutResponse := (worker.inputTokenizer.decode item.validResponseIds false).replace worker.inputTokenizer.eosToken ""
      .ok (rawPrompt ++ [.dict [("role", .text "assistant"), ("content", .text rolloutResponse)]])
    | some _ => .error .typeError
    | none => .error .assertion
  | _ => .error .assertion

def preprocessRewardInputs (worker : RewardLoopWorker K) (data : DataProto K) : Except Failure String := do
  let rmPrompt := worker.applyChatTemplate (← worker.chat data)
  match worker.bosToken with
  | some bosToken =>
    if bosToken.toList.isPrefixOf rmPrompt.toList then return String.ofList (rmPrompt.toList.drop bosToken.toList.length)
    else return rmPrompt
  | none => return rmPrompt

def lastOf {α : Type} (items : List α) : Except Failure α :=
  match getItem items (-1) with
  | some item => .ok item
  | none => .error .indexError

def computeScoreDisrm (worker : RewardLoopWorker K) (data : DataProto K) : Except Failure (Reward K) := do
  let disrmPrompt ← worker.preprocessRewardInputs data
  if worker.engineName = "vllm" then
    let output ← worker.postRequest ⟨worker.modelPath, disrmPrompt, some false⟩ "classify"
    return ⟨.float (← lastOf (← lastOf output).probs), none⟩
  else if worker.engineName = "sglang" then
    let output ← worker.postRequest ⟨worker.modelPath, disrmPrompt, none⟩ "v1/embeddings"
    return ⟨.float (← lastOf (← lastOf output).embedding), none⟩
  else if worker.engineName = "trtllm" then throw .trtllm
  else throw (.unsupported worker.engineName)

def computeScore [Field K] [LinearOrder K] (worker : RewardLoopWorker K) (data : DataProto K) :
    Except Failure (Reward K) :=
  if worker.customRewardFunction then worker.rewardManager.runSingle data
  else if worker.rewardModelEnable then worker.computeScoreDisrm (fromIndex data (-1))
  else worker.rewardManager.runSingle data

end RewardLoopWorker

/-- The outputs with the score of the last one written into it. -/
def computeScore [Field K] [LinearOrder K] (rewardLoopWorker : Option (RewardLoopWorker K))
    (processor : Option (Processor K)) (outputs : List (AgentLoopOutput K)) (kwargs : Dict K) :
    Except Failure (List (AgentLoopOutput K)) :=
  match outputs.getLast?, rewardLoopWorker with
  | none, _ => .error .indexError
  | some finalOutput, some worker =>
    if finalOutput.rewardScore.isSome then .ok outputs
    else do
      let result ← worker.computeScore (← scoreBatch processor outputs kwargs)
      match result.rewardExtraInfo with
      | none => throw (.keyError "reward_extra_info")
      | some info =>
        let scored := { finalOutput with rewardScore := some result.rewardScore,
                                         extraFields := insert "reward_extra_info" (.dict info) finalOutput.extraFields }
        return outputs.dropLast ++ [scored]
  | some _, none => .ok outputs

end LLMFusion.RewardLoop
