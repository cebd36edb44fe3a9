import LLMFusion.Replica
import LLMFusion.Lib.Indexing
import LLMFusion.Lib.Runs

/-! The tool agent loop. A prompt is answered by the server, the tools that the answer
calls are run and their responses are appended as tokens, until nothing is called or a
limit is reached. -/

namespace LLMFusion.ToolAgentLoop
open Runs Replica

inductive AgentState where
  | pending
  | generating
  | processingTools
  | terminated
  deriving DecidableEq, Repr

inductive Failure where
  | noProcessor
  | videoNotSupported
  | promptTooLong
  deriving DecidableEq, Repr

structure FunctionCall where
  name : String
  arguments : String
  deriving DecidableEq, Repr

inductive Part where
  | image
  | video
  | text (text : String)
  deriving DecidableEq, Repr

inductive Content where
  | text (text : String)
  | parts (parts : List Part)
  deriving DecidableEq, Repr

structure Message where
  role : String
  content : Content
  deriving DecidableEq, Repr

/-- An image of a list may be `None`. -/
structure ToolResponse (ι : Type) where
  text : Option String
  image : Option (List (Option ι))
  video : Option (List ι)

structure AgentData (τ ρ κ ι : Type) where
  messages : List Message
  imageData : Option (List ι)
  numPreempted : Option Int
  promptIds : List τ
  responseIds : List τ
  responseMask : List Nat
  responseLogprobs : List ρ
  turnScores : List ρ
  toolRewards : List ρ
  userTurns : Nat
  assistantTurns : Nat
  toolCalls : List FunctionCall
  routedExperts : Option (List κ)
  extraFields : List (String × Option Int)

/-- `AgentData.__init__` -/
def AgentData.initial {τ ρ κ ι : Type} (messages : List Message) (imageData : Option (List ι)) : AgentData τ ρ κ ι where
  messages := messages
  imageData := imageData
  numPreempted := none
  promptIds := []
  responseIds := []
  responseMask := []
  responseLogprobs := []
  turnScores := []
  toolRewards := []
  userTurns := 0
  assistantTurns := 0
  toolCalls := []
  routedExperts := none
  extraFields := []

/-- The limits of the loop, the tool parser, the tokenizer and the chat template. -/
structure Config (τ ι : Type) where
  maxUserTurns : Option Nat
  maxAssistantTurns : Option Nat
  maxParallelCalls : Nat
  responseLength : Nat
  toolParserName : String
  imageProcessor : Bool
  extractToolCalls : List τ → List FunctionCall
  encode : String → List τ
  str : Content → String
  applyChatTemplate : List Message → Option (List ι) → Except Failure (List τ)

variable {τ ρ κ ι : Type}

/-- A limit that is `None` or zero is not set. -/
def reached (limit : Option Nat) (turns : Nat) : Bool :=
  match limit with
  | none => false
  | some limit => limit ≠ 0 && limit ≤ turns

def specDecodeExtraKeys : List String :=
  ["spec_num_draft_tokens", "spec_num_accepted_tokens", "spec_num_verify_steps"]

/-- The counts are numbers where they are given. -/
def addExtraField (output : List (String × Option Int)) (extraFields : List (String × Option Int)) (key : String) :
    List (String × Option Int) :=
  match output.lookup key, extraFields.lookup key with
  | some (some more), some (some count) => Indexing.insert key (some (count + more)) extraFields
  | _, _ => extraFields

/-- The first output sets the fields; a later one sets the newest step and adds to the
counts. -/
def mergeExtraFields (extraFields output : List (String × Option Int)) : List (String × Option Int) :=
  if extraFields.isEmpty then output
  else
    let maxGlobalSteps := ((output.lookup "max_global_steps").getD none).getD 0
    let updated := if maxGlobalSteps ≠ 0 then Indexing.insert "max_global_steps" (some maxGlobalSteps) extraFields
      else extraFields
    specDecodeExtraKeys.foldl (addExtraField output) updated

def handlePendingState (agentData : AgentData τ ρ κ ι) (promptIds : List τ) : AgentState × AgentData τ ρ κ ι :=
  (.generating, { agentData with promptIds := promptIds })

/-- The data with an output of the server. -/
def addOutput (agentData : AgentData τ ρ κ ι) (output : TokenOutput τ ρ κ) : AgentData τ ρ κ ι :=
  { agentData with
    numPreempted := match agentData.numPreempted with
      | none => some (output.numPreempted.getD (-1))
      | some numPreempted => some (numPreempted + output.numPreempted.getD 0)
    extraFields := mergeExtraFields agentData.extraFields output.extraFields
    assistantTurns := agentData.assistantTurns + 1
    responseIds := output.tokenIds
    promptIds := agentData.promptIds ++ output.tokenIds
    responseMask := agentData.responseMask ++ List.replicate output.tokenIds.length 1
    responseLogprobs := agentData.responseLogprobs ++ output.logProbs.getD []
    routedExperts := match output.routedExperts with
      | some routedExperts => some routedExperts
      | none => agentData.routedExperts }

def handleGeneratingState (config : Config τ ι) (ignoreTermination : Bool) (agentData : AgentData τ ρ κ ι)
    (output : TokenOutput τ ρ κ) : AgentState × AgentData τ ρ κ ι :=
  let agentData := addOutput agentData output
  if ignoreTermination = false ∧ config.responseLength ≤ agentData.responseMask.length then (.terminated, agentData)
  else if reached config.maxAssistantTurns agentData.assistantTurns then (.terminated, agentData)
  else if reached config.maxUserTurns agentData.userTurns then (.terminated, agentData)
  else
    let agentData := { agentData with toolCalls := config.extractToolCalls agentData.responseIds }
    if agentData.toolCalls.isEmpty then (.terminated, agentData) else (.processingTools, agentData)

/-! ### Tools -/

/-- What the responses of the tools of a turn add. -/
structure ToolTurn (ρ ι : Type) where
  addMessages : List Message
  newImages : List ι
  toolRewards : List ρ

/-- `if tool_response.image`, `if tool_response.video` -/
def present {α : Type} (items : Option (List α)) : Bool := !(items.getD []).isEmpty

def contentOf (response : ToolResponse ι) : Content :=
  if present response.image || present response.video then
    .parts ((if present response.image then [.image] else []) ++ (if present response.video then [.video] else []) ++
      match response.text with
      | some text => if text.isEmpty then [] else [.text text]
      | none => [])
  else .text (response.text.getD "")

def addToolResponse (config : Config τ ι) (turn : ToolTurn ρ ι) (result : ToolResponse ι × Option ρ) :
    Except Failure (ToolTurn ρ ι) :=
  if (present result.1.image || present result.1.video) && !config.imageProcessor then .error .noProcessor
  else if present result.1.video then .error .videoNotSupported
  else .ok {
    addMessages := turn.addMessages ++ [⟨"tool", contentOf result.1⟩]
    newImages := turn.newImages ++ (result.1.image.getD []).reduceOption
    toolRewards := turn.toolRewards ++ result.2.toList }

/-- The tool calls of a turn that are run. -/
def toolCallsRun (config : Config τ ι) (agentData : AgentData τ ρ κ ι) : List FunctionCall :=
  agentData.toolCalls.take config.maxParallelCalls

def formatGptOss (toolResponse toolCallName : String) : String :=
  "<|start|>functions." ++ toolCallName ++ " to=assistant<|channel|>commentary<|message|>" ++ toolResponse ++ "<|end|>"

/-- `build_gpt_oss_tool_response_text` -/
def buildGptOssToolResponseText (str : Content → String) (messages : List Message) (toolCallNames : List String) : String :=
  String.join ((messages.zip toolCallNames).map (fun entry => formatGptOss (str entry.1.content) entry.2)) ++
    "<|start|>assistant"

/-- The texts of the parts. -/
def plainText : Content → String
  | .text text => text
  | .parts parts => String.join (parts.filterMap (fun
    | .text text => some text
    | _ => none))

def formatGemma (content toolCallName : String) : String :=
  "<|tool_response>response:" ++ toolCallName ++ "\x7bvalue:<|\"|>" ++ content ++ "<|\"|>\x7d<tool_response|>"

def buildGemmaToolResponseText (messages : List Message) (toolCallNames : List String) : String :=
  String.join ((messages.zip toolCallNames).map (fun entry => formatGemma (plainText entry.1.content) entry.2))

/-- The tokens of the responses. -/
def toolResponseIds (config : Config τ ι) (addMessages : List Message) (toolCallNames : List String)
    (newImages : List ι) : Except Failure (List τ) :=
  if config.toolParserName = "gpt-oss" then
    .ok (config.encode (buildGptOssToolResponseText config.str addMessages toolCallNames))
  else if config.toolParserName = "gemma4" then .ok (config.encode (buildGemmaToolResponseText addMessages toolCallNames))
  else config.applyChatTemplate addMessages (if newImages.isEmpty then none else some newImages)

/-- What the tools of a turn have done, before the limit is looked at. -/
structure Answered (τ ρ κ ι : Type) where
  agentData : AgentData τ ρ κ ι
  newImages : List ι
  responseIds : List τ

def answerToolCalls (config : Config τ ι) (agentData : AgentData τ ρ κ ι) (results : List (ToolResponse ι × Option ρ)) :
    Except Failure (Answered τ ρ κ ι) := do
  let turn ← results.foldlM (addToolResponse config) ⟨[], [], []⟩
  let responseIds ← toolResponseIds config turn.addMessages ((toolCallsRun config agentData).map FunctionCall.name)
    turn.newImages
  return {
    agentData := { agentData with
      messages := agentData.messages ++ turn.addMessages
      toolRewards := agentData.toolRewards ++ turn.toolRewards }
    newImages := turn.newImages
    responseIds := responseIds }

def addToolTokens [Zero ρ] (config : Config τ ι) (answered : Answered τ ρ κ ι) : AgentState × AgentData τ ρ κ ι :=
  let agentData := answered.agentData
  if config.responseLength ≤ agentData.responseMask.length + answered.responseIds.length then (.terminated, agentData)
  else (.generating, { agentData with
    imageData := if answered.newImages.isEmpty then agentData.imageData
      else some (agentData.imageData.getD [] ++ answered.newImages)
    promptIds := agentData.promptIds ++ answered.responseIds
    responseMask := agentData.responseMask ++ List.replicate answered.responseIds.length 0
    responseLogprobs := if agentData.responseLogprobs.isEmpty then agentData.responseLogprobs
      else agentData.responseLogprobs ++ List.replicate answered.responseIds.length 0
    userTurns := agentData.userTurns + 1 })

def handleProcessingToolsState [Zero ρ] (config : Config τ ι) (agentData : AgentData τ ρ κ ι)
    (results : List (ToolResponse ι × Option ρ)) : Except Failure (AgentState × AgentData τ ρ κ ι) := do
  let answered ← answerToolCalls config agentData results
  return addToolTokens config answered

/-! ### The loop -/

structure AgentLoopOutput (τ ρ κ ι : Type) where
  promptIds : List τ
  responseIds : List τ
  responseMask : List Nat
  multiModalData : Option (List ι)
  responseLogprobs : Option (List ρ)
  numTurns : Nat
  numPreempted : Option Int
  routedExperts : Option (List κ)
  turnScores : List ρ
  toolRewards : List ρ
  extraFields : List (String × Option Int)

/-- The output of the loop when it has ended. -/
def finalize (config : Config τ ι) (agentData : AgentData τ ρ κ ι) : AgentLoopOutput τ ρ κ ι :=
  let responseIds := Indexing.fromIndex agentData.promptIds (-(agentData.responseMask.length : Int))
  let promptIds := agentData.promptIds.take (agentData.promptIds.length - agentData.responseMask.length)
  { promptIds := promptIds
    responseIds := responseIds.take config.responseLength
    responseMask := agentData.responseMask.take config.responseLength
    multiModalData := agentData.imageData
    responseLogprobs := if agentData.responseLogprobs.isEmpty then none
      else some (agentData.responseLogprobs.take config.responseLength)
    numTurns := agentData.userTurns + agentData.assistantTurns + 1
    numPreempted := agentData.numPreempted
    routedExperts := agentData.routedExperts.map (fun rows => rows.take (promptIds.length + config.responseLength))
    turnScores := agentData.turnScores
    toolRewards := agentData.toolRewards
    extraFields := agentData.extraFields }

/-- What the loop waits for: the prompt, an output of the server, the responses of the
tools. The tokens that the responses are turned into are kept with them when they are
appended. -/
inductive Event (τ ρ κ ι : Type) where
  | prompt (promptIds : List τ)
  | output (output : TokenOutput τ ρ κ)
  | responses (results : List (ToolResponse ι × Option ρ)) (responseIds : List τ)
  | refused (results : List (ToolResponse ι × Option ρ))

/-- An iteration of the loop. -/
inductive Step [Zero ρ] (config : Config τ ι) :
    AgentState × AgentData τ ρ κ ι → Event τ ρ κ ι → AgentState × AgentData τ ρ κ ι → Prop where
  | prompt {agentData : AgentData τ ρ κ ι} (promptIds : List τ) :
      Step config (.pending, agentData) (.prompt promptIds) (handlePendingState agentData promptIds)
  | output {agentData : AgentData τ ρ κ ι} (output : TokenOutput τ ρ κ) :
      Step config (.generating, agentData) (.output output) (handleGeneratingState config false agentData output)
  | responses {agentData next : AgentData τ ρ κ ι} {answered : Answered τ ρ κ ι}
      {results : List (ToolResponse ι × Option ρ)} (each : results.length = (toolCallsRun config agentData).length)
      (answers : answerToolCalls config agentData results = .ok answered)
      (fits : addToolTokens config answered = (.generating, next)) :
      Step config (.processingTools, agentData) (.responses results answered.responseIds) (.generating, next)
  | refused {agentData next : AgentData τ ρ κ ι} {answered : Answered τ ρ κ ι}
      {results : List (ToolResponse ι × Option ρ)} (each : results.length = (toolCallsRun config agentData).length)
      (answers : answerToolCalls config agentData results = .ok answered)
      (exceeds : addToolTokens config answered = (.terminated, next)) :
      Step config (.processingTools, agentData) (.refused results) (.terminated, next)

/-- A run of the loop on the messages of a sample. -/
def Runs [Zero ρ] (config : Config τ ι) (messages : List Message) (imageData : Option (List ι))
    (events : List (Event τ ρ κ ι)) (state : AgentState) (agentData : AgentData τ ρ κ ι) : Prop :=
  Run (Step config) (.pending, AgentData.initial messages imageData) events (state, agentData)

end LLMFusion.ToolAgentLoop
