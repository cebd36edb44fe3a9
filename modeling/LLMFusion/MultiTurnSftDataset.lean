import LLMFusion.Lib.Dictionary
import LLMFusion.Lib.Fallible
import LLMFusion.Lib.Grouping
import LLMFusion.Lib.Indexing
import LLMFusion.Lib.Slices

/-! The data set of conversations for supervised fine-tuning. Every message is tokenized by itself; what the chat template
puts before it is cut off by the length of the system prompt, which is found from two probes. -/

namespace LLMFusion.MultiTurnSftDataset

inductive Part (Media : Type) where
  | text (text : String)
  | image (image : Media)
  | video (video : Media)

inductive Content (Media : Type) where
  | text (text : String)
  | parts (parts : List (Part Media))

structure Message (Media : Type) where
  role : String
  content : Content Media

/-- What `apply_chat_template` is called with beside the messages. -/
structure ApplyChatTemplateKwargs (Value : Type) where
  enableThinking : Option Bool
  others : Value

/-- A tensor by its rows; `shape` is that of a row. -/
structure Feature where
  shape : List Nat
  rows : List (List Int)

/-- The tokens of a conversation, their mask and the other inputs of the model but `mm_token_type_ids`, which is dropped. -/
structure Inputs where
  inputIds : List Nat
  attentionMask : List Nat
  aligned : attentionMask.length = inputIds.length
  others : List (String × Feature)

/-- `apply_chat_template` of a tokenizer or a processor; `none` when it raises. -/
abbrev ChatTemplate (Media Tools Value : Type) :=
  (messages : List (Message Media)) → (addGenerationPrompt : Bool) → (tools : Option Tools) →
    (applyChatTemplateKwargs : ApplyChatTemplateKwargs Value) → Option Inputs

variable {Media Tools Value : Type}

/-! ### Chat templates -/

namespace Inputs

theorem drop_aligned (inputs : Inputs) (prefixLen : Nat) :
    (inputs.attentionMask.drop prefixLen).length = (inputs.inputIds.drop prefixLen).length := by
  rw [List.length_drop, List.length_drop, inputs.aligned]

/-- Without the first tokens. -/
def drop (inputs : Inputs) (prefixLen : Nat) : Inputs where
  inputIds := inputs.inputIds.drop prefixLen
  attentionMask := inputs.attentionMask.drop prefixLen
  aligned := inputs.drop_aligned prefixLen
  others := inputs.others

end Inputs

/-- `[{"role": "user", "content": ""}]` -/
def emptyUser : Message Media := ⟨"user", .text ""⟩

def dummyUserMessage : Message Media := ⟨"user", .parts [.text ""]⟩

/-- Some templates need a user message: one is put before the messages and cut off again. -/
def applyChatTemplate (processor : ChatTemplate Media Tools Value) (messages : List (Message Media))
    (addGenerationPrompt : Bool) (tools : Option Tools) (kwargs : ApplyChatTemplateKwargs Value) :
      Option Inputs :=
  match processor messages addGenerationPrompt tools kwargs with
  | some inputs => some inputs
  | none => do
    let dummyUserPrefix ← processor [dummyUserMessage] false tools kwargs
    let output ← processor (dummyUserMessage :: messages) addGenerationPrompt tools kwargs
    return output.drop dummyUserPrefix.inputIds.length

/-- The system prompt and the generation prompt. -/
def extractSystemPromptAndGeneration (tokenizer : ChatTemplate Media Tools Value)
    (kwargs : ApplyChatTemplateKwargs Value) :
    Option (List Nat × List Nat) := do
  let token1 ← tokenizer [emptyUser] false none kwargs
  let token2 ← tokenizer [emptyUser, emptyUser] false none kwargs
  let systemPrompt := Indexing.between token1.inputIds 0
    (-((token2.inputIds.length : Int) - token1.inputIds.length))
  let token3 ← tokenizer [emptyUser] true none kwargs
  let generatePrompt := token3.inputIds.drop token1.inputIds.length
  return (systemPrompt, generatePrompt)

/-! ### The data set -/

inductive DatasetPadMode where
  | right
  | leftRight
  | noPadding

inductive Truncation where
  | error
  | left
  | right

inductive Failure where
  | chatTemplate
  /-- `torch.cat` of nothing -/
  | noMessages
  | shapeMismatch
  | inputIdsMismatch
  | tooLong
  | unknownPadMode

/-- `get_rope_index`; every row has a position for each token. -/
structure RopeIndex where
  index : (inputIds : List Nat) → (imageGridThw videoGridThw secondPerGridTs : Option Feature) →
    (attentionMask : List Nat) →
    List (List Nat)
  aligned : ∀ inputIds images videos seconds mask, ∀ row ∈ index inputIds images videos seconds mask,
    row.length = inputIds.length

structure Dataset (Media Tools Value : Type) where
  tokenizer : ChatTemplate Media Tools Value
  processor : Option (ChatTemplate Media Tools Value)
  padTokenId : Option Nat
  /-- For the processors of Qwen-VL. -/
  ropeIndex : Option RopeIndex
  applyChatTemplateKwargs : ApplyChatTemplateKwargs Value
  enableThinkingDefault : Option Bool
  padMode : DatasetPadMode
  truncation : Truncation
  maxLength : Nat
  ignoreInputIdsMismatch : Bool

structure Row (Media Tools : Type) where
  messages : List (Message Media)
  tools : Option Tools
  /-- `none` without the column. -/
  enableThinking : Option (Option Bool)

/-- The tokens of one message or of some messages behind each other. -/
structure Tokens where
  inputIds : List Nat
  lossMask : List Nat
  attentionMask : List Nat

structure Sample where
  tokens : Tokens
  multiModalInputs : List (String × Feature)
  positionIds : List (List Nat)

structure Item where
  inputIds : List Nat
  attentionMask : Option (List Nat)
  positionIds : List (List Nat)
  lossMask : List Nat
  multiModalInputs : Option (List (String × Feature))

namespace Dataset
variable (dataset : Dataset Media Tools Value)

def template : ChatTemplate Media Tools Value := dataset.processor.getD dataset.tokenizer

def kwargs (enableThinking : Option Bool) : ApplyChatTemplateKwargs Value :=
  match enableThinking with
  | none => dataset.applyChatTemplateKwargs
  | some enableThinking => { dataset.applyChatTemplateKwargs with enableThinking := some enableThinking }

def enableThinking (row : Row Media Tools) : Option Bool :=
  row.enableThinking.getD dataset.enableThinkingDefault

def processSingleMessage (systemPrompt generationPrompt : List Nat) (index : Nat) (message : Message Media)
    (tools : Option Tools) (enableThinking : Option Bool) : Except Failure (Tokens × List (String × Feature)) :=
  match applyChatTemplate dataset.template [message] false tools (dataset.kwargs enableThinking) with
  | none => .error .chatTemplate
  | some inputs =>
    let inputs := if index ≠ 0 ∧ message.role ≠ "system" then inputs.drop systemPrompt.length else inputs
    let lossMask :=
      if message.role = "assistant" then
        -- mask out generation prompt if assistant message
        Slices.fill (List.replicate inputs.attentionMask.length 1) 0 generationPrompt.length 0
      else List.replicate inputs.attentionMask.length 0
    .ok (⟨inputs.inputIds, lossMask, inputs.attentionMask⟩, inputs.others)

/-- Every message by itself; only the first one is given the tools. -/
def processMessages (systemPrompt generationPrompt : List Nat) (row : Row Media Tools) :
    Except Failure (List (Tokens × List (String × Feature))) :=
  row.messages.zipIdx.mapM (fun entry =>
    dataset.processSingleMessage systemPrompt generationPrompt entry.2 entry.1
      (if entry.2 = 0 then row.tools else none)
      (dataset.enableThinking row))

/-- The tokens of the whole conversation against those of its messages. -/
def sanityCheck (inputIds : List Nat) (row : Row Media Tools) : Except Failure Unit :=
  match dataset.template row.messages false row.tools (dataset.kwargs (dataset.enableThinking row)) with
  | none => .error .chatTemplate
  | some inputs =>
    if inputIds = inputs.inputIds ∨ dataset.ignoreInputIdsMismatch then .ok () else .error .inputIdsMismatch

def positionIds (tokens : Tokens) (multiModalInputs : List (String × Feature)) : List (List Nat) :=
  let textPositionIds := List.range tokens.inputIds.length
  match dataset.ropeIndex with
  | none => [textPositionIds]
  | some rope =>
    textPositionIds :: rope.index tokens.inputIds (Dictionary.get multiModalInputs "image_grid_thw")
      (Dictionary.get multiModalInputs "video_grid_thw") (Dictionary.get multiModalInputs "second_per_grid_ts")
      tokens.attentionMask

end Dataset

/-- The inputs of all messages by their name; those whose shapes do not fit are left out. -/
def concatInputs (inputs : List (String × Feature)) : List (String × Feature) :=
  let kept := (Grouping.collect inputs).filter (fun entry =>
    entry.2.all (fun feature => decide (some feature.shape = (entry.2.head?.map Feature.shape))))
  kept.map (fun entry => (entry.1, ⟨(entry.2.head?.map Feature.shape).getD [], entry.2.flatMap Feature.rows⟩))

/-- `torch.cat` of the parts -/
def catTokens (parts : List Tokens) : Except Failure Tokens :=
  if parts = [] then .error .noMessages
  else
    let tokens : Tokens := ⟨parts.flatMap Tokens.inputIds, parts.flatMap Tokens.lossMask,
      parts.flatMap Tokens.attentionMask⟩
    if tokens.inputIds.length = tokens.lossMask.length ∧
      tokens.lossMask.length = tokens.attentionMask.length then .ok tokens
    else .error .shapeMismatch

namespace Dataset
variable (dataset : Dataset Media Tools Value)

/-- The first two steps of `__getitem__`, without the sanity check. -/
def tokenize (row : Row Media Tools) : Except Failure Sample :=
  match extractSystemPromptAndGeneration dataset.tokenizer dataset.applyChatTemplateKwargs with
  | none => .error .chatTemplate
  | some prompts => do
    let parts ← dataset.processMessages prompts.1 prompts.2 row
    let tokens ← catTokens (parts.map Prod.fst)
    let multiModalInputs := concatInputs (parts.flatMap Prod.snd)
    return ⟨tokens, multiModalInputs, dataset.positionIds tokens multiModalInputs⟩

/-- The third step of `__getitem__`. -/
def padOrTruncate (sample : Sample) : Except Failure Item :=
  let tokens := sample.tokens
  let multiModalInputs := if sample.multiModalInputs = [] then none else some sample.multiModalInputs
  let maxLength := dataset.maxLength
  let sequenceLength := tokens.inputIds.length
  match dataset.padMode with
  | .right =>
    if sequenceLength < maxLength then
      let missing := maxLength - sequenceLength
      .ok
        { inputIds := tokens.inputIds ++ List.replicate missing (dataset.padTokenId.getD 0)
          attentionMask := some (tokens.attentionMask ++ List.replicate missing 0)
          positionIds := sample.positionIds.map (· ++ List.replicate missing 0)
          lossMask := tokens.lossMask ++ List.replicate missing 0
          multiModalInputs := multiModalInputs }
    else if maxLength < sequenceLength then
      match dataset.truncation with
      | .left =>
        .ok
          { inputIds := Indexing.fromIndex tokens.inputIds (-maxLength)
            attentionMask := some (Indexing.fromIndex tokens.attentionMask (-maxLength))
            positionIds := sample.positionIds.map (Indexing.fromIndex · (-maxLength))
            lossMask := Indexing.fromIndex tokens.lossMask (-maxLength)
            multiModalInputs := multiModalInputs }
      | .right =>
        .ok
          { inputIds := tokens.inputIds.take maxLength
            attentionMask := some (tokens.attentionMask.take maxLength)
            positionIds := sample.positionIds.map (List.take maxLength)
            lossMask := tokens.lossMask.take maxLength
            multiModalInputs := multiModalInputs }
      | .error => .error .tooLong
    else
      .ok ⟨tokens.inputIds, some tokens.attentionMask, sample.positionIds, tokens.lossMask, multiModalInputs⟩
  | .noPadding =>
    if maxLength < sequenceLength then
      match dataset.truncation with
      | .error => .error .tooLong
      | _ =>
        .ok
          { inputIds := tokens.inputIds.take maxLength
            attentionMask := none
            positionIds := sample.positionIds.map (List.take maxLength)
            lossMask := tokens.lossMask.take maxLength
            multiModalInputs := multiModalInputs }
    else .ok ⟨tokens.inputIds, none, sample.positionIds, tokens.lossMask, multiModalInputs⟩
  | .leftRight => .error .unknownPadMode

/-- `__getitem__` -/
def getItem (row : Row Media Tools) : Except Failure Item := do
  let sample ← dataset.tokenize row
  dataset.sanityCheck sample.tokens.inputIds row
  dataset.padOrTruncate sample

end Dataset

end LLMFusion.MultiTurnSftDataset
