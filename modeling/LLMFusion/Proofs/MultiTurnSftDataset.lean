import LLMFusion.MultiTurnSftDataset
import Mathlib.Algebra.Order.BigOperators.Group.List
import Mathlib.Algebra.Order.Group.Nat

/-! The tokens of a conversation against the template: which conversations come out as the template renders them, with a loss
mask on the responses alone. -/

namespace LLMFusion.MultiTurnSftDataset
open List
open Fallible

variable {Media Tools Value : Type}

/-! ### The format of a conversation -/

/-- A default system prompt, the generation prompt and the tokens of a message; those of an assistant start with the
generation prompt. -/
structure Format (Media Tools Value : Type) where
  defaultSystemPrompt : Option Tools → List Nat
  generationPrompt : List Nat
  rendering : ApplyChatTemplateKwargs Value → Message Media → List Nat
  starts : ∀ kwargs message, message.role = "assistant" → generationPrompt <+: rendering kwargs message

namespace Format
variable (format : Format Media Tools Value)

/-- The default system prompt, unless the first message is a system message. -/
def opening (tools : Option Tools) (messages : List (Message Media)) : List Nat :=
  if messages.head?.map Message.role = some "system" then [] else format.defaultSystemPrompt tools

def conversation (tools : Option Tools) (kwargs : ApplyChatTemplateKwargs Value)
    (messages : List (Message Media)) : List Nat :=
  format.opening tools messages ++ messages.flatMap (format.rendering kwargs)

/-- What a template of this format renders. -/
def Describes (template : ChatTemplate Media Tools Value) : Prop :=
  ∀ messages, messages ≠ [] → ∀ addGenerationPrompt tools kwargs, ∃ inputs,
    template messages addGenerationPrompt tools kwargs = some inputs ∧
      inputs.inputIds = format.conversation tools kwargs messages ++
        if addGenerationPrompt then format.generationPrompt else []

/-- One on the tokens of an assistant after the generation prompt. -/
def responseMask (kwargs : ApplyChatTemplateKwargs Value) (message : Message Media) : List Nat :=
  let size := (format.rendering kwargs message).length
  if message.role = "assistant" then
    List.replicate format.generationPrompt.length 0 ++ List.replicate (size - format.generationPrompt.length) 1
  else List.replicate size 0

def trainedMask (tools : Option Tools) (kwargs : ApplyChatTemplateKwargs Value)
    (messages : List (Message Media)) : List Nat :=
  List.replicate (format.opening tools messages).length 0 ++ messages.flatMap (format.responseMask kwargs)

/-! ### The prompts that are found -/

/-- What the probes find of the default system prompt: nothing when an empty user message has no tokens. -/
def probed (kwargs : ApplyChatTemplateKwargs Value) : List Nat :=
  if format.rendering kwargs emptyUser = [] then [] else format.defaultSystemPrompt none

variable {format} {template : ChatTemplate Media Tools Value}

theorem Describes.inputIds (describes : format.Describes template) {messages : List (Message Media)}
    (some : messages ≠ []) (tools : Option Tools) (kwargs : ApplyChatTemplateKwargs Value) :
    ∃ inputs, template messages false tools kwargs = .some inputs ∧
        inputs.inputIds = format.conversation tools kwargs messages := by
  obtain ⟨inputs, rendered, ids⟩ := describes messages some false tools kwargs
  exact ⟨inputs, rendered, ids.trans (append_nil _)⟩

theorem opening_system (tools : Option Tools) {message : Message Media} (system : message.role = "system")
    (messages : List (Message Media)) : format.opening tools (message :: messages) = [] :=
  if_pos (congrArg some system)

theorem opening_other (tools : Option Tools) {message : Message Media} (other : message.role ≠ "system")
    (messages : List (Message Media)) : format.opening tools (message :: messages) = format.defaultSystemPrompt tools :=
  if_neg (fun same => other (Option.some.inj same))

theorem emptyUser_role : (emptyUser : Message Media).role ≠ "system" :=
  fun same => absurd (show "user" = "system" from same) (by decide)

theorem extractSystemPrompt (describes : format.Describes template) (kwargs : ApplyChatTemplateKwargs Value) :
    extractSystemPromptAndGeneration template kwargs = some (format.probed kwargs, format.generationPrompt) := by
  obtain ⟨token1, rendered1, ids1⟩ := describes.inputIds (cons_ne_nil emptyUser []) none kwargs
  obtain ⟨token2, rendered2, ids2⟩ := describes.inputIds (cons_ne_nil emptyUser [emptyUser]) none kwargs
  obtain ⟨token3, rendered3, ids3⟩ := describes [emptyUser] (cons_ne_nil _ _) true none kwargs
  have short : format.conversation none kwargs [emptyUser] = format.defaultSystemPrompt none ++
      format.rendering kwargs emptyUser := by
    rw [conversation, opening_other none emptyUser_role, flatMap_singleton]
  have long : format.conversation none kwargs [emptyUser, emptyUser] =
      format.defaultSystemPrompt none ++ format.rendering kwargs emptyUser ++
          format.rendering kwargs emptyUser := by
    rw [conversation, opening_other none emptyUser_role, flatMap_cons, flatMap_singleton,
      append_assoc]
  rw [short] at ids1
  rw [long] at ids2
  have generation : token3.inputIds.drop token1.inputIds.length = format.generationPrompt := by
    rw [ids3, short, ids1, if_pos rfl, drop_left]
  have system : Indexing.between token1.inputIds 0
    (-((token2.inputIds.length : Int) - token1.inputIds.length)) =
      format.probed kwargs := by
    have size : ((token2.inputIds.length : Int) - token1.inputIds.length) =
        (format.rendering kwargs emptyUser).length := by
      rw [ids2, length_append, ids1]
      omega
    rw [size, Indexing.between, probed]
    split
    · next none =>
      rw [none]
      rfl
    · next tokens =>
      have positive := length_pos_iff.mpr tokens
      have stop : Indexing.bound token1.inputIds.length (-((format.rendering kwargs emptyUser).length : Int)) =
          (format.defaultSystemPrompt none).length := by
        rw [Indexing.bound, if_pos (by omega), ids1, length_append]
        omega
      rw [stop, ids1, take_left]
      rfl
  simp only [extractSystemPromptAndGeneration, rendered1, rendered2, rendered3, Option.bind_eq_bind,
    Option.bind_some]
  rw [generation, system]
  rfl

end Format

/-! ### One message -/

def maskOf (generationSize : Nat) (message : Message Media) (size : Nat) : List Nat :=
  if message.role = "assistant" then
    List.replicate (min generationSize size) 0 ++ List.replicate (size - generationSize) 1
  else List.replicate size 0

/-- A message after the first one, without as many tokens as the system prompt has. -/
def Format.later (format : Format Media Tools Value) (systemPrompt : List Nat)
    (kwargs : ApplyChatTemplateKwargs Value)
    (message : Message Media) : List Nat :=
  if message.role = "system" then format.rendering kwargs message
  else (format.defaultSystemPrompt none ++ format.rendering kwargs message).drop systemPrompt.length

structure Tokens.Of (tokens : Tokens) (generationSize : Nat) (message : Message Media) (ids : List Nat) :
    Prop where
  inputIds : tokens.inputIds = ids
  lossMask : tokens.lossMask = maskOf generationSize message ids.length
  attentionMask : tokens.attentionMask.length = ids.length

theorem fill_ones (size stop : Nat) : Slices.fill (replicate size 1) 0 stop 0 = replicate (min stop size) 0 ++
        replicate (size - stop) 1 := by
  rw [Slices.fill, take_zero, nil_append, length_replicate, Nat.sub_zero, Nat.zero_max,
    drop_replicate]

namespace Dataset
variable {dataset : Dataset Media Tools Value} {format : Format Media Tools Value}

theorem process_of {systemPrompt generationPrompt : List Nat} {index : Nat} {message : Message Media}
    {tools : Option Tools}
    {enableThinking : Option Bool} {inputs : Inputs}
    (rendered : dataset.template [message] false tools (dataset.kwargs enableThinking) = some inputs)
      {inputIds : List Nat}
    (cut : (if index ≠ 0 ∧ message.role ≠ "system" then inputs.drop systemPrompt.length else inputs).inputIds =
      inputIds) :
    ∃ result, dataset.processSingleMessage systemPrompt generationPrompt index message tools enableThinking =
      .ok result ∧
      result.1.Of generationPrompt.length message inputIds := by
  subst cut
  have template : applyChatTemplate dataset.template [message] false tools (dataset.kwargs enableThinking) =
      some inputs := by
    rw [applyChatTemplate, rendered]
  rw [processSingleMessage, template]
  refine ⟨_, rfl, rfl, ?_, Inputs.aligned _⟩
  rw [maskOf, fill_ones, Inputs.aligned]

theorem process_first (describes : format.Describes dataset.template) (systemPrompt : List Nat)
    (message : Message Media) (tools : Option Tools) (enableThinking : Option Bool) :
    ∃ result, dataset.processSingleMessage systemPrompt format.generationPrompt 0 message tools enableThinking =
      .ok result ∧ result.1.Of format.generationPrompt.length message
          (format.conversation tools (dataset.kwargs enableThinking) [message]) := by
  obtain ⟨inputs, rendered, ids⟩ := describes.inputIds (cons_ne_nil message []) tools
    (dataset.kwargs enableThinking)
  exact process_of rendered (by rw [if_neg (fun later => later.1 rfl), ids])

theorem process_later (describes : format.Describes dataset.template) (systemPrompt : List Nat) {index : Nat}
    (after : index ≠ 0) (message : Message Media) (enableThinking : Option Bool) :
    ∃ result, dataset.processSingleMessage systemPrompt format.generationPrompt index message none enableThinking = .ok result ∧
      result.1.Of format.generationPrompt.length message
        (format.later systemPrompt (dataset.kwargs enableThinking) message) := by
  obtain ⟨inputs, rendered, ids⟩ := describes.inputIds (cons_ne_nil message []) none
    (dataset.kwargs enableThinking)
  refine process_of rendered ?_
  rw [Format.conversation, flatMap_singleton] at ids
  rw [Format.later]
  by_cases system : message.role = "system"
  · rw [if_neg (fun cut => cut.2 system), if_pos system, ids, Format.opening_system none system,
    nil_append]
  · rw [if_pos ⟨after, system⟩, if_neg system, ← Format.opening_other none system [], ← ids]
    rfl

end Dataset

/-! ### The whole conversation -/

theorem maskOf_length (generationSize : Nat) (message : Message Media) (size : Nat) :
    (maskOf generationSize message size).length = size := by
  rw [maskOf]
  split
  · rw [length_append, length_replicate, length_replicate]
    omega
  · exact length_replicate

section Parts
variable {generationSize : Nat} {ids : Message Media → List Nat} {messages : List (Message Media)}
  {results : List (Tokens × List (String × Feature))}
  (processed : List.Forall₂ (fun message result => result.1.Of generationSize message
    (ids message)) messages results)

include processed in
theorem flatMap_inputIds : (results.map Prod.fst).flatMap Tokens.inputIds = messages.flatMap ids := by
  induction processed with
  | nil => rfl
  | cons one _ ih => rw [map_cons, flatMap_cons, flatMap_cons, one.inputIds, ih]

include processed in
theorem flatMap_lossMask : (results.map Prod.fst).flatMap Tokens.lossMask =
    messages.flatMap (fun message => maskOf generationSize message (ids message).length) := by
  induction processed with
  | nil => rfl
  | cons one _ ih => rw [map_cons, flatMap_cons, flatMap_cons, one.lossMask, ih]

include processed in
theorem flatMap_attentionMask : ((results.map Prod.fst).flatMap Tokens.attentionMask).length =
    (messages.flatMap ids).length := by
  induction processed with
  | nil => rfl
  | cons one _ ih =>
    rw [map_cons, flatMap_cons, flatMap_cons, length_append, length_append,
      one.attentionMask, ih]

end Parts

theorem flatMap_maskOf (generationSize : Nat) (ids : Message Media → List Nat) (messages : List (Message Media)) :
    (messages.flatMap (fun message => maskOf generationSize message (ids message).length)).length =
      (messages.flatMap ids).length := by
  simp only [length_flatMap, maskOf_length]

variable {rest : List (Message Media)} {first : Message Media}

theorem catTokens_of {generationSize : Nat} {firstIds : List Nat}
    {ids : Message Media → List Nat} {result : Tokens × List (String × Feature)}
      {results : List (Tokens × List (String × Feature))} (one : result.1.Of generationSize first firstIds)
    (others : List.Forall₂ (fun message result => result.1.Of generationSize message (ids message)) rest results) :
    ∃ tokens, catTokens ((result :: results).map Prod.fst) = .ok tokens ∧
      tokens.inputIds = firstIds ++ rest.flatMap ids ∧ tokens.lossMask = maskOf generationSize first firstIds.length ++
        rest.flatMap (fun message => maskOf generationSize message (ids message).length) ∧
      tokens.lossMask.length = tokens.inputIds.length ∧ tokens.attentionMask.length = tokens.inputIds.length := by
  let tokens : Tokens := ⟨result.1.inputIds ++ (results.map Prod.fst).flatMap Tokens.inputIds,
    result.1.lossMask ++ (results.map Prod.fst).flatMap Tokens.lossMask,
    result.1.attentionMask ++ (results.map Prod.fst).flatMap Tokens.attentionMask⟩
  have inputIds : tokens.inputIds = firstIds ++ rest.flatMap ids := by
    rw [← one.inputIds, ← flatMap_inputIds others]
  have lossMask : tokens.lossMask = maskOf generationSize first firstIds.length ++
      rest.flatMap (fun message => maskOf generationSize message (ids message).length) := by
    rw [← one.lossMask, ← flatMap_lossMask others]
  have lossLength : tokens.lossMask.length = tokens.inputIds.length := by
    rw [lossMask, inputIds, length_append, length_append, maskOf_length, flatMap_maskOf]
  have attentionLength : tokens.attentionMask.length = tokens.inputIds.length := by
    rw [inputIds, length_append, length_append, one.attentionMask, flatMap_attentionMask others]
  refine ⟨tokens, ?_, inputIds, lossMask, lossLength, attentionLength⟩
  rw [map_cons, catTokens, if_neg (cons_ne_nil _ _)]
  exact if_pos ⟨lossLength.symm, lossLength.trans attentionLength.symm⟩

/-- As many places in each tensor. -/
structure Sample.Aligned (sample : Sample) : Prop where
  lossMask : sample.tokens.lossMask.length = sample.tokens.inputIds.length
  attentionMask : sample.tokens.attentionMask.length = sample.tokens.inputIds.length
  positionIds : ∀ row ∈ sample.positionIds, row.length = sample.tokens.inputIds.length

namespace Dataset
variable {dataset : Dataset Media Tools Value} {format : Format Media Tools Value}

theorem processMessages_first (describes : format.Describes dataset.template) (systemPrompt : List Nat)
    {row : Row Media Tools} (messages : row.messages = first :: rest) :
    ∃ result results, dataset.processMessages systemPrompt format.generationPrompt row = .ok (result :: results) ∧
      result.1.Of format.generationPrompt.length first
        (format.conversation row.tools (dataset.kwargs (dataset.enableThinking row)) [first]) ∧
      List.Forall₂ (fun message result => result.1.Of format.generationPrompt.length message
        (format.later systemPrompt (dataset.kwargs (dataset.enableThinking row)) message)) rest results := by
  obtain ⟨result, processed, one⟩ := process_first describes systemPrompt first row.tools
    (dataset.enableThinking row)
  obtain ⟨results, loop, related⟩ := mapM_ok
    (fun (entry : Message Media × Nat) => dataset.processSingleMessage systemPrompt format.generationPrompt entry.2 entry.1
      (if entry.2 = 0 then row.tools else none) (dataset.enableThinking row))
    (fun (entry : Message Media × Nat) result => result.1.Of format.generationPrompt.length entry.1
      (format.later systemPrompt (dataset.kwargs (dataset.enableThinking row)) entry.1))
    (show ∀ entry ∈ rest.zipIdx 1, _ by
      intro entry member
      have after : entry.2 ≠ 0 := Nat.ne_of_gt (mem_zipIdx member).1
      rw [if_neg after]
      exact process_later describes systemPrompt after entry.1 (dataset.enableThinking row))
  refine ⟨result, results, ?_, one, ?_⟩
  · rw [processMessages, messages, zipIdx_cons, mapM_cons, if_pos rfl, processed, ok_bind]
    exact congrArg (· >>= _) loop
  · rw [← zipIdx_map_fst 1 rest]
    exact forall₂_map_left_iff.mpr related

theorem positionIds_length (tokens : Tokens) (multiModalInputs : List (String × Feature)) :
    ∀ row ∈ dataset.positionIds tokens multiModalInputs, row.length = tokens.inputIds.length := by
  intro row member
  rw [positionIds] at member
  split at member
  · rw [mem_singleton.mp member, length_range]
  · next rope _ =>
    rcases mem_cons.mp member with rfl | vision
    · exact length_range
    · exact rope.aligned _ _ _ _ _ row vision

theorem tokenize_first (tokenizer : format.Describes dataset.tokenizer) (template : format.Describes dataset.template)
    {row : Row Media Tools} (messages : row.messages = first :: rest) :
    ∃ sample, dataset.tokenize row = .ok sample ∧ sample.Aligned ∧
      sample.tokens.inputIds = format.conversation row.tools (dataset.kwargs (dataset.enableThinking row)) [first] ++
        rest.flatMap (format.later (format.probed dataset.applyChatTemplateKwargs)
          (dataset.kwargs (dataset.enableThinking row))) ∧
      sample.tokens.lossMask = maskOf format.generationPrompt.length first
          (format.conversation row.tools (dataset.kwargs (dataset.enableThinking row)) [first]).length ++
        rest.flatMap (fun message => maskOf format.generationPrompt.length message
          (format.later (format.probed dataset.applyChatTemplateKwargs)
              (dataset.kwargs (dataset.enableThinking row)) message).length) := by
  obtain ⟨result, results, processed, one, others⟩ := processMessages_first template
    (format.probed dataset.applyChatTemplateKwargs) messages
  obtain ⟨tokens, concatenated, inputIds, lossMask, lossLength, attentionLength⟩ := catTokens_of one others
  let multiModalInputs := concatInputs ((result :: results).flatMap Prod.snd)
  refine ⟨⟨tokens, multiModalInputs, dataset.positionIds tokens multiModalInputs⟩, ?_,
    ⟨lossLength, attentionLength, positionIds_length tokens multiModalInputs⟩, inputIds, lossMask⟩
  simp only [tokenize, Format.extractSystemPrompt tokenizer, processed, concatenated, ok_bind]
  rfl

end Dataset

/-! ### Which conversations come out -/

namespace Format
variable {format : Format Media Tools Value}

theorem conversation_cons (tools : Option Tools) (kwargs : ApplyChatTemplateKwargs Value) (first : Message Media)
    (rest : List (Message Media)) : format.conversation tools kwargs (first :: rest) =
      format.conversation tools kwargs [first] ++ rest.flatMap (format.rendering kwargs) := by
  rw [conversation, conversation, flatMap_cons, flatMap_singleton, append_assoc]
  rfl

theorem later_length (systemPrompt : List Nat) (short : systemPrompt.length ≤ (format.defaultSystemPrompt none).length)
    (kwargs : ApplyChatTemplateKwargs Value) (message : Message Media) :
    (format.rendering kwargs message).length ≤ (format.later systemPrompt kwargs message).length := by
  rw [later]
  split
  · exact Nat.le_refl _
  · rw [length_drop, length_append]
    omega

theorem flatMap_exact {f g : Message Media → List Nat} {messages : List (Message Media)}
    (longer : ∀ message ∈ messages, (g message).length ≤ (f message).length)
      (same : messages.flatMap f = messages.flatMap g) :
    ∀ message ∈ messages, (f message).length = (g message).length := by
  induction messages with
  | nil => exact fun message member => (not_mem_nil member).elim
  | cons first rest ih =>
    have here := longer first mem_cons_self
    have behind := fun message member => longer message (mem_cons_of_mem _ member)
    have parts : (rest.flatMap g).length ≤ (rest.flatMap f).length := by
      rw [length_flatMap, length_flatMap]
      exact sum_le_sum behind
    have total := congrArg List.length same
    rw [flatMap_cons, flatMap_cons, length_append, length_append] at total
    have equal : (f first).length = (g first).length := by omega
    rw [flatMap_cons, flatMap_cons] at same
    intro message member
    rcases mem_cons.mp member with rfl | later
    · exact equal
    · exact ih behind (append_inj_right same equal) message later

/-- The later messages come out exactly when nothing is put before them or what is put there is found. -/
theorem later_iff (found kwargs : ApplyChatTemplateKwargs Value) (rest : List (Message Media)) :
    rest.flatMap (format.later (format.probed found) kwargs) = rest.flatMap (format.rendering kwargs) ↔
      format.defaultSystemPrompt none = [] ∨ format.rendering found emptyUser ≠ [] ∨
          ∀ message ∈ rest, message.role = "system" := by
  by_cases tokens : format.rendering found emptyUser = []
  · have probed : format.probed found = [] := if_pos tokens
    rw [probed]
    constructor
    · intro same
      have lengths := flatMap_exact (fun message _ => later_length [] (Nat.zero_le _) kwargs message) same
      by_cases nothing : format.defaultSystemPrompt none = []
      · exact .inl nothing
      · refine .inr (.inr (fun message member => ?_))
        by_contra other
        have size := lengths message member
        rw [later, if_neg other, length_nil, drop_zero, length_append] at size
        exact nothing (length_eq_zero_iff.mp (by omega))
    · rintro (nothing | visible | system)
      · refine flatMap_congr (fun message _ => ?_)
        rw [later, nothing]
        exact ite_self _
      · exact (visible tokens).elim
      · exact flatMap_congr (fun message member => if_pos (system message member))
  · have probed : format.probed found = format.defaultSystemPrompt none := if_neg tokens
    rw [probed]
    refine iff_of_true (flatMap_congr (fun message _ => ?_)) (.inr (.inl tokens))
    rw [later, drop_left]
    exact ite_self _

theorem responseMask_eq (kwargs : ApplyChatTemplateKwargs Value) (message : Message Media) :
    format.responseMask kwargs message =
      maskOf format.generationPrompt.length message (format.rendering kwargs message).length := by
  rw [responseMask, maskOf]
  split
  · next assistant => rw [Nat.min_eq_left (format.starts kwargs message assistant).length_le]
  · rfl

/-- The mask of the first message is that of its response exactly when an assistant gets no system prompt. -/
theorem firstMask_iff (tools : Option Tools) (kwargs : ApplyChatTemplateKwargs Value) (first : Message Media) :
    maskOf format.generationPrompt.length first (format.conversation tools kwargs [first]).length =
        replicate (format.opening tools [first]).length 0 ++ format.responseMask kwargs first ↔
      (first.role = "assistant" → format.defaultSystemPrompt tools = []) := by
  have size : (format.conversation tools kwargs [first]).length =
      (format.opening tools [first]).length + (format.rendering kwargs first).length := by
    rw [conversation, flatMap_singleton, length_append]
  by_cases assistant : first.role = "assistant"
  · have other : first.role ≠ "system" := fun system => absurd (assistant.symm.trans system) (by decide)
    have starts := (format.starts kwargs first assistant).length_le
    rw [opening_other tools other] at size ⊢
    rw [forall_prop_of_true assistant, responseMask_eq, size]
    constructor
    · intro same
      have ones := congrArg (count 1) same
      simp only [maskOf, if_pos assistant, count_append, count_replicate] at ones
      exact length_eq_zero_iff.mp (by simp at ones; omega)
    · intro nothing
      rw [nothing]
      simp
  · refine iff_of_true ?_ (fun is => (assistant is).elim)
    rw [maskOf, if_neg assistant, responseMask, if_neg assistant, size, replicate_add]

end Format

/-! ### Padding and truncation -/

/-- The values from a place on, and blank ones behind them. -/
def Window (offset blank : Nat) (before after : List Nat) : Prop :=
  ∀ place < after.length, after[place]? = some (before[offset + place]?.getD blank)

theorem window_drop (offset blank : Nat) (items : List Nat) : Window offset blank items (items.drop offset) := by
  intro place inside
  rw [length_drop] at inside
  rw [List.getElem?_drop, List.getElem?_eq_getElem (by omega), Option.getD_some]

theorem window_same (blank : Nat) (items : List Nat) : Window 0 blank items items := window_drop 0 blank items

theorem window_take (count blank : Nat) (items : List Nat) : Window 0 blank items (items.take count) := by
  intro place inside
  rw [length_take] at inside
  rw [List.getElem?_take_of_lt (by omega), Nat.zero_add, List.getElem?_eq_getElem (by omega), Option.getD_some]

theorem window_pad (missing blank : Nat) (items : List Nat) :
    Window 0 blank items (items ++ replicate missing blank) := by
  intro place inside
  rw [length_append, length_replicate] at inside
  rw [Nat.zero_add]
  by_cases before : place < items.length
  · rw [List.getElem?_append_left before, List.getElem?_eq_getElem before, Option.getD_some]
  · rw [List.getElem?_append_right (by omega), List.getElem?_replicate, if_pos (by omega),
    List.getElem?_eq_none (by omega),
      Option.getD_none]

/-- Every tensor has the same places of the sample, and blanks in the same places. -/
structure Item.Aligned (item : Item) (sample : Sample) (padTokenId : Nat) : Prop where
  lossMask : item.lossMask.length = item.inputIds.length
  attentionMask : ∀ mask, item.attentionMask = some mask → mask.length = item.inputIds.length
  positionIds : ∀ row ∈ item.positionIds, row.length = item.inputIds.length
  window : ∃ offset, Window offset padTokenId sample.tokens.inputIds item.inputIds ∧
    Window offset 0 sample.tokens.lossMask item.lossMask ∧
    (∀ mask, item.attentionMask = some mask → Window offset 0 sample.tokens.attentionMask mask) ∧
    List.Forall₂ (Window offset 0) sample.positionIds item.positionIds

/-- Every tensor of the item is cut in one way from that of the sample. -/
structure Item.Cut (item : Item) (sample : Sample) (padTokenId : Nat) (cut : Nat → List Nat → List Nat)
    (offset size : Nat) :
    Prop where
  window : ∀ blank items, items.length = sample.tokens.inputIds.length →
    Window offset blank items (cut blank items)
  sized : ∀ blank items, items.length = sample.tokens.inputIds.length → (cut blank items).length = size
  inputIds : item.inputIds = cut padTokenId sample.tokens.inputIds
  lossMask : item.lossMask = cut 0 sample.tokens.lossMask
  attentionMask : ∀ mask, item.attentionMask = some mask → mask = cut 0 sample.tokens.attentionMask
  positionIds : item.positionIds = sample.positionIds.map (cut 0)

variable {sample : Sample}

theorem Item.Cut.length {item : Item} {padTokenId offset size : Nat} {cut : Nat → List Nat → List Nat}
    (cuts : item.Cut sample padTokenId cut offset size) : item.inputIds.length = size :=
  (congrArg List.length cuts.inputIds).trans (cuts.sized _ _ rfl)

theorem Item.Cut.aligned {item : Item} {padTokenId offset size : Nat} {cut : Nat → List Nat → List Nat}
    (cuts : item.Cut sample padTokenId cut offset size) (aligned : sample.Aligned) : item.Aligned sample padTokenId := by
  refine ⟨?_, ?_, ?_, offset, ?_, ?_, ?_, ?_⟩
  · rw [cuts.length, cuts.lossMask, cuts.sized _ _ aligned.lossMask]
  · intro mask attended
    rw [cuts.length, cuts.attentionMask mask attended, cuts.sized _ _ aligned.attentionMask]
  · intro row member
    rw [cuts.positionIds] at member
    obtain ⟨before, listed, rfl⟩ := mem_map.mp member
    rw [cuts.length, cuts.sized _ _ (aligned.positionIds before listed)]
  · rw [cuts.inputIds]
    exact cuts.window _ _ rfl
  · rw [cuts.lossMask]
    exact cuts.window _ _ aligned.lossMask
  · intro mask attended
    rw [cuts.attentionMask mask attended]
    exact cuts.window _ _ aligned.attentionMask
  · rw [cuts.positionIds, forall₂_map_right_iff, forall₂_same]
    exact fun row member => cuts.window _ _ (aligned.positionIds row member)

theorem fromIndex_last (items : List Nat) (count : Nat) :
    Indexing.fromIndex items (-(count : Int)) = items.drop (if count = 0 then 0 else items.length - count) := by
  split
  · next none =>
    subst none
    rfl
  · next some => exact Indexing.fromIndex_neg items (Nat.pos_of_ne_zero some)

namespace Dataset
variable {dataset : Dataset Media Tools Value}

theorem padOrTruncate_cut {item : Item} (returned : dataset.padOrTruncate sample = .ok item) :
    ∃ cut offset size, item.Cut sample (dataset.padTokenId.getD 0) cut offset size ∧
      (dataset.padMode = .right → 0 < dataset.maxLength → size = dataset.maxLength) := by
  have attended : ∀ {mask mask' : List Nat}, some mask = some mask' → mask' = mask :=
    fun same => (Option.some.inj same).symm
  have taken : ∀ items : List Nat, items.length = sample.tokens.inputIds.length →
    dataset.maxLength < sample.tokens.inputIds.length →
      (items.take dataset.maxLength).length = dataset.maxLength := by
    intro items same long
    rw [length_take, same]
    omega
  rw [padOrTruncate] at returned
  split at returned
  · split at returned
    · next short =>
      cases returned
      refine ⟨fun blank items => items ++ replicate
        (dataset.maxLength - sample.tokens.inputIds.length) blank, 0,
        dataset.maxLength, ⟨fun blank items _ => window_pad _ blank items, ?_, rfl, rfl, fun _ => attended,
          rfl⟩, fun _ _ => rfl⟩
      intro blank items same
      rw [length_append, length_replicate, same]
      omega
    · split at returned
      · next long =>
        split at returned
        · cases returned
          refine ⟨fun _ items => Indexing.fromIndex items (-(dataset.maxLength : Int)),
            if dataset.maxLength = 0 then 0 else sample.tokens.inputIds.length - dataset.maxLength,
            if dataset.maxLength = 0 then sample.tokens.inputIds.length else dataset.maxLength,
            ⟨?_, ?_, rfl, rfl, fun _ => attended, rfl⟩, fun _ positive => if_neg (Nat.ne_of_gt positive)⟩
          · intro blank items same
            rw [fromIndex_last, same]
            exact window_drop _ blank items
          · intro _ items same
            rw [fromIndex_last, length_drop, same]
            split <;> omega
        · cases returned
          exact ⟨fun _ => take dataset.maxLength, 0, dataset.maxLength,
            ⟨fun blank items _ => window_take _ blank items,
            fun _ items same => taken items same long, rfl, rfl, fun _ => attended, rfl⟩, fun _ _ => rfl⟩
        · cases returned
      · next exact fits =>
        cases returned
        refine ⟨fun _ items => items, 0, sample.tokens.inputIds.length,
          ⟨fun blank items _ => window_same blank items,
          fun _ items same => same, rfl, rfl, fun _ => attended, (map_id _).symm⟩, fun _ _ => ?_⟩
        omega
  · next other =>
    have apart : ∀ {same : Prop}, dataset.padMode = .right → same := by
      intro same right
      rw [right] at other
      cases other
    split at returned
    · next long =>
      split at returned
      · cases returned
      · cases returned
        exact ⟨fun _ => take dataset.maxLength, 0, dataset.maxLength,
          ⟨fun blank items _ => window_take _ blank items,
          fun _ items same => taken items same long, rfl, rfl, fun _ none => (by cases none), rfl⟩,
            fun _ _ => rfl⟩
    · cases returned
      exact ⟨fun _ items => items, 0, sample.tokens.inputIds.length,
        ⟨fun blank items _ => window_same blank items,
        fun _ items same => same, rfl, rfl, fun _ none => (by cases none), (map_id _).symm⟩, apart⟩
  · cases returned

theorem padOrTruncate_returns (right : dataset.padMode = .right)
    (fits : dataset.truncation = .error → sample.tokens.inputIds.length ≤ dataset.maxLength) :
    ∃ item, dataset.padOrTruncate sample = .ok item := by
  simp only [padOrTruncate, right]
  split
  · exact ⟨_, rfl⟩
  · split
    · next long =>
      cases truncation : dataset.truncation with
      | error => exact absurd (fits truncation) (Nat.not_le_of_gt long)
      | left => exact ⟨_, rfl⟩
      | right => exact ⟨_, rfl⟩
    · exact ⟨_, rfl⟩

end Dataset

/-! ### What the data set returns -/

/-- The tokens are those of the whole conversation, and the loss mask is one on the responses alone. -/
structure Sample.Rendered (sample : Sample) (format : Format Media Tools Value) (tools : Option Tools)
    (kwargs : ApplyChatTemplateKwargs Value) (messages : List (Message Media)) : Prop where
  inputIds : sample.tokens.inputIds = format.conversation tools kwargs messages
  lossMask : sample.tokens.lossMask = format.trainedMask tools kwargs messages

/-- There is a first message; it is not one of an assistant that is put behind a system prompt; and the system prompt of the
later messages is found, if there is one. -/
def Format.Assembles (format : Format Media Tools Value) (found : ApplyChatTemplateKwargs Value)
    (row : Row Media Tools) : Prop :=
  ∃ first rest, row.messages = first :: rest ∧
    (first.role = "assistant" → format.defaultSystemPrompt row.tools = []) ∧
    (format.defaultSystemPrompt none = [] ∨ format.rendering found emptyUser ≠ [] ∨
      ∀ message ∈ rest, message.role = "system")

namespace Format
variable {format : Format Media Tools Value}

theorem probed_length (found : ApplyChatTemplateKwargs Value) :
    (format.probed found).length ≤ (format.defaultSystemPrompt none).length := by
  rw [probed]
  split
  · exact Nat.zero_le _
  · exact Nat.le_refl _

theorem later_masks {found kwargs : ApplyChatTemplateKwargs Value}
    (same : rest.flatMap (format.later (format.probed found) kwargs) = rest.flatMap (format.rendering kwargs)) :
    rest.flatMap (fun message => maskOf format.generationPrompt.length message
      (format.later (format.probed found) kwargs message).length) = rest.flatMap (format.responseMask kwargs) := by
  have lengths := flatMap_exact (fun message _ => later_length _ (probed_length found) kwargs message) same
  refine flatMap_congr (fun message member => ?_)
  rw [lengths message member, responseMask_eq]

theorem trainedMask_cons (tools : Option Tools) (kwargs : ApplyChatTemplateKwargs Value) (first : Message Media)
    (rest : List (Message Media)) : format.trainedMask tools kwargs (first :: rest) =
      replicate (format.opening tools [first]).length 0 ++ format.responseMask kwargs first ++
        rest.flatMap (format.responseMask kwargs) := by
  rw [trainedMask, flatMap_cons, append_assoc]
  rfl

end Format

theorem Sample.rendered_iff {format : Format Media Tools Value} {tools : Option Tools}
    {found kwargs : ApplyChatTemplateKwargs Value} (inputIds : sample.tokens.inputIds =
      format.conversation tools kwargs [first] ++ rest.flatMap (format.later (format.probed found) kwargs))
    (lossMask : sample.tokens.lossMask =
      maskOf format.generationPrompt.length first (format.conversation tools kwargs [first]).length ++
        rest.flatMap (fun message => maskOf format.generationPrompt.length message
          (format.later (format.probed found) kwargs message).length)) :
    sample.Rendered format tools kwargs (first :: rest) ↔
      (first.role = "assistant" → format.defaultSystemPrompt tools = []) ∧
        (format.defaultSystemPrompt none = [] ∨ format.rendering found emptyUser ≠ [] ∨
          ∀ message ∈ rest, message.role = "system") := by
  rw [← Format.firstMask_iff tools kwargs first, ← Format.later_iff found kwargs rest]
  constructor
  · rintro ⟨ids, mask⟩
    rw [inputIds, Format.conversation_cons tools kwargs first rest] at ids
    have same := append_cancel_left ids
    rw [lossMask, Format.later_masks same, Format.trainedMask_cons] at mask
    exact ⟨append_cancel_right mask, same⟩
  · rintro ⟨firstMask, same⟩
    constructor
    · rw [inputIds, same, Format.conversation_cons tools kwargs first rest]
    · rw [lossMask, Format.later_masks same, firstMask, Format.trainedMask_cons]

namespace Dataset
variable {dataset : Dataset Media Tools Value} {format : Format Media Tools Value}

theorem tokenize_iff (tokenizer : format.Describes dataset.tokenizer)
    (template : format.Describes dataset.template)
    (row : Row Media Tools) :
    (∃ sample, dataset.tokenize row = .ok sample ∧ sample.Aligned ∧
      sample.Rendered format row.tools (dataset.kwargs (dataset.enableThinking row)) row.messages ∧
      (∀ item, dataset.getItem row = .ok item → item.Aligned sample (dataset.padTokenId.getD 0) ∧
        (dataset.padMode = .right → 0 < dataset.maxLength → item.inputIds.length = dataset.maxLength)) ∧
      (dataset.padMode = .right → (dataset.truncation = .error →
        sample.tokens.inputIds.length ≤ dataset.maxLength) →
        ∃ item, dataset.getItem row = .ok item)) ↔ format.Assembles dataset.applyChatTemplateKwargs row := by
  constructor
  · rintro ⟨sample, tokenized, _, rendered, _⟩
    cases messages : row.messages with
    | nil =>
      simp only [tokenize, Format.extractSystemPrompt tokenizer, processMessages, messages] at tokenized
      cases tokenized
    | cons first rest =>
      obtain ⟨sample', tokenized', _, inputIds, lossMask⟩ := tokenize_first tokenizer template messages
      rw [tokenized] at tokenized'
      cases tokenized'
      rw [messages] at rendered
      exact ⟨first, rest, messages, (Sample.rendered_iff inputIds lossMask).mp rendered⟩
  · rintro ⟨first, rest, messages, condition⟩
    obtain ⟨sample, tokenized, aligned, inputIds, lossMask⟩ := tokenize_first tokenizer template messages
    have rendered := (Sample.rendered_iff inputIds lossMask).mpr condition
    rw [← messages] at rendered
    have returned : dataset.getItem row = dataset.padOrTruncate sample := by
      obtain ⟨inputs, whole, ids⟩ := template.inputIds (messages ▸ List.cons_ne_nil first rest) row.tools
        (dataset.kwargs (dataset.enableThinking row))
      have checked : dataset.sanityCheck sample.tokens.inputIds row = .ok () := by
        simp only [sanityCheck, whole]
        exact if_pos (.inl (rendered.inputIds.trans ids.symm))
      rw [getItem, tokenized, ok_bind, checked, ok_bind]
    refine ⟨sample, tokenized, aligned, rendered, ?_, ?_⟩
    · intro item kept
      rw [returned] at kept
      obtain ⟨cut, offset, size, cuts, sized⟩ := padOrTruncate_cut kept
      exact ⟨cuts.aligned aligned, fun right positive => cuts.length.trans (sized right positive)⟩
    · intro right fits
      rw [returned]
      exact padOrTruncate_returns right fits

end Dataset

/-! ### A conversation that an assistant starts -/

/-- The template of a format. -/
def Format.template (format : Format Media Tools Value) : ChatTemplate Media Tools Value :=
  fun messages addGenerationPrompt tools kwargs =>
    let inputIds := format.conversation tools kwargs messages ++
      if addGenerationPrompt then format.generationPrompt else []
    some ⟨inputIds, List.replicate inputIds.length 1, List.length_replicate, []⟩

theorem Format.template_describes (format : Format Media Tools Value) : format.Describes format.template :=
  fun _ _ _ _ _ => ⟨_, rfl, rfl⟩

def plainRendering (_ : ApplyChatTemplateKwargs Unit) (message : Message Unit) : List Nat :=
  if message.role = "assistant" then [4, 5, 7] else [6]

theorem plainRendering_starts (kwargs : ApplyChatTemplateKwargs Unit) (message : Message Unit)
    (assistant : message.role = "assistant") : [4, 5] <+: plainRendering kwargs message := by
  rw [plainRendering, if_pos assistant]
  exact ⟨[7], rfl⟩

/-- A system prompt of three tokens and a generation prompt of two. -/
def plainFormat : Format Unit Unit Unit := ⟨fun _ => [1, 2, 3], [4, 5], plainRendering, plainRendering_starts⟩

def plainDataset : Dataset Unit Unit Unit where
  tokenizer := plainFormat.template
  processor := none
  padTokenId := none
  ropeIndex := none
  applyChatTemplateKwargs := ⟨none, ()⟩
  enableThinkingDefault := none
  padMode := .right
  truncation := .left
  maxLength := 4
  ignoreInputIdsMismatch := false

def message (role : String) : Message Unit := ⟨role, .text "Hello!"⟩

def greeting : Row Unit Unit := ⟨[message "assistant"], none, none⟩

def dialogue : Row Unit Unit := ⟨[message "user", message "assistant", message "system", message "assistant"],
    none, none⟩

theorem tokenize_dialogue : ∃ sample, plainDataset.tokenize dialogue = .ok sample ∧ sample.Aligned ∧
    sample.Rendered plainFormat none ⟨none, ()⟩ dialogue.messages := by
  have assembles : plainFormat.Assembles plainDataset.applyChatTemplateKwargs dialogue :=
    ⟨message "user", [message "assistant", message "system", message "assistant"], rfl, by decide,
      .inr (.inl (by decide))⟩
  obtain ⟨sample, tokenized, aligned, rendered, _⟩ := (Dataset.tokenize_iff
    (show plainFormat.Describes plainDataset.tokenizer from plainFormat.template_describes)
    (show plainFormat.Describes plainDataset.template from plainFormat.template_describes) dialogue).mpr assembles
  exact ⟨sample, tokenized, aligned, rendered⟩

/-- The last token of the system prompt and the generation prompt are trained. -/
theorem tokenize_greeting : plainFormat.Describes plainDataset.tokenizer ∧
    plainFormat.Describes plainDataset.template ∧
    ¬ ∃ sample, plainDataset.tokenize greeting = .ok sample ∧
      sample.Rendered plainFormat none ⟨none, ()⟩ greeting.messages := by
  refine ⟨plainFormat.template_describes, plainFormat.template_describes, ?_⟩
  rintro ⟨sample, tokenized, rendered⟩
  have trained : plainDataset.tokenize greeting =
      .ok ⟨⟨[1, 2, 3, 4, 5, 7], [0, 0, 1, 1, 1, 1], [1, 1, 1, 1, 1, 1]⟩, [], [[0, 1, 2, 3, 4, 5]]⟩ := rfl
  rw [trained] at tokenized
  cases tokenized
  exact absurd rendered.lossMask (by decide)

end LLMFusion.MultiTurnSftDataset
