import LLMFusion.ToolAgentLoop
import LLMFusion.Lib.Fallible
import Mathlib

/-! What every run of the tool agent loop keeps. The tokens behind the prompt are those
of the server and of the tools in their order, and each has its place in the mask. -/

namespace LLMFusion.ToolAgentLoop
open Runs Replica List

variable {τ ρ κ ι : Type}

/-! ### The tokens of a run -/

/-- The tokens that an event appends, and whether they are from the server. -/
def Event.entries : Event τ ρ κ ι → List (τ × Bool)
  | .prompt _ => []
  | .output generated => generated.tokenIds.map (fun token => (token, true))
  | .responses _ responseIds => responseIds.map (fun token => (token, false))
  | .refused _ => []

def Event.logprobs [Zero ρ] : Event τ ρ κ ι → List ρ
  | .prompt _ => []
  | .output generated => generated.logProbs.getD []
  | .responses _ responseIds => List.replicate responseIds.length 0
  | .refused _ => []

def Event.isOutput : Event τ ρ κ ι → Bool
  | .output _ => true
  | _ => false

/-- The number of generations of a run. -/
def generations (events : List (Event τ ρ κ ι)) : Nat := events.countP Event.isOutput

/-- The data holds the prompt and the tokens of the events; the mask is one on the
tokens of the server and zero on those of the tools. -/
structure Follows (prompt : List τ) (events : List (Event τ ρ κ ι)) (agentData : AgentData τ ρ κ ι) : Prop where
  promptIds : agentData.promptIds = prompt ++ (events.flatMap Event.entries).map Prod.fst
  responseMask : agentData.responseMask = (events.flatMap Event.entries).map (fun entry => if entry.2 then 1 else 0)

/-! ### What a step does -/

section Steps
variable {config : Config τ ι} {agentData : AgentData τ ρ κ ι}

theorem handleGeneratingState_spec (config : Config τ ι) (agentData : AgentData τ ρ κ ι) (output : TokenOutput τ ρ κ) :
    ∃ toolCalls, (handleGeneratingState config false agentData output).2 =
        { addOutput agentData output with toolCalls := toolCalls } ∧
      ((handleGeneratingState config false agentData output).1 = .terminated ∨
        (handleGeneratingState config false agentData output).1 = .processingTools ∧
        (addOutput agentData output).responseMask.length < config.responseLength ∧
        config.extractToolCalls output.tokenIds ≠ []) := by
  simp only [handleGeneratingState]
  split
  · exact ⟨_, rfl, Or.inl rfl⟩
  · rename_i within
    split
    · exact ⟨_, rfl, Or.inl rfl⟩
    · split
      · exact ⟨_, rfl, Or.inl rfl⟩
      · split
        · exact ⟨_, rfl, Or.inl rfl⟩
        · rename_i calls
          refine ⟨_, rfl, Or.inr ⟨rfl, ?_, ?_⟩⟩
          · simpa using within
          · simpa [addOutput] using calls

theorem answerToolCalls_keeps {results : List (ToolResponse ι × Option ρ)} {answered : Answered τ ρ κ ι}
    (answers : answerToolCalls config agentData results = .ok answered) :
    answered.agentData.promptIds = agentData.promptIds ∧ answered.agentData.responseMask = agentData.responseMask ∧
      answered.agentData.responseLogprobs = agentData.responseLogprobs := by
  rw [answerToolCalls] at answers
  obtain ⟨turn, _, answers⟩ := Fallible.bind_eq_ok.mp answers
  obtain ⟨responseIds, _, answers⟩ := Fallible.bind_eq_ok.mp answers
  cases answers
  exact ⟨rfl, rfl, rfl⟩

variable [Zero ρ] {answered : Answered τ ρ κ ι} {next : AgentData τ ρ κ ι}

theorem addToolTokens_generating (fits : addToolTokens config answered = (.generating, next)) :
    next.promptIds = answered.agentData.promptIds ++ answered.responseIds ∧
      next.responseMask = answered.agentData.responseMask ++ replicate answered.responseIds.length 0 ∧
      next.responseLogprobs = (if answered.agentData.responseLogprobs.isEmpty then answered.agentData.responseLogprobs
        else answered.agentData.responseLogprobs ++ replicate answered.responseIds.length 0) ∧
      next.responseMask.length < config.responseLength := by
  simp only [addToolTokens] at fits
  split at fits
  · cases fits
  · rename_i within
    cases fits
    refine ⟨rfl, rfl, rfl, ?_⟩
    simpa using within

theorem addToolTokens_terminated (exceeds : addToolTokens config answered = (.terminated, next)) :
    next = answered.agentData := by
  simp only [addToolTokens] at exceeds
  split at exceeds
  · cases exceeds
    rfl
  · cases exceeds

/-- What an iteration does to the tokens, the mask and the log-probs. -/
inductive Effect (config : Config τ ι) (agentData : AgentData τ ρ κ ι) :
    AgentState → Event τ ρ κ ι → AgentState × AgentData τ ρ κ ι → Prop where
  | prompt (promptIds : List τ) : Effect config agentData .pending (.prompt promptIds)
      (.generating, { agentData with promptIds := promptIds })
  | ended (output : TokenOutput τ ρ κ) (toolCalls : List FunctionCall) :
      Effect config agentData .generating (.output output)
        (.terminated, { addOutput agentData output with toolCalls := toolCalls })
  | called (output : TokenOutput τ ρ κ) (toolCalls : List FunctionCall)
      (within : (addOutput agentData output).responseMask.length < config.responseLength)
      (calls : config.extractToolCalls output.tokenIds ≠ []) :
      Effect config agentData .generating (.output output)
        (.processingTools, { addOutput agentData output with toolCalls := toolCalls })
  | responses (results : List (ToolResponse ι × Option ρ)) (responseIds : List τ) (next : AgentData τ ρ κ ι)
      (promptIds : next.promptIds = agentData.promptIds ++ responseIds)
      (responseMask : next.responseMask = agentData.responseMask ++ List.replicate responseIds.length 0)
      (logprobs : next.responseLogprobs = if agentData.responseLogprobs.isEmpty then agentData.responseLogprobs
        else agentData.responseLogprobs ++ List.replicate responseIds.length 0)
      (within : next.responseMask.length < config.responseLength) :
      Effect config agentData .processingTools (.responses results responseIds) (.generating, next)
  | refused (results : List (ToolResponse ι × Option ρ)) (next : AgentData τ ρ κ ι)
      (promptIds : next.promptIds = agentData.promptIds) (responseMask : next.responseMask = agentData.responseMask)
      (logprobs : next.responseLogprobs = agentData.responseLogprobs) :
      Effect config agentData .processingTools (.refused results) (.terminated, next)

theorem step_effect {state : AgentState} {event : Event τ ρ κ ι} {next : AgentState × AgentData τ ρ κ ι}
    (taken : Step config (state, agentData) event next) : Effect config agentData state event next := by
  cases taken with
  | prompt promptIds => exact .prompt promptIds
  | output output =>
    obtain ⟨toolCalls, isData, isEnd | ⟨goes, within, calls⟩⟩ :=
      handleGeneratingState_spec config agentData output
    · rw [← Prod.eta (handleGeneratingState config false agentData output), isData, isEnd]
      exact .ended output toolCalls
    · rw [← Prod.eta (handleGeneratingState config false agentData output), isData, goes]
      exact .called output toolCalls within calls
  | responses each answers fits =>
    obtain ⟨promptIds, responseMask, logprobs⟩ := answerToolCalls_keeps answers
    obtain ⟨promptIds', responseMask', logprobs', within⟩ := addToolTokens_generating fits
    rw [promptIds] at promptIds'
    rw [responseMask] at responseMask'
    rw [logprobs] at logprobs'
    exact .responses _ _ _ promptIds' responseMask' logprobs' within
  | refused each answers exceeds =>
    obtain ⟨promptIds, responseMask, logprobs⟩ := answerToolCalls_keeps answers
    have same := addToolTokens_terminated exceeds
    exact .refused _ _ (same ▸ promptIds) (same ▸ responseMask) (same ▸ logprobs)

end Steps

/-! ### Runs -/

section Invariants
variable [Zero ρ] {config : Config τ ι} {messages : List Message} {imageData : Option (List ι)}
  {events : List (Event τ ρ κ ι)} {state : AgentState} {agentData : AgentData τ ρ κ ι}

/-- A run that has not begun is at its initial state; one that has begun starts with the
prompt, and the rest is as described. -/
def Begun (holds : List τ → List (Event τ ρ κ ι) → AgentState → AgentData τ ρ κ ι → Prop)
    (initial : AgentData τ ρ κ ι) (events : List (Event τ ρ κ ι)) (state : AgentState) (agentData : AgentData τ ρ κ ι) :
    Prop :=
  state = .pending ∧ events = [] ∧ agentData = initial ∨
    state ≠ .pending ∧ ∃ prompt rest, events = .prompt prompt :: rest ∧ holds prompt rest state agentData

theorem begun_of_run (holds : List τ → List (Event τ ρ κ ι) → AgentState → AgentData τ ρ κ ι → Prop)
    (first : ∀ prompt, holds prompt [] .generating (handlePendingState (AgentData.initial messages imageData) prompt).2)
    (keeps : ∀ prompt rest state agentData event next, state ≠ .pending → holds prompt rest state agentData →
      Effect config agentData state event next → holds prompt (rest ++ [event]) next.1 next.2)
    (run : Runs config messages imageData events state agentData) :
    Begun holds (AgentData.initial messages imageData) events state agentData := by
  refine Run.invariant (fun events current => Begun holds (AgentData.initial messages imageData) events
    current.1 current.2) (Or.inl ⟨rfl, rfl, rfl⟩) ?_ run
  intro before current event next begun taken
  obtain ⟨now, data⟩ := current
  have effect := step_effect taken
  right
  rcases begun with ⟨isPending, rfl, isInitial⟩ | ⟨started, prompt, rest, rfl, held⟩
  · obtain rfl : now = .pending := isPending
    obtain rfl : data = AgentData.initial messages imageData := isInitial
    cases effect with
    | prompt promptIds => exact ⟨by simp, promptIds, [], rfl, first promptIds⟩
  · refine ⟨?_, prompt, rest ++ [event], rfl, keeps prompt rest now data event next started held effect⟩
    cases effect with
    | prompt => exact absurd rfl started
    | ended => simp
    | called => simp
    | responses => simp
    | refused => simp

theorem follows_of_run (run : Runs config messages imageData events state agentData) :
    Begun (fun prompt rest _ agentData => Follows prompt rest agentData) (AgentData.initial messages imageData) events
      state agentData := by
  refine begun_of_run _ (fun prompt => ⟨by simp [handlePendingState], rfl⟩) ?_ run
  intro prompt rest state agentData event next started follows effect
  cases effect with
  | prompt => exact absurd rfl started
  | ended output toolCalls =>
    constructor
    · simp [addOutput, follows.promptIds, Event.entries, Function.comp_def]
    · simp [addOutput, follows.responseMask, Event.entries, Function.comp_def]
  | called output toolCalls =>
    constructor
    · simp [addOutput, follows.promptIds, Event.entries, Function.comp_def]
    · simp [addOutput, follows.responseMask, Event.entries, Function.comp_def]
  | responses results responseIds _ promptIds responseMask =>
    constructor
    · simp [promptIds, follows.promptIds, Event.entries, Function.comp_def]
    · simp [responseMask, follows.responseMask, Event.entries, Function.comp_def]
  | refused results _ promptIds responseMask =>
    constructor
    · simp [promptIds, follows.promptIds, Event.entries]
    · simp [responseMask, follows.responseMask, Event.entries]

/-- Every output of the server carries one log-prob for each token, or none carries any. -/
def LogprobsAsked (asked : Bool) (events : List (Event τ ρ κ ι)) : Prop :=
  ∀ output, Event.output output ∈ events →
    (output.logProbs.getD []).length = if asked then output.tokenIds.length else 0

omit [Zero ρ] in
theorem LogprobsAsked.init {asked : Bool} {events : List (Event τ ρ κ ι)} {event : Event τ ρ κ ι}
    (uniform : LogprobsAsked asked (events ++ [event])) : LogprobsAsked asked events :=
  fun output member => uniform output (mem_append_left _ member)

/-- The log-probs of every reachable state, when they are asked for. The tools are
reached behind a log-prob, so that their tokens get a zero each. -/
theorem logprobs_of_run (parses : config.extractToolCalls [] = []) (uniform : LogprobsAsked true events)
    (run : Runs config messages imageData events state agentData) :
    Begun (fun _ rest state agentData => agentData.responseLogprobs = rest.flatMap Event.logprobs ∧
      (state = .processingTools → agentData.responseLogprobs ≠ [])) (AgentData.initial messages imageData) events state
      agentData := by
  have conditional := begun_of_run (fun _ rest state agentData => LogprobsAsked true rest →
    agentData.responseLogprobs = rest.flatMap Event.logprobs ∧
      (state = .processingTools → agentData.responseLogprobs ≠ [])) (fun prompt _ => ⟨rfl, by simp⟩) ?_ run
  · rcases conditional with initial | ⟨started, prompt, rest, rfl, held⟩
    · exact Or.inl initial
    · refine Or.inr ⟨started, prompt, rest, rfl, held ?_⟩
      exact fun output member => uniform output (mem_cons_of_mem _ member)
  · intro prompt rest state agentData event next started held effect asked
    obtain ⟨same, some⟩ := held asked.init
    cases effect with
    | prompt => exact absurd rfl started
    | ended output toolCalls => exact ⟨by simp [addOutput, same, Event.logprobs], by simp⟩
    | called output toolCalls within calls =>
      refine ⟨by simp [addOutput, same, Event.logprobs], ?_⟩
      intro _ empty
      have length := asked output (by simp)
      simp only [addOutput, append_eq_nil_iff] at empty
      rw [empty.2, length_nil, if_pos rfl] at length
      rw [length_eq_zero_iff.mp length.symm, parses] at calls
      exact calls rfl
    | responses results responseIds _ promptIds responseMask logprobs =>
      have filled : agentData.responseLogprobs.isEmpty = false := by simpa using some rfl
      refine ⟨?_, by simp⟩
      rw [logprobs, filled, same]
      simp [Event.logprobs]
    | refused results _ promptIds responseMask logprobs =>
      exact ⟨by rw [logprobs, same]; simp [Event.logprobs], by simp⟩

theorem noLogprobs_of_run (uniform : LogprobsAsked false events)
    (run : Runs config messages imageData events state agentData) : agentData.responseLogprobs = [] := by
  have conditional := begun_of_run (fun _ rest _ agentData => LogprobsAsked false rest →
    agentData.responseLogprobs = []) (fun prompt _ => rfl) ?_ run
  · rcases conditional with ⟨_, _, rfl⟩ | ⟨_, prompt, rest, rfl, held⟩
    · rfl
    · exact held (fun output member => uniform output (mem_cons_of_mem _ member))
  · intro prompt rest state agentData event next started held effect asked
    have none := held asked.init
    have kept : ∀ output : TokenOutput τ ρ κ, event = .output output →
        (addOutput agentData output).responseLogprobs = [] := by
      rintro output rfl
      have length := asked output (by simp)
      simp only [Bool.false_eq_true, ite_false] at length
      simp [addOutput, none, length_eq_zero_iff.mp length]
    cases effect with
    | prompt => exact absurd rfl started
    | ended output toolCalls => exact kept output rfl
    | called output toolCalls => exact kept output rfl
    | responses results responseIds _ promptIds responseMask logprobs => rw [logprobs, none]; rfl
    | refused results _ promptIds responseMask logprobs => rw [logprobs, none]

/-- What bounds the generations: each that goes on adds a token below the limit. -/
structure Bounded (config : Config τ ι) (rest : List (Event τ ρ κ ι)) (state : AgentState) (agentData : AgentData τ ρ κ ι) :
    Prop where
  grows : state ≠ .terminated → generations rest ≤ agentData.responseMask.length
  within : state ≠ .terminated → generations rest = 0 ∨ agentData.responseMask.length < config.responseLength
  bound : generations rest ≤ config.responseLength + 1
  steps : rest.length ≤ 2 * generations rest
  answers : state = .processingTools → rest.length + 1 ≤ 2 * generations rest

theorem bounded_of_run (parses : config.extractToolCalls [] = [])
    (run : Runs config messages imageData events state agentData) :
    Begun (fun _ => Bounded config) (AgentData.initial messages imageData) events state agentData := by
  refine begun_of_run _ (fun prompt => ⟨by simp [generations], by simp [generations], by simp [generations], by simp,
    by simp⟩) ?_ run
  intro prompt rest state agentData event next started bounded effect
  have more : ∀ output : TokenOutput τ ρ κ, generations (rest ++ [.output output]) = generations rest + 1 := by
    intro output
    simp [generations, Event.isOutput]
  have same : event.isOutput = false → generations (rest ++ [event]) = generations rest := by
    intro other
    simp [generations, other]
  cases effect with
  | prompt => exact absurd rfl started
  | ended output toolCalls =>
    have grows := bounded.grows (by simp)
    have within := bounded.within (by simp)
    have steps := bounded.steps
    refine ⟨by simp, by simp, ?_, ?_, by simp⟩
    · rw [more]
      omega
    · rw [more, length_append, length_singleton]
      omega
  | called output toolCalls below calls =>
    have some : 0 < output.tokenIds.length := by
      rw [length_pos_iff]
      rintro empty
      rw [empty, parses] at calls
      exact calls rfl
    have grows := bounded.grows (by simp)
    have steps := bounded.steps
    simp only [addOutput, length_append, length_replicate] at below
    refine ⟨fun _ => ?_, fun _ => Or.inr ?_, ?_, ?_, fun _ => ?_⟩
    · simp only [more, addOutput, length_append, length_replicate]
      omega
    · simpa [addOutput] using below
    · rw [more]
      omega
    · rw [more, length_append, length_singleton]
      omega
    · rw [more, length_append, length_singleton]
      omega
  | responses results responseIds _ promptIds responseMask logprobs below =>
    have grows := bounded.grows (by simp)
    have answers := bounded.answers rfl
    rw [responseMask, length_append] at below
    refine ⟨fun _ => ?_, fun _ => Or.inr ?_, ?_, ?_, by simp⟩
    · rw [same rfl, responseMask, length_append]
      omega
    · rw [responseMask, length_append]
      exact below
    · rw [same rfl]
      exact bounded.bound
    · rw [same rfl, length_append, length_singleton]
      omega
  | refused results _ promptIds responseMask logprobs =>
    have answers := bounded.answers rfl
    refine ⟨by simp, by simp, ?_, ?_, by simp⟩
    · rw [same rfl]
      exact bounded.bound
    · rw [same rfl, length_append, length_singleton]
      omega

theorem addToolTokens_cases (config : Config τ ι) (answered : Answered τ ρ κ ι) :
    addToolTokens config answered = (.terminated, answered.agentData) ∨
      ∃ next, addToolTokens config answered = (.generating, next) := by
  by_cases exceeds : config.responseLength ≤ answered.agentData.responseMask.length + answered.responseIds.length
  · exact Or.inl (if_pos exceeds)
  · exact Or.inr ⟨_, if_neg exceeds⟩

theorem processing_step_iff {next : AgentState × AgentData τ ρ κ ι} :
    (∃ event, Step config (.processingTools, agentData) event next) ↔
      ∃ results, results.length = (toolCallsRun config agentData).length ∧
        handleProcessingToolsState config agentData results = .ok next := by
  constructor
  · rintro ⟨event, taken⟩
    cases taken with
    | @responses _ _ answered results each answers fits =>
      refine ⟨results, each, ?_⟩
      rw [handleProcessingToolsState, answers, ← fits]
      rfl
    | @refused _ _ answered results each answers exceeds =>
      refine ⟨results, each, ?_⟩
      rw [handleProcessingToolsState, answers, ← exceeds]
      rfl
  · rintro ⟨results, each, handled⟩
    rw [handleProcessingToolsState] at handled
    cases answers : answerToolCalls config agentData results with
    | error failure =>
      rw [answers] at handled
      cases handled
    | ok answered =>
      rw [answers] at handled
      cases handled
      rcases addToolTokens_cases config answered with exceeds | ⟨next, fits⟩
      · rw [exceeds]
        exact ⟨_, .refused each answers exceeds⟩
      · rw [fits]
        exact ⟨_, .responses each answers fits⟩

/-- The loop goes on with whatever it gets, unless a tool turn raises. -/
def Continues (config : Config τ ι) (agentData : AgentData τ ρ κ ι) : AgentState → Prop
  | .pending => ∀ promptIds, ∃ next, Step config (.pending, agentData) (.prompt promptIds) next
  | .generating => ∀ output, ∃ next, Step config (.generating, agentData) (.output output) next
  | .processingTools => ∀ results : List (ToolResponse ι × Option ρ),
      results.length = (toolCallsRun config agentData).length →
      (∃ failure, answerToolCalls config agentData results = .error failure) ∨
        ∃ event next, Step config (.processingTools, agentData) event next
  | .terminated => False

theorem continues (config : Config τ ι) (agentData : AgentData τ ρ κ ι) (running : state ≠ .terminated) :
    Continues config agentData state := by
  cases state with
  | pending => exact fun promptIds => ⟨_, .prompt promptIds⟩
  | generating => exact fun output => ⟨_, .output output⟩
  | processingTools =>
    intro results each
    cases isAnswered : answerToolCalls config agentData results with
    | error failure => exact Or.inl ⟨failure, rfl⟩
    | ok answered =>
      right
      have handled : handleProcessingToolsState config agentData results = .ok (addToolTokens config answered) := by
        rw [handleProcessingToolsState, isAnswered]
        rfl
      obtain ⟨event, taken⟩ := processing_step_iff.mpr ⟨results, each, handled⟩
      exact ⟨event, _, taken⟩
  | terminated => exact absurd rfl running

theorem logprobs_length (uniform : LogprobsAsked true events) :
    (events.flatMap Event.logprobs).length = (events.flatMap Event.entries).length := by
  induction events with
  | nil => rfl
  | cons event events ih =>
    have rest := ih (fun output member => uniform output (mem_cons_of_mem _ member))
    have here : event.logprobs.length = event.entries.length := by
      cases event with
      | prompt => rfl
      | output output => simpa [Event.logprobs, Event.entries] using uniform output mem_cons_self
      | responses => simp [Event.logprobs, Event.entries]
      | refused => rfl
    rw [flatMap_cons, flatMap_cons, length_append, length_append, here, rest]

/-- In every reachable state the prompt is followed by the tokens of the server and of
the tools, aligned with the mask and with the log-probs when there are any. The tools
return below the limit, and the loop ends after at most one generation more than the
limit. -/
theorem reachable_aligned (run : Runs config messages imageData events state agentData) :
    (state ≠ .pending → ∃ prompt rest, events = .prompt prompt :: rest ∧ Follows prompt rest agentData ∧
      (config.extractToolCalls [] = [] → LogprobsAsked true events →
        agentData.responseLogprobs = rest.flatMap Event.logprobs ∧
        agentData.responseLogprobs.length = agentData.responseMask.length)) ∧
    (state = .processingTools → ∀ event next, Step config (state, agentData) event (.generating, next) →
      next.responseMask.length < config.responseLength) ∧
    (config.extractToolCalls [] = [] →
      generations events ≤ config.responseLength + 1 ∧ events.length ≤ 2 * config.responseLength + 3) ∧
    (state ≠ .terminated → Continues config agentData state) := by
  refine ⟨?_, ?_, ?_, fun running => continues config agentData running⟩
  · intro started
    rcases follows_of_run run with ⟨isPending, _⟩ | ⟨_, prompt, rest, rfl, follows⟩
    · exact absurd isPending started
    · refine ⟨prompt, rest, rfl, follows, ?_⟩
      intro parses uniform
      rcases logprobs_of_run parses uniform run with ⟨isPending, _⟩ | ⟨_, prompt', rest', isRest, same, _⟩
      · exact absurd isPending started
      · cases isRest
        refine ⟨same, ?_⟩
        rw [same, follows.responseMask, List.length_map,
          logprobs_length (fun output member => uniform output (List.mem_cons_of_mem _ member))]
  · rintro rfl event next taken
    have effect := step_effect taken
    cases effect with
    | responses _ _ _ _ _ _ within => exact within
  · intro parses
    rcases bounded_of_run parses run with ⟨_, rfl, _⟩ | ⟨_, prompt, rest, rfl, bounded⟩
    · simp [generations]
    · have bound := bounded.bound
      have steps := bounded.steps
      have same : generations (.prompt prompt :: rest) = generations rest := by simp [generations, Event.isOutput]
      rw [same, List.length_cons]
      omega

/-! ### The returned output -/

/-- The output is cut from the tokens of the run behind the prompt, with a mask and
log-probs of its length. -/
structure Sound (config : Config τ ι) (prompt : List τ) (rest : List (Event τ ρ κ ι)) (output : AgentLoopOutput τ ρ κ ι) :
    Prop where
  stream : output.promptIds ++ output.responseIds <+: prompt ++ (rest.flatMap Event.entries).map Prod.fst
  promptIds : output.promptIds = prompt
  mask : output.responseIds.length = output.responseMask.length
  bounded : output.responseIds.length ≤ config.responseLength
  logprobs : ∀ logprobs, output.responseLogprobs = some logprobs → logprobs.length = output.responseMask.length

/-- Behind the prompt a run has an output of the server, and ends with it when it is
empty. -/
theorem firstOutput_of_run (parses : config.extractToolCalls [] = [])
    (run : Runs config messages imageData events state agentData) :
    Begun (fun _ rest state agentData => rest = [] ∧ state = .generating ∧ agentData.responseMask = [] ∨
      ∃ first rest', rest = .output first :: rest' ∧
        (first.tokenIds = [] → state = .terminated ∧ agentData.responseMask = []))
      (AgentData.initial messages imageData) events state agentData := by
  refine begun_of_run _ (fun prompt => Or.inl ⟨rfl, rfl, rfl⟩) ?_ run
  intro prompt rest state agentData event next started held effect
  right
  rcases held with ⟨rfl, rfl, empty⟩ | ⟨first, rest', rfl, ends⟩
  · cases effect with
    | ended output toolCalls => exact ⟨output, [], rfl, fun none => ⟨rfl, by simp [addOutput, empty, none]⟩⟩
    | called output toolCalls within calls =>
      refine ⟨output, [], rfl, ?_⟩
      intro none
      rw [none, parses] at calls
      exact absurd rfl calls
  · refine ⟨first, rest' ++ [event], rfl, ?_⟩
    intro none
    obtain ⟨rfl, _⟩ := ends none
    cases effect

omit [Zero ρ] in
private theorem finalize_cut (config : Config τ ι) {prompt : List τ} {rest : List (Event τ ρ κ ι)} (follows : Follows prompt rest agentData) :
    (finalize config agentData).promptIds = prompt ∧
      (agentData.responseMask ≠ [] → (finalize config agentData).responseIds =
        ((rest.flatMap Event.entries).map Prod.fst).take config.responseLength) ∧
      (agentData.responseMask = [] → (finalize config agentData).responseIds = prompt.take config.responseLength) := by
  have length : agentData.responseMask.length = ((rest.flatMap Event.entries).map Prod.fst).length := by
    rw [follows.responseMask, length_map, length_map]
  have behind : agentData.promptIds.length - agentData.responseMask.length = prompt.length := by
    rw [length, follows.promptIds, length_append, Nat.add_sub_cancel]
  refine ⟨?_, ?_, ?_⟩
  · change agentData.promptIds.take (agentData.promptIds.length - agentData.responseMask.length) = prompt
    rw [behind, follows.promptIds, take_left]
  · intro some
    change (Indexing.fromIndex agentData.promptIds (-(agentData.responseMask.length : Int))).take _ = _
    rw [Indexing.fromIndex_neg _ (length_pos_iff.mpr some), behind, follows.promptIds, drop_left]
  · intro none
    change (Indexing.fromIndex agentData.promptIds (-(agentData.responseMask.length : Int))).take _ = _
    have empty : (rest.flatMap Event.entries).map Prod.fst = [] := by
      rw [← length_eq_zero_iff, ← length, none, length_nil]
    rw [none, follows.promptIds, empty, append_nil]
    rfl

private theorem finalize_logprobs {asked : Bool} (parses : config.extractToolCalls [] = [])
    (uniform : LogprobsAsked asked events) (run : Runs config messages imageData events .terminated agentData) :
    ∀ logprobs, (finalize config agentData).responseLogprobs = some logprobs →
      logprobs.length = (finalize config agentData).responseMask.length := by
  intro logprobs given
  change (if agentData.responseLogprobs.isEmpty then none else
    some (agentData.responseLogprobs.take config.responseLength)) = some logprobs at given
  change logprobs.length = (agentData.responseMask.take config.responseLength).length
  split at given
  · cases given
  · rename_i filled
    cases given
    cases asked with
    | false => exact absurd (noLogprobs_of_run uniform run) (by simpa using filled)
    | true =>
      obtain ⟨_, _, _, _, aligned⟩ := (reachable_aligned run).1 (by simp)
      rw [length_take, length_take, (aligned parses uniform).2]

/-- The output of a run is sound exactly when the server has answered the prompt with a
token, or there is nothing that can be mistaken for a response. -/
theorem finalize_sound_iff {asked : Bool} (parses : config.extractToolCalls [] = [])
    (uniform : LogprobsAsked asked events) (run : Runs config messages imageData events .terminated agentData) :
    ∃ prompt first rest, events = .prompt prompt :: .output first :: rest ∧
      (Sound config prompt (.output first :: rest) (finalize config agentData) ↔
        first.tokenIds ≠ [] ∨ prompt = [] ∨ config.responseLength = 0) := by
  have logprobs := finalize_logprobs parses uniform run
  rcases follows_of_run run with ⟨ended, _⟩ | ⟨_, prompt, behind, rfl, follows⟩
  · cases ended
  rcases firstOutput_of_run parses run with ⟨ended, _⟩ | ⟨_, _, _, isRest, ⟨_, ended, _⟩ | ⟨first, rest, rfl, ends⟩⟩
  · cases ended
  · cases ended
  obtain ⟨rfl, rfl⟩ : prompt = _ ∧ behind = .output first :: rest := by simpa using isRest
  obtain ⟨isPrompt, whenSome, whenNone⟩ := finalize_cut config follows
  have isMask : (finalize config agentData).responseMask = agentData.responseMask.take config.responseLength := rfl
  refine ⟨prompt, first, rest, rfl, ?_⟩
  by_cases empty : first.tokenIds = []
  · have noMask := (ends empty).2
    have isResponse := whenNone noMask
    rw [noMask, List.take_nil] at isMask
    have cut : (finalize config agentData).responseIds = [] ↔ prompt = [] ∨ config.responseLength = 0 := by
      rw [isResponse, List.take_eq_nil_iff]
      exact Or.comm
    constructor
    · intro sound
      have length := sound.mask
      rw [isMask, List.length_nil, List.length_eq_zero_iff, cut] at length
      exact Or.inr length
    · rintro (some | nothing)
      · exact absurd empty some
      · have none := cut.mpr nothing
        refine ⟨?_, isPrompt, ?_, ?_, logprobs⟩
        · rw [isPrompt, none, List.append_nil]
          exact List.prefix_append _ _
        · rw [none, isMask, List.length_nil, List.length_nil]
        · rw [none]
          exact Nat.zero_le _
  · refine iff_of_true ?_ (Or.inl empty)
    have filled : agentData.responseMask ≠ [] := by
      rw [follows.responseMask]
      simpa [Event.entries] using fun none => absurd none empty
    have isResponse := whenSome filled
    refine ⟨?_, isPrompt, ?_, ?_, logprobs⟩
    · rw [isPrompt, isResponse]
      exact List.prefix_append_right_inj _ |>.mpr (List.take_prefix _ _)
    · rw [isResponse, isMask, follows.responseMask]
      simp
    · rw [isResponse]
      exact List.length_take_le _ _

end Invariants

/-! ### Two runs -/

/-- Token 9 calls a tool, whose response is one token. -/
def smallConfig : Config Nat Nat where
  maxUserTurns := none
  maxAssistantTurns := none
  maxParallelCalls := 1
  responseLength := 4
  toolParserName := "hermes"
  imageProcessor := false
  extractToolCalls tokenIds := if tokenIds.contains 9 then [⟨"add", ""⟩] else []
  encode _ := []
  str := plainText
  applyChatTemplate _ _ := .ok [5]

def smallOutput (tokenIds : List Nat) : TokenOutput Nat Int Nat :=
  ⟨tokenIds, some (tokenIds.map (fun _ => -1)), none, none, none, []⟩

def smallData (tokenIds : List Nat) : AgentData Nat Int Nat Nat :=
  (handleGeneratingState smallConfig false (handlePendingState (.initial [] none) [1, 2]).2 (smallOutput tokenIds)).2

/-- A prompt, a tool call and an answer behind the response of the tool. -/
def smallEvents : List (Event Nat Int Nat Nat) :=
  [.prompt [1, 2], .output (smallOutput [9]), .responses [(⟨some "3", none, none⟩, none)] [5], .output (smallOutput [7])]

def smallFinal : AgentData Nat Int Nat Nat :=
  { smallData [9] with
    messages := [⟨"tool", .text "3"⟩]
    promptIds := [1, 2, 9, 5, 7]
    responseIds := [7]
    responseMask := [1, 0, 1]
    responseLogprobs := [-1, 0, -1]
    userTurns := 1
    assistantTurns := 2
    toolCalls := [] }

private theorem small_prompted (prompt : List Nat) :
    Step smallConfig (.pending, (AgentData.initial [] none : AgentData Nat Int Nat Nat)) (.prompt prompt)
      (handlePendingState (.initial [] none) prompt) :=
  .prompt prompt

theorem small_run : Runs smallConfig [] none smallEvents .terminated smallFinal := by
  have called := Run.step (Run.single (small_prompted [1, 2])) (.output (smallOutput [9]))
  have answered := Run.step called
    (@Step.responses _ _ _ _ _ smallConfig _ _ _ [(⟨some "3", none, none⟩, none)] rfl rfl rfl)
  exact Run.step answered (.output (smallOutput [7]))

theorem reachable_aligned_small :
    ∃ prompt rest, smallEvents = .prompt prompt :: rest ∧ Follows prompt rest smallFinal ∧
      (smallConfig.extractToolCalls [] = [] → LogprobsAsked true smallEvents →
        smallFinal.responseLogprobs = rest.flatMap Event.logprobs ∧
        smallFinal.responseLogprobs.length = smallFinal.responseMask.length) :=
  (reachable_aligned small_run).1 (by decide)

theorem finalize_sound_iff_small :
    ∃ prompt first rest, smallEvents = .prompt prompt :: .output first :: rest ∧
      (Sound smallConfig prompt (.output first :: rest) (finalize smallConfig smallFinal) ↔
        first.tokenIds ≠ [] ∨ prompt = [] ∨ smallConfig.responseLength = 0) := by
  have asked : LogprobsAsked true smallEvents := by
    intro output member
    simp only [smallEvents, List.mem_cons, List.not_mem_nil, or_false, reduceCtorEq, false_or, Event.output.injEq] at member
    rcases member with rfl | rfl
    · rfl
    · rfl
  exact finalize_sound_iff rfl asked small_run

/-- An empty answer to the prompt returns the prompt as the response, with an empty mask. -/
theorem emptyOutput_returns_prompt :
    Runs smallConfig [] none [.prompt [1, 2], .output (smallOutput [])] .terminated (smallData []) ∧
      (finalize smallConfig (smallData [])).responseIds = [1, 2] ∧
      (finalize smallConfig (smallData [])).responseMask = [] ∧
      ¬ Sound smallConfig [1, 2] [.output (smallOutput [])] (finalize smallConfig (smallData [])) := by
  refine ⟨?_, rfl, rfl, ?_⟩
  · exact Run.step (Run.single (small_prompted [1, 2])) (.output (smallOutput []))
  · intro sound
    exact absurd sound.mask (by decide)

end LLMFusion.ToolAgentLoop
