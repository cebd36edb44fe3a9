import LLMFusion.Lib.Runs
import LLMFusion.MessageQueue

/-! The rollouter that generates samples while the trainer trains. Its coroutines take
turns at every `await`; the queue is an actor of its own. The data loader does not raise. -/

namespace LLMFusion.FullyAsyncRollouter

variable {σ : Type}

/-- The limits of `set_max_required_samples`. The message queue is as long as the first. -/
structure Config where
  maxRequiredSamples : Nat
  maxConcurrentSamples : Nat

/-- The tasks of `_process_single_sample_streaming`: before the sample is in the queue,
before the answer of the queue, behind that, or with an exception. -/
inductive Task (σ : Type) where
  | generating (sample : σ)
  | stored
  | returned
  | failed
  deriving DecidableEq

def Task.isGenerating : Task σ → Bool
  | .generating _ => true
  | .stored | .returned | .failed => false

def Task.isDone : Task σ → Bool
  | .generating _ | .stored => false
  | .returned | .failed => true

/-- Where `_processor_worker` is: at the top of its loop, before or behind an answer of the
queue, before the lock that pauses, paused, waiting for `pending_queue`, with a sample
before the limit of concurrency, in the lock that waits for a task, or before the lock that
submits it, and after the end signal. -/
inductive Processor (σ : Type) where
  | deciding
  | asking
  | answered (queueSize : Nat)
  | pausing
  | draining
  | dequeuing
  | holding (sample : σ)
  | throttled (sample : σ)
  | submitting (sample : σ)
  | ending
  | collecting
  | ended

/-- The sample that was taken from `pending_queue` and is not submitted. -/
def Processor.held : Processor σ → Option σ
  | .holding sample | .throttled sample | .submitting sample => some sample
  | _ => none

/-- Whether it waits for tasks in the lock. -/
def Processor.locks : Processor σ → Bool
  | .throttled _ | .collecting => true
  | _ => false

/-- `reset_staleness`: behind its read of `active_tasks`, and behind the answer of the queue. -/
inductive Reset where
  | idle
  | reading (activeTasks : Nat)
  | measured (stalenessSamples : Nat)

inductive Monitor where
  | sleeping
  | asking
  | answered (queueSize : Nat)
  | resuming

/-- What the feeder has still to feed ends with the end signal. -/
structure State (σ : Type) where
  unfed : List (Option σ)
  pendingQueue : List (Option σ)
  processor : Processor σ
  activeTasks : List (Task σ)
  stalenessSamples : Nat
  paused : Bool
  resumeEvent : Bool
  reset : Reset
  monitor : Monitor
  messageQueue : MessageQueue (Option σ)
  signalled : Bool

/-- `_should_pause_generation` behind the answer of the queue -/
def Config.shouldPause (config : Config) (state : State σ) (queueSize : Nat) : Bool :=
  decide (config.maxRequiredSamples ≤ queueSize) || decide (config.maxRequiredSamples ≤ state.stalenessSamples)

/-- Nobody waits in the lock. -/
def State.Unlocked (state : State σ) : Prop := state.reset = .idle ∧ state.processor.locks = false

/-- `pending_queue` has 128 places. -/
def pendingQueueSize : Nat := 128

inductive Event where
  | feed
  | process
  | generate
  | monitor
  | reset
  | assign
  | get
  | finish
  deriving DecidableEq, Repr

inductive Step (config : Config) : State σ → Event → State σ → Prop where
  | feed {state : State σ} {sample : Option σ} {rest : List (Option σ)} (isUnfed : state.unfed = sample :: rest)
      (place : state.pendingQueue.length < pendingQueueSize) :
      Step config state .feed { state with unfed := rest, pendingQueue := state.pendingQueue ++ [sample] }
  | stay {state : State σ} (isAt : state.processor = .deciding) (isPaused : state.paused = true) :
      Step config state .process { state with processor := .pausing }
  | ask {state : State σ} (isAt : state.processor = .deciding) (runs : state.paused = false) :
      Step config state .process { state with processor := .asking }
  | answer {state : State σ} (isAt : state.processor = .asking) :
      Step config state .process { state with processor := .answered state.messageQueue.getQueueSize }
  | stop {state : State σ} {queueSize : Nat} (isAt : state.processor = .answered queueSize)
      (pauses : config.shouldPause state queueSize = true) : Step config state .process { state with processor := .pausing }
  | goOn {state : State σ} {queueSize : Nat} (isAt : state.processor = .answered queueSize)
      (runs : config.shouldPause state queueSize = false) : Step config state .process { state with processor := .dequeuing }
  | pause {state : State σ} (isAt : state.processor = .pausing) (unlocked : state.Unlocked) :
      Step config state .process { state with paused := true, resumeEvent := false, processor := .draining }
  | drain {state : State σ} {before after : List (Task σ)} (isAt : state.processor = .draining) (unlocked : state.Unlocked)
      (isTask : state.activeTasks = before ++ .returned :: after) :
      Step config state .process { state with activeTasks := before ++ after }
  | drainFailed {state : State σ} {before after : List (Task σ)} (isAt : state.processor = .draining)
      (unlocked : state.Unlocked) (isTask : state.activeTasks = before ++ .failed :: after) :
      Step config state .process { state with activeTasks := before ++ after, processor := .ended }
  | resume {state : State σ} (isAt : state.processor = .draining) (isSet : state.resumeEvent = true) :
      Step config state .process { state with processor := .deciding }
  | take {state : State σ} {sample : σ} {rest : List (Option σ)} (isAt : state.processor = .dequeuing)
      (isPending : state.pendingQueue = some sample :: rest) :
      Step config state .process { state with
        pendingQueue := rest, stalenessSamples := state.stalenessSamples + 1, processor := .holding sample }
  | takeEnd {state : State σ} {rest : List (Option σ)} (isAt : state.processor = .dequeuing)
      (isPending : state.pendingQueue = none :: rest) :
      Step config state .process { state with
        pendingQueue := rest, stalenessSamples := state.stalenessSamples + 1, processor := .ending }
  | throttle {state : State σ} {sample : σ} (isAt : state.processor = .holding sample)
      (full : config.maxConcurrentSamples ≤ state.activeTasks.length) (someTask : state.activeTasks ≠ [])
      (unlocked : state.Unlocked) : Step config state .process { state with processor := .throttled sample }
  | collect {state : State σ} {sample : σ} (isAt : state.processor = .throttled sample)
      (someDone : .returned ∈ state.activeTasks) (noneFailed : .failed ∉ state.activeTasks) :
      Step config state .process { state with
        activeTasks := state.activeTasks.filter fun task => !task.isDone, processor := .holding sample }
  | proceed {state : State σ} {sample : σ} (isAt : state.processor = .holding sample)
      (place : state.activeTasks.length < config.maxConcurrentSamples) :
      Step config state .process { state with processor := .submitting sample }
  | submit {state : State σ} {sample : σ} (isAt : state.processor = .submitting sample)
      (runs : state.paused = false ∨ state.resumeEvent = true) (unlocked : state.Unlocked) :
      Step config state .process { state with
        activeTasks := state.activeTasks ++ [.generating sample], processor := .deciding }
  | await {state : State σ} (isAt : state.processor = .ending) (someTask : state.activeTasks ≠ [])
      (unlocked : state.Unlocked) : Step config state .process { state with processor := .collecting }
  | collectEnd {state : State σ} (isAt : state.processor = .collecting)
      (someDone : .returned ∈ state.activeTasks) (noneFailed : .failed ∉ state.activeTasks) :
      Step config state .process { state with
        activeTasks := state.activeTasks.filter fun task => !task.isDone, processor := .ending }
  | fail {state : State σ} (locks : state.processor.locks = true) (someFailed : .failed ∈ state.activeTasks) :
      Step config state .process { state with
        activeTasks := state.activeTasks.filter fun task => !task.isDone, processor := .ended }
  | exit {state : State σ} (isAt : state.processor = .ending) (noTask : state.activeTasks = []) :
      Step config state .process { state with processor := .ended }
  | put {state : State σ} {before after : List (Task σ)} {sample : σ} {messageQueue : MessageQueue (Option σ)}
      {success : Bool} (isTask : state.activeTasks = before ++ .generating sample :: after)
      (stored : state.messageQueue.putSample (some sample) = some (messageQueue, success)) :
      Step config state .generate { state with
        activeTasks := before ++ .stored :: after, messageQueue := messageQueue }
  | returns {state : State σ} {before after : List (Task σ)} (isTask : state.activeTasks = before ++ .stored :: after) :
      Step config state .generate { state with activeTasks := before ++ .returned :: after }
  | raise {state : State σ} {before after : List (Task σ)} {sample : σ}
      (isTask : state.activeTasks = before ++ .generating sample :: after) :
      Step config state .generate { state with activeTasks := before ++ .failed :: after }
  | monitorAsk {state : State σ} (isAt : state.monitor = .sleeping) (isPaused : state.paused = true) :
      Step config state .monitor { state with monitor := .asking }
  | monitorAnswer {state : State σ} (isAt : state.monitor = .asking) :
      Step config state .monitor { state with monitor := .answered state.messageQueue.getQueueSize }
  | monitorStay {state : State σ} {queueSize : Nat} (isAt : state.monitor = .answered queueSize)
      (pauses : config.shouldPause state queueSize = true) : Step config state .monitor { state with monitor := .sleeping }
  | monitorGoOn {state : State σ} {queueSize : Nat} (isAt : state.monitor = .answered queueSize)
      (runs : config.shouldPause state queueSize = false) : Step config state .monitor { state with monitor := .resuming }
  | monitorResume {state : State σ} (isAt : state.monitor = .resuming) (unlocked : state.Unlocked) :
      Step config state .monitor { state with paused := false, resumeEvent := true, monitor := .sleeping }
  | reset {state : State σ} (unlocked : state.Unlocked) :
      Step config state .reset { state with
        paused := false, resumeEvent := true, reset := .reading state.activeTasks.length }
  | measure {state : State σ} {activeTasks : Nat} (isAt : state.reset = .reading activeTasks) :
      Step config state .reset { state with reset := .measured (activeTasks + state.messageQueue.getQueueSize) }
  | assign {state : State σ} {stalenessSamples : Nat} (isAt : state.reset = .measured stalenessSamples) :
      Step config state .assign { state with stalenessSamples := stalenessSamples, reset := .idle }
  | get {state : State σ} {result : Option (Option σ × Nat)} {messageQueue : MessageQueue (Option σ)}
      (received : state.messageQueue.getSample = some (result, messageQueue)) :
      Step config state .get { state with messageQueue := messageQueue }
  | finish {state : State σ} {messageQueue : MessageQueue (Option σ)} {success : Bool}
      (isAt : state.processor = .ended) (first : state.signalled = false)
      (stored : state.messageQueue.putSample none = some (messageQueue, success)) :
      Step config state .finish { state with messageQueue := messageQueue, signalled := true }

/-- The rollouter as `fit` starts it. -/
def State.initial (config : Config) (samples : List σ) : State σ where
  unfed := samples.map some ++ [none]
  pendingQueue := []
  processor := .deciding
  activeTasks := []
  stalenessSamples := 0
  paused := false
  resumeEvent := true
  reset := .idle
  monitor := .sleeping
  messageQueue := .create config.maxRequiredSamples
  signalled := false

/-! ### Where the samples are -/

def State.queued (state : State σ) : Nat := state.messageQueue.queue.countP Option.isSome

/-- The active tasks whose sample is not in the queue. -/
def State.generating (state : State σ) : Nat := state.activeTasks.countP Task.isGenerating

def State.held (state : State σ) : Nat := state.processor.held.toList.length

end LLMFusion.FullyAsyncRollouter
