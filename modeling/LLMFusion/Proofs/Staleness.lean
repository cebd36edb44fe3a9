import LLMFusion.FullyAsyncRollouter

/-! The staleness counter bounds the samples on their way to the trainer, so that the
queue always has a place for them. -/

namespace LLMFusion.FullyAsyncRollouter
open Runs List

variable {σ : Type} {config : Config}

def Task.isOpen : Task σ → Bool
  | .generating _ | .failed => true
  | .stored | .returned => false

def openTasks (tasks : List (Task σ)) : Nat := tasks.countP Task.isOpen

@[simp] theorem openTasks_append (before after : List (Task σ)) :
    openTasks (before ++ after) = openTasks before + openTasks after := countP_append

@[simp] theorem openTasks_cons (task : Task σ) (tasks : List (Task σ)) :
    openTasks (task :: tasks) = openTasks tasks + if task.isOpen then 1 else 0 := countP_cons

theorem openTasks_le_length (tasks : List (Task σ)) : openTasks tasks ≤ tasks.length := countP_le_length

theorem generating_le_openTasks (state : State σ) : state.generating ≤ openTasks state.activeTasks := by
  apply countP_mono_left
  intro task _ isGenerating
  cases task with
  | generating => rfl
  | stored => cases isGenerating
  | returned => cases isGenerating
  | failed => cases isGenerating

theorem openTasks_filter_le (tasks : List (Task σ)) :
    openTasks (tasks.filter fun task => !task.isDone) ≤ openTasks tasks :=
  List.Sublist.countP_le filter_sublist

theorem openTasks_filter_lt {tasks : List (Task σ)} (someFailed : .failed ∈ tasks) :
    openTasks (tasks.filter fun task => !task.isDone) < openTasks tasks := by
  obtain ⟨before, after, rfl⟩ := append_of_mem someFailed
  have first := openTasks_filter_le before
  have last := openTasks_filter_le after
  have isOpen : openTasks (Task.failed :: after) = openTasks after + 1 := openTasks_cons _ _
  rw [filter_append, filter_cons_of_neg (by simp [Task.isDone]), openTasks_append, openTasks_append, isOpen]
  omega

def State.total (state : State σ) : Nat := openTasks state.activeTasks + state.queued + state.held

/-- Whether the processor saw a place, or will take no sample any more. -/
def Processor.hasPlace : Processor σ → Bool
  | .dequeuing | .ending | .collecting | .ended => true
  | _ => false

structure Bounded (config : Config) (state : State σ) : Prop where
  places : state.messageQueue.maxQueueSize = config.maxRequiredSamples
  kept : state.messageQueue.droppedSamples = 0
  signal : state.messageQueue.queue.length ≤ state.queued + state.signalled.toNat
  last : state.signalled = true → state.processor = .ended
  counted : state.total ≤ state.stalenessSamples
  bounded : state.total ≤ config.maxRequiredSamples
  place : state.processor.hasPlace = true → state.total < config.maxRequiredSamples
  reading : ∀ activeTasks, state.reset = .reading activeTasks → openTasks state.activeTasks ≤ activeTasks
  measured : ∀ samples, state.reset = .measured samples → openTasks state.activeTasks + state.queued ≤ samples

theorem Bounded.initial (samples : List σ) : Bounded config (State.initial config samples) where
  places := rfl
  kept := rfl
  signal := Nat.zero_le _
  last := nofun
  counted := Nat.zero_le _
  bounded := Nat.zero_le _
  place := nofun
  reading := nofun
  measured := nofun

theorem Bounded.congr {state next : State σ} (bounded : Bounded config state) (processor : next.processor = state.processor)
    (tasks : next.activeTasks = state.activeTasks) (samples : next.stalenessSamples = state.stalenessSamples)
    (reset : next.reset = state.reset) (messageQueue : next.messageQueue = state.messageQueue)
    (signalled : next.signalled = state.signalled) : Bounded config next := by
  cases state
  cases next
  cases processor
  cases tasks
  cases samples
  cases reset
  cases messageQueue
  cases signalled
  exact ⟨bounded.places, bounded.kept, bounded.signal, bounded.last, bounded.counted, bounded.bounded, bounded.place,
    bounded.reading, bounded.measured⟩

theorem Bounded.process {state : State σ} (bounded : Bounded config state) {processor next : Processor σ}
    (isAt : state.processor = processor) (moves : processor ≠ .ended) (held : next.held = processor.held)
    (place : next.hasPlace = true → state.total < config.maxRequiredSamples) :
    Bounded config { state with processor := next } := by
  have same : State.total { state with processor := next } = state.total := by
    simp only [State.total, State.held, held, isAt, State.queued]
  refine ⟨bounded.places, bounded.kept, bounded.signal, ?_, ?_, ?_, ?_, bounded.reading, bounded.measured⟩
  · exact fun signalled => absurd (isAt.symm.trans (bounded.last signalled)) moves
  · rw [same]
    exact bounded.counted
  · rw [same]
    exact bounded.bounded
  · rw [same]
    exact place

theorem Bounded.tasks {state : State σ} (bounded : Bounded config state) {tasks : List (Task σ)}
    (fewer : openTasks tasks ≤ openTasks state.activeTasks) : Bounded config { state with activeTasks := tasks } := by
  have le : State.total { state with activeTasks := tasks } ≤ state.total :=
    Nat.add_le_add_right (Nat.add_le_add_right fewer _) _
  refine ⟨bounded.places, bounded.kept, bounded.signal, bounded.last, Nat.le_trans le bounded.counted,
    Nat.le_trans le bounded.bounded, fun hasPlace => Nat.lt_of_le_of_lt le (bounded.place hasPlace), ?_, ?_⟩
  · exact fun activeTasks isReading => Nat.le_trans fewer (bounded.reading activeTasks isReading)
  · exact fun samples isMeasured => Nat.le_trans (Nat.add_le_add_right fewer _) (bounded.measured samples isMeasured)

/-- An exception of a task ends the processor; the task leaves its place to the end signal. -/
theorem Bounded.fail {state : State σ} (bounded : Bounded config state) {tasks : List (Task σ)}
    (fewer : openTasks tasks < openTasks state.activeTasks) :
    Bounded config { state with activeTasks := tasks, processor := .ended } := by
  have lt : State.total { state with activeTasks := tasks, processor := .ended } < state.total := by
    have total : State.total { state with activeTasks := tasks, processor := .ended } =
        openTasks tasks + state.queued + 0 := rfl
    rw [total, State.total]
    omega
  refine ⟨bounded.places, bounded.kept, bounded.signal, fun _ => rfl, Nat.le_trans (Nat.le_of_lt lt) bounded.counted,
    Nat.le_trans (Nat.le_of_lt lt) bounded.bounded, fun _ => Nat.lt_of_lt_of_le lt bounded.bounded, ?_, ?_⟩
  · exact fun activeTasks isReading => Nat.le_trans (Nat.le_of_lt fewer) (bounded.reading activeTasks isReading)
  · exact fun samples isMeasured => Nat.le_trans (Nat.add_le_add_right (Nat.le_of_lt fewer) _) (bounded.measured samples isMeasured)

theorem Config.counted_of_goOn {state : State σ} {queueSize : Nat} (runs : config.shouldPause state queueSize = false) :
    state.stalenessSamples < config.maxRequiredSamples := by
  rw [Config.shouldPause, Bool.or_eq_false_iff] at runs
  exact Nat.lt_of_not_le (of_decide_eq_false runs.2)

theorem putSample_of_lt {messageQueue next : MessageQueue (Option σ)} {message : Option σ} {success : Bool}
    (place : messageQueue.queue.length < messageQueue.maxQueueSize)
    (stored : messageQueue.putSample message = some (next, success)) :
    next.queue = messageQueue.queue ++ [message] ∧ next.maxQueueSize = messageQueue.maxQueueSize ∧
      next.droppedSamples = messageQueue.droppedSamples := by
  rw [MessageQueue.putSample, if_neg (Nat.not_le.mpr place)] at stored
  cases stored
  exact ⟨rfl, rfl, rfl⟩

section
variable {state : State σ} (bounded : Bounded config state)
include state bounded

variable {messageQueue : MessageQueue (Option σ)}

theorem Bounded.put {before after : List (Task σ)} {sample : σ} {success : Bool}
    (isTask : state.activeTasks = before ++ .generating sample :: after)
    (stored : state.messageQueue.putSample (some sample) = some (messageQueue, success)) :
    Bounded config { state with activeTasks := before ++ .stored :: after, messageQueue := messageQueue } := by
  have isOpen : openTasks state.activeTasks = openTasks before + openTasks after + 1 := by
    rw [isTask]
    simp [Task.isOpen]
    omega
  have isClosed : openTasks (before ++ Task.stored :: after) = openTasks before + openTasks after := by
    simp [Task.isOpen]
  have place : state.messageQueue.queue.length < state.messageQueue.maxQueueSize := by
    have signal := bounded.signal
    have total := bounded.bounded
    rw [bounded.places]
    rw [State.total] at total
    cases isSignalled : state.signalled with
    | false =>
      rw [isSignalled] at signal
      simp at signal
      omega
    | true =>
      have less := bounded.place (by rw [bounded.last isSignalled]; rfl)
      rw [State.total] at less
      rw [isSignalled] at signal
      simp at signal
      omega
  obtain ⟨isQueue, samePlaces, sameDropped⟩ := putSample_of_lt place stored
  have queued : messageQueue.queue.countP Option.isSome = state.queued + 1 := by
    rw [isQueue, countP_append]
    rfl
  have longer : messageQueue.queue.length = state.messageQueue.queue.length + 1 := by
    rw [isQueue]
    exact length_append
  have total : openTasks (before ++ Task.stored :: after) + messageQueue.queue.countP Option.isSome + state.held =
      state.total := by
    rw [State.total]
    omega
  have signal := bounded.signal
  refine ⟨samePlaces.trans bounded.places, sameDropped.trans bounded.kept, ?_, bounded.last, Nat.le_trans (Nat.le_of_eq total) bounded.counted,
    Nat.le_trans (Nat.le_of_eq total) bounded.bounded, fun hasPlace => Nat.lt_of_le_of_lt (Nat.le_of_eq total) (bounded.place hasPlace), ?_, ?_⟩
  · show messageQueue.queue.length ≤ messageQueue.queue.countP Option.isSome + state.signalled.toNat
    omega
  · intro activeTasks isReading
    have reading := bounded.reading activeTasks isReading
    show openTasks (before ++ Task.stored :: after) ≤ activeTasks
    omega
  · intro samples isMeasured
    have measured := bounded.measured samples isMeasured
    show openTasks (before ++ Task.stored :: after) + messageQueue.queue.countP Option.isSome ≤ samples
    omega

theorem Bounded.get {result : Option (Option σ × Nat)}
    (received : state.messageQueue.getSample = some (result, messageQueue)) :
    Bounded config { state with messageQueue := messageQueue } := by
  rw [MessageQueue.getSample] at received
  have queued : state.messageQueue.queue.countP Option.isSome = state.queued := rfl
  have total : state.total = openTasks state.activeTasks + state.queued + state.held := rfl
  have signal := bounded.signal
  cases isQueue : state.messageQueue.queue with
  | nil =>
    rw [isQueue] at received
    simp only at received
    split at received
    · cases received
    · cases received
      exact bounded
  | cons data rest =>
    rw [isQueue] at received queued signal
    cases received
    have fewer : rest.countP Option.isSome ≤ state.queued := by
      rw [← queued]
      exact List.Sublist.countP_le (sublist_cons_self data rest)
    have le : openTasks state.activeTasks + rest.countP Option.isSome + state.held ≤ state.total := by omega
    refine ⟨bounded.places, bounded.kept, ?_, bounded.last, Nat.le_trans le bounded.counted,
      Nat.le_trans le bounded.bounded, fun hasPlace => Nat.lt_of_le_of_lt le (bounded.place hasPlace), bounded.reading, ?_⟩
    · show rest.length ≤ rest.countP Option.isSome + state.signalled.toNat
      rw [countP_cons] at queued
      rw [length_cons] at signal
      split at queued
      · omega
      · omega
    · intro samples isMeasured
      have measured := bounded.measured samples isMeasured
      show openTasks state.activeTasks + rest.countP Option.isSome ≤ samples
      omega

theorem Bounded.finish {success : Bool} (isEnded : state.processor = .ended) (first : state.signalled = false)
    (stored : state.messageQueue.putSample none = some (messageQueue, success)) :
    Bounded config { state with messageQueue := messageQueue, signalled := true } := by
  have signal : state.messageQueue.queue.length ≤ state.queued + 0 := by
    have signal := bounded.signal
    rwa [first] at signal
  have place := bounded.place (by rw [isEnded]; rfl)
  have total : state.total = openTasks state.activeTasks + state.queued + state.held := rfl
  obtain ⟨isQueue, samePlaces, sameDropped⟩ := putSample_of_lt (by rw [bounded.places]; omega) stored
  have queued : messageQueue.queue.countP Option.isSome = state.queued := by
    rw [isQueue, countP_append]
    rfl
  have sameTotal : State.total { state with messageQueue := messageQueue, signalled := true } = state.total := by
    rw [total, ← queued]
    rfl
  refine ⟨samePlaces.trans bounded.places, sameDropped.trans bounded.kept, ?_, fun _ => isEnded, ?_, ?_, ?_,
    bounded.reading, ?_⟩
  · show messageQueue.queue.length ≤ messageQueue.queue.countP Option.isSome + 1
    rw [queued, isQueue, length_append]
    exact Nat.succ_le_succ signal
  · rw [sameTotal]
    exact bounded.counted
  · rw [sameTotal]
    exact bounded.bounded
  · rw [sameTotal]
    exact fun _ => place
  · intro samples isMeasured
    show openTasks state.activeTasks + messageQueue.queue.countP Option.isSome ≤ samples
    rw [queued]
    exact bounded.measured samples isMeasured

theorem Bounded.take {sample : σ} {rest : List (Option σ)} (isAt : state.processor = .dequeuing) :
    Bounded config { state with
      pendingQueue := rest, stalenessSamples := state.stalenessSamples + 1, processor := .holding sample } := by
  have place := bounded.place (by rw [isAt]; rfl)
  have total : state.total = openTasks state.activeTasks + state.queued + 0 := by
    rw [State.total, State.held, isAt]
    rfl
  have next : State.total { state with
      pendingQueue := rest, stalenessSamples := state.stalenessSamples + 1, processor := .holding sample } =
      state.total + 1 := by
    rw [total]
    rfl
  refine ⟨bounded.places, bounded.kept, bounded.signal, ?_, ?_, ?_, nofun, bounded.reading,
    bounded.measured⟩
  · intro signalled
    have isEnded := bounded.last signalled
    rw [isAt] at isEnded
    cases isEnded
  · rw [next]
    exact Nat.succ_le_succ bounded.counted
  · rw [next]
    exact place

theorem Bounded.submit {sample : σ} (isAt : state.processor = .submitting sample) (unlocked : state.Unlocked) :
    Bounded config { state with activeTasks := state.activeTasks ++ [.generating sample], processor := .deciding } := by
  have longer : openTasks (state.activeTasks ++ [Task.generating sample]) = openTasks state.activeTasks + 1 :=
    openTasks_append _ _
  have total : State.total { state with
      activeTasks := state.activeTasks ++ [.generating sample], processor := .deciding } = state.total := by
    have before : state.total = openTasks state.activeTasks + state.queued + 1 := by
      rw [State.total, State.held, isAt]
      rfl
    have after : State.total { state with
        activeTasks := state.activeTasks ++ [.generating sample], processor := .deciding } =
        openTasks (state.activeTasks ++ [.generating sample]) + state.queued + 0 := rfl
    rw [before, after, longer]
    omega
  refine ⟨bounded.places, bounded.kept, bounded.signal, ?_, ?_, ?_, nofun, ?_, ?_⟩
  · intro signalled
    have isEnded := bounded.last signalled
    rw [isAt] at isEnded
    cases isEnded
  · rw [total]
    exact bounded.counted
  · rw [total]
    exact bounded.bounded
  · intro activeTasks isReading
    cases unlocked.1.symm.trans isReading
  · intro samples isMeasured
    cases unlocked.1.symm.trans isMeasured

theorem Bounded.reset {paused resumeEvent : Bool} {reset : Reset}
    (reading : ∀ activeTasks, reset = .reading activeTasks → openTasks state.activeTasks ≤ activeTasks)
    (measured : ∀ samples, reset = .measured samples → openTasks state.activeTasks + state.queued ≤ samples) :
    Bounded config { state with paused := paused, resumeEvent := resumeEvent, reset := reset } :=
  ⟨bounded.places, bounded.kept, bounded.signal, bounded.last, bounded.counted, bounded.bounded, bounded.place, reading,
    measured⟩

theorem Bounded.assign {samples : Nat} (isAt : state.reset = .measured samples) (nothing : state.processor.held = none) :
    Bounded config { state with stalenessSamples := samples, reset := .idle } := by
  have total : state.total = openTasks state.activeTasks + state.queued + 0 := by
    rw [State.total, State.held, nothing]
    rfl
  refine ⟨bounded.places, bounded.kept, bounded.signal, bounded.last, ?_, bounded.bounded, bounded.place, nofun, nofun⟩
  show state.total ≤ samples
  rw [total]
  exact bounded.measured samples isAt

end

theorem openTasks_replace_le {before after : List (Task σ)} {task new : Task σ} (stays : new.isOpen → task.isOpen) :
    openTasks (before ++ new :: after) ≤ openTasks (before ++ task :: after) := by
  have le : openTasks (new :: after) ≤ openTasks (task :: after) := by
    rw [openTasks_cons, openTasks_cons]
    apply Nat.add_le_add_left
    by_cases isOpen : new.isOpen = true
    · simp [isOpen, stays isOpen]
    · simp [isOpen]
  rw [openTasks_append, openTasks_append]
  exact Nat.add_le_add_left le _

theorem Bounded.step {state next : State σ} {event : Event} (bounded : Bounded config state)
    (taken : Step config state event next) (counts : event = .assign → state.processor.held = none) :
    Bounded config next := by
  cases taken with
  | feed => exact bounded.congr rfl rfl rfl rfl rfl rfl
  | stay isAt => exact bounded.process isAt nofun rfl nofun
  | ask isAt => exact bounded.process isAt nofun rfl nofun
  | answer isAt => exact bounded.process isAt nofun rfl nofun
  | stop isAt => exact bounded.process isAt nofun rfl nofun
  | goOn isAt runs =>
    exact bounded.process isAt nofun rfl fun _ => Nat.lt_of_le_of_lt bounded.counted (config.counted_of_goOn runs)
  | pause isAt =>
    have paused : Bounded config { state with processor := .draining } := bounded.process isAt nofun rfl nofun
    exact paused.congr rfl rfl rfl rfl rfl rfl
  | drain isAt unlocked isTask =>
    apply bounded.tasks
    rw [isTask]
    simp
  | drainFailed isAt unlocked isTask =>
    apply bounded.fail
    rw [isTask]
    simp [Task.isOpen]
  | resume isAt => exact bounded.process isAt nofun rfl nofun
  | take isAt => exact bounded.take isAt
  | takeEnd isAt =>
    have place := bounded.place (by rw [isAt]; rfl)
    have ending : Bounded config { state with processor := .ending } := bounded.process isAt nofun rfl fun _ => place
    refine ⟨ending.places, ending.kept, ending.signal, ending.last, ?_, ending.bounded, ending.place, ending.reading,
      ending.measured⟩
    exact Nat.le_succ_of_le ending.counted
  | throttle isAt => exact bounded.process isAt nofun rfl nofun
  | @collect sample isAt =>
    have holding : Bounded config { state with processor := Processor.holding sample } :=
      bounded.process isAt nofun rfl nofun
    exact holding.tasks (openTasks_filter_le _)
  | proceed isAt => exact bounded.process isAt nofun rfl nofun
  | submit isAt runs unlocked => exact bounded.submit isAt unlocked
  | await isAt =>
    have place := bounded.place (by rw [isAt]; rfl)
    exact bounded.process isAt nofun rfl fun _ => place
  | collectEnd isAt =>
    have place := bounded.place (by rw [isAt]; rfl)
    have ending : Bounded config { state with processor := .ending } := bounded.process isAt nofun rfl fun _ => place
    exact ending.tasks (openTasks_filter_le _)
  | fail locks someFailed => exact bounded.fail (openTasks_filter_lt someFailed)
  | exit isAt =>
    have place := bounded.place (by rw [isAt]; rfl)
    exact bounded.process isAt nofun rfl fun _ => place
  | put isTask stored => exact bounded.put isTask stored
  | returns isTask => exact bounded.tasks (isTask ▸ openTasks_replace_le id)
  | raise isTask => exact bounded.tasks (isTask ▸ openTasks_replace_le id)
  | monitorAsk => exact bounded.congr rfl rfl rfl rfl rfl rfl
  | monitorAnswer => exact bounded.congr rfl rfl rfl rfl rfl rfl
  | monitorStay => exact bounded.congr rfl rfl rfl rfl rfl rfl
  | monitorGoOn => exact bounded.congr rfl rfl rfl rfl rfl rfl
  | monitorResume => exact bounded.congr rfl rfl rfl rfl rfl rfl
  | reset =>
    refine bounded.reset ?_ nofun
    rintro activeTasks ⟨⟩
    exact openTasks_le_length _
  | measure isAt =>
    refine bounded.reset nofun ?_
    rintro samples ⟨⟩
    exact Nat.add_le_add (bounded.reading _ isAt) countP_le_length
  | assign isAt => exact bounded.assign isAt (counts rfl)
  | get received => exact bounded.get received
  | finish isEnded first stored => exact bounded.finish isEnded first stored

/-- A step of a run in which no reset overlooks a sample. -/
def Counts (config : Config) (state : State σ) (event : Event) (next : State σ) : Prop :=
  Step config state event next ∧ (event = .assign → state.processor.held = none)

/-- Nothing is dropped in a run in which no reset overlooks a sample. -/
theorem nothing_dropped {samples : List σ} {events : List Event} {state : State σ}
    (run : Run (Counts config) (State.initial config samples) events state) :
    state.messageQueue.droppedSamples = 0 ∧ state.queued + state.generating + state.held ≤ config.maxRequiredSamples := by
  have bounded := run.invariant (fun _ => Bounded config) (.initial samples)
    fun _ _ _ _ bounded taken => bounded.step taken.1 taken.2
  refine ⟨bounded.kept, ?_⟩
  have total : state.total = openTasks state.activeTasks + state.queued + state.held := rfl
  have le := generating_le_openTasks state
  have within := bounded.bounded
  omega

/-- A reset before the first sample is taken. -/
theorem nothing_dropped_reset : ∃ (events : List Event) (state : State Nat),
    Run (Counts ⟨1, 1⟩) (State.initial ⟨1, 1⟩ [7]) events state ∧ .assign ∈ events ∧ state.queued = 1 ∧
      state.messageQueue.droppedSamples = 0 ∧ state.queued + state.generating + state.held ≤ 1 := by
  have initial : Run (Counts ⟨1, 1⟩) (State.initial ⟨1, 1⟩ [7]) [] (State.initial ⟨1, 1⟩ [7]) := .start
  have checked := (((initial.step ⟨.feed rfl (by decide), nofun⟩).step ⟨.ask rfl rfl, nofun⟩).step
    ⟨.answer rfl, nofun⟩).step ⟨.goOn rfl rfl, nofun⟩
  have counted := ((checked.step ⟨.reset ⟨rfl, rfl⟩, nofun⟩).step ⟨.measure rfl, nofun⟩).step ⟨.assign rfl, fun _ => rfl⟩
  have submitted := ((counted.step ⟨.take rfl rfl, nofun⟩).step ⟨.proceed rfl (by decide), nofun⟩).step
    ⟨.submit rfl (.inl rfl) ⟨rfl, rfl⟩, nofun⟩
  have stored := submitted.step ⟨@Step.put _ _ _ [] [] 7 _ _ rfl rfl, nofun⟩
  exact ⟨_, _, stored, by decide, rfl, nothing_dropped stored⟩

/-- A reset overlooks the sample that was taken while it waited for the queue. A second
sample is taken, and its task drops the first one from the queue. -/
theorem overlooked_sample_dropped : ∃ (events : List Event) (state : State Nat),
    Run (Step ⟨1, 1⟩) (State.initial ⟨1, 1⟩ [7, 8]) events state ∧
      state.messageQueue.droppedSamples = 1 ∧ state.messageQueue.queue = [some 8] := by
  have initial : Run (Step ⟨1, 1⟩) (State.initial ⟨1, 1⟩ [7, 8]) [] (State.initial ⟨1, 1⟩ [7, 8]) := .start
  have fed := (initial.step (.feed rfl (by decide))).step (.feed rfl (by decide))
  have checked := ((fed.step (.ask rfl rfl)).step (.answer rfl)).step (.goOn rfl rfl)
  have overlooked := (((checked.step (.reset ⟨rfl, rfl⟩)).step (.measure rfl)).step (.take rfl rfl)).step (.assign rfl)
  have first := (overlooked.step (.proceed rfl (by decide))).step (.submit rfl (.inl rfl) ⟨rfl, rfl⟩)
  have second := (((first.step (.ask rfl rfl)).step (.answer rfl)).step (.goOn rfl rfl)).step (.take rfl rfl)
  have throttled := second.step (.throttle rfl (by decide) (by decide) ⟨rfl, rfl⟩)
  have stored := (throttled.step (@Step.put _ _ _ [] [] 7 _ _ rfl rfl)).step (@Step.returns _ _ _ [] [] rfl)
  have submitted := ((stored.step (.collect rfl (by decide) (by decide))).step (.proceed rfl (by decide))).step
    (.submit rfl (.inl rfl) ⟨rfl, rfl⟩)
  have dropped := submitted.step (@Step.put _ _ _ [] [] 8 _ _ rfl rfl)
  exact ⟨_, _, dropped, rfl, rfl⟩

end LLMFusion.FullyAsyncRollouter
