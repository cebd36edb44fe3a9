import LLMFusion.OneStepOff
import Mathlib.Algebra.BigOperators.Group.List.Basic
import Mathlib.Algebra.GroupWithZero.Nat
import Mathlib.Algebra.Order.Group.Nat

/-! What every run of the one-step-off trainer does, whatever order its task and its steps take. -/

namespace LLMFusion.OneStepOff
open Runs List

variable {β : Type} (setup : Setup β)

/-! ### Runs end -/

def phaseWeight : Phase β → Nat
  | .stopped _ => 0
  | .awaiting => 1
  | .prepare => 2
  | .validated => 3
  | .updated => 4
  | .launched _ _ => 5
  | .synced _ _ => 7
  | .received _ _ => 8

def taskWeight : Option (Task β) → Nat
  | none => 0
  | some .created => 1
  | some (.generating _ left _) => left + 9
  | some (.finished none) => 0
  | some (.finished (some _)) => 8

def weight (state : State β) : Nat :=
  phaseWeight state.phase + taskWeight state.task + (state.iterator.map (fun batch => setup.reads batch.2 + 9)).sum

theorem step_weight {state next : State β} {event : Event} (taken : Step setup state event next) : weight setup next < weight setup state := by
  cases event with
  | main =>
    obtain ⟨iterator, task, phase, globalSteps, isLastStep, actorVersion, rolloutVersion, trained, validations⟩ := state
    cases phase with
    | awaiting =>
      cases task with
      | none => cases taken
      | some task =>
        cases task with
        | created => cases taken
        | generating batch left seen => cases taken
        | finished result =>
          cases result with
          | none =>
            cases taken
            simp [weight, phaseWeight]
          | some result =>
            cases taken
            simp [weight, phaseWeight, taskWeight]
    | stopped raised => cases taken
    | synced batch seen =>
      cases taken
      cases isLastStep <;> simp [weight, phaseWeight, taskWeight] <;> omega
    | validated =>
      cases taken
      cases isLastStep <;> simp [weight, phaseWeight]
    | _ =>
      cases taken
      simp [weight, phaseWeight, fitUpdateWeights, fitUpdateActor, fitValidate]
  | task =>
    obtain ⟨iterator, task, phase, globalSteps, isLastStep, actorVersion, rolloutVersion, trained, validations⟩ := state
    cases task with
    | none => cases taken
    | some task =>
      cases task with
      | created =>
        cases iterator with
        | nil =>
          cases taken
          simp [weight, taskWeight]
        | cons batch rest =>
          cases taken
          simp [weight, taskWeight]
          omega
      | generating batch left seen =>
        cases left with
        | zero =>
          cases taken
          simp [weight, taskWeight]
        | succ left =>
          cases taken
          simp [weight, taskWeight]
      | finished result => cases taken

/-! ### What holds on the way -/

def held : Phase β → List (Nat × β)
  | .received batch _ | .synced batch _ | .launched batch _ => [batch]
  | _ => []

def inTask : Option (Task β) → List (Nat × β)
  | some (.generating batch _ _) | some (.finished (some (batch, _))) => [batch]
  | _ => []

/-- How far the step count is ahead of the batches that were trained on. -/
def ahead : Phase β → Nat
  | .updated | .validated => 0
  | _ => 1

/-- All versions read for a batch are one, at most one update behind the actor. -/
def Fresh (seen : List Nat) (actorVersion : Nat) : Prop :=
  ∃ version, (∀ read ∈ seen, read = version) ∧ version ≤ actorVersion ∧ actorVersion ≤ version + 1

def Warm (state : State β) : Prop :=
  state.globalSteps < setup.criticWarmup → state.actorVersion = 0 ∧ state.rolloutVersion = 0

def Lag (state : State β) : Prop :=
  state.rolloutVersion ≤ state.actorVersion ∧ state.actorVersion ≤ state.rolloutVersion + 1

/-- After the actor's update the servers are one update behind, unless there was none. -/
def Behind (state : State β) : Prop :=
  (state.globalSteps < setup.criticWarmup → state.actorVersion = 0 ∧ state.rolloutVersion = 0) ∧
    (setup.criticWarmup ≤ state.globalSteps → state.actorVersion = state.rolloutVersion + 1)

def lastStep : Nat := max 1 setup.totalTrainingSteps

/-- The step is one of the run, and the trainer knows whether it is the last one. -/
def Timed (state : State β) : Prop :=
  (0 < state.globalSteps ∧ state.globalSteps ≤ lastStep setup) ∧
    state.isLastStep = decide (state.globalSteps ≥ setup.totalTrainingSteps)

def Launched (state : State β) : Prop := state.task.isSome = !state.isLastStep

def AtPhase (state : State β) : Prop :=
  match state.phase with
  | .prepare =>
    state.task.isSome = true ∧ Warm setup state ∧ Lag state ∧ 0 < state.globalSteps ∧ state.globalSteps ≤ lastStep setup
  | .awaiting => state.task.isSome = true ∧ Warm setup state ∧ Lag state ∧ Timed setup state
  | .received _ seen =>
    state.task = none ∧ Warm setup state ∧ Lag state ∧ Timed setup state ∧ ∀ read ∈ seen, read = state.rolloutVersion
  | .synced _ seen =>
    state.task = none ∧ Warm setup state ∧ state.rolloutVersion = state.actorVersion ∧ Timed setup state ∧
      Fresh seen state.actorVersion
  | .launched _ seen =>
    Launched state ∧ Warm setup state ∧ state.rolloutVersion = state.actorVersion ∧ Timed setup state ∧
      Fresh seen state.actorVersion
  | .updated => Launched state ∧ Behind setup state ∧ Timed setup state
  | .validated =>
    Launched state ∧ Behind setup state ∧ Timed setup state ∧
      (state.isLastStep = true → setup.testFreq > 0 → ∃ entry ∈ state.validations, entry.step = state.globalSteps)
  | .stopped false =>
    state.task = none ∧ state.globalSteps = lastStep setup + 1 ∧
      (setup.testFreq > 0 → ∃ entry ∈ state.validations, entry.step = lastStep setup)
  | .stopped true => state.task = some (.finished none) ∧ state.globalSteps ≤ lastStep setup

/-- What a validation sees: everything before training, and later the weights of before the update. -/
def Validation.Late (entry : Validation) : Prop :=
  entry.step = 0 ∧ entry.rolloutVersion = entry.actorVersion ∨
    setup.testFreq > 0 ∧ entry.step ≤ lastStep setup ∧
      (entry.step < setup.criticWarmup → entry.rolloutVersion = entry.actorVersion) ∧
      (setup.criticWarmup ≤ entry.step → entry.actorVersion = entry.rolloutVersion + 1)

def TaskSees (state : State β) : Prop :=
  match state.task with
  | some (.generating _ _ seen) | some (.finished (some (_, seen))) => ∀ read ∈ seen, read = state.rolloutVersion
  | some (.finished none) => state.iterator = []
  | _ => True

structure Invariant (state : State β) : Prop where
  order : state.trained.map Trained.batch ++ held state.phase ++ inTask state.task ++ state.iterator = createContinuousIterator setup
  steps : state.globalSteps = state.trained.length + ahead state.phase
  atPhase : AtPhase setup state
  sees : TaskSees state
  trained : ∀ entry ∈ state.trained, Fresh entry.seen entry.actorVersion
  validations : ∀ entry ∈ state.validations, entry.Late setup

theorem invariant_start (trains : ¬ (setup.valBeforeTrain = true ∧ setup.valOnly = true)) : Invariant setup (fit setup) := by
  have start : fit setup = ⟨createContinuousIterator setup, some .created, .prepare, 1, false, 0, 0, [],
      if setup.valBeforeTrain = true then [⟨0, 0, 0⟩] else []⟩ := by
    rw [fit, if_neg trains]
    simp [fitUpdateWeights, validate]
  rw [start]
  refine ⟨by simp [held, inTask], rfl, ⟨rfl, fun _ => ⟨rfl, rfl⟩, ⟨Nat.le_refl 0, Nat.zero_le 1⟩, Nat.one_pos, Nat.le_max_left _ _⟩, trivial, ?_, ?_⟩
  · intro entry member
    cases member
  · intro entry member
    change entry ∈ (if setup.valBeforeTrain = true then [⟨0, 0, 0⟩] else [] : List Validation) at member
    split at member
    · rw [mem_singleton.mp member]
      exact Or.inl ⟨rfl, rfl⟩
    · cases member

variable {state : State β}

theorem atPhase_task (running : state.task.isSome = true) (unfinished : state.task ≠ some (.finished none))
    (atPhase : AtPhase setup state) (later : Task β) (iterator : List (Nat × β)) :
    AtPhase setup { state with task := some later, iterator := iterator } := by
  obtain ⟨_, current, phase, globalSteps, isLastStep, actorVersion, rolloutVersion, trained, validations⟩ := state
  cases phase with
  | prepare | awaiting => exact ⟨rfl, atPhase.2⟩
  | launched | updated | validated => exact ⟨running.symm.trans atPhase.1, atPhase.2⟩
  | received | synced =>
    cases atPhase.1
    cases running
  | stopped raised =>
    cases raised with
    | false =>
      cases atPhase.1
      cases running
    | true => exact absurd atPhase.1 unfinished

theorem invariant_task {state next : State β} (invariant : Invariant setup state) (taken : taskStep setup state = some next) :
    Invariant setup next := by
  obtain ⟨order, steps, atPhase, sees, trained, validations⟩ := invariant
  obtain ⟨iterator, task, phase, globalSteps, isLastStep, actorVersion, rolloutVersion, entries, logged⟩ := state
  cases task with
  | none => cases taken
  | some task =>
    cases task with
    | created =>
      cases iterator with
      | nil =>
        cases taken
        exact ⟨order, steps, atPhase_task setup rfl (by simp) atPhase _ _, rfl, trained, validations⟩
      | cons batch rest =>
        cases taken
        refine ⟨?_, steps, atPhase_task setup rfl (by simp) atPhase _ _, ?_, trained, validations⟩
        · rw [← order]
          simp [inTask]
        · intro read member
          cases member
    | generating batch left seen =>
      cases left with
      | zero =>
        cases taken
        exact ⟨order, steps, atPhase_task setup rfl (by simp) atPhase _ _, sees, trained, validations⟩
      | succ left =>
        cases taken
        refine ⟨order, steps, atPhase_task setup rfl (by simp) atPhase _ _, ?_, trained, validations⟩
        intro read member
        cases mem_append.mp member with
        | inl earlier => exact sees read earlier
        | inr now => exact mem_singleton.mp now
    | finished result => cases taken

theorem invariant_main {state next : State β} (invariant : Invariant setup state) (taken : mainStep setup state = some next) :
    Invariant setup next := by
  obtain ⟨order, steps, atPhase, sees, trained, validations⟩ := invariant
  obtain ⟨iterator, task, phase, globalSteps, isLastStep, actorVersion, rolloutVersion, entries, logged⟩ := state
  cases phase with
  | prepare =>
    cases taken
    obtain ⟨running, warm, lag, within⟩ := atPhase
    exact ⟨order, steps, ⟨running, warm, lag, within, rfl⟩, sees, trained, validations⟩
  | awaiting =>
    obtain ⟨running, warm, lag, timed⟩ := atPhase
    cases task with
    | none => cases taken
    | some task =>
      cases task with
      | created => cases taken
      | generating batch left seen => cases taken
      | finished result =>
        cases result with
        | none =>
          cases taken
          exact ⟨order, steps, ⟨rfl, timed.1.2⟩, sees, trained, validations⟩
        | some result =>
          cases taken
          exact ⟨by simpa [held, inTask] using order, steps, ⟨rfl, warm, lag, timed, sees⟩, trivial, trained, validations⟩
  | received batch seen =>
    cases taken
    obtain ⟨idle, warm, lag, timed, same⟩ := atPhase
    cases idle
    refine ⟨order, steps, ⟨rfl, ?_, ?_, timed, rolloutVersion, same, lag⟩, trivial, trained, validations⟩
    · intro early
      obtain ⟨actor, rollout⟩ := warm early
      exact ⟨actor, (if_neg (Nat.not_le.mpr early)).trans rollout⟩
    · by_cases late : setup.criticWarmup ≤ globalSteps
      · exact if_pos late
      · obtain ⟨actor, rollout⟩ := warm (Nat.lt_of_not_le late)
        exact (if_neg late).trans (rollout.trans actor.symm)
  | synced batch seen =>
    cases taken
    obtain ⟨idle, atPhase⟩ := atPhase
    cases idle
    cases isLastStep with
    | true => exact ⟨order, steps, ⟨rfl, atPhase⟩, trivial, trained, validations⟩
    | false => exact ⟨order, steps, ⟨rfl, atPhase⟩, trivial, trained, validations⟩
  | launched batch seen =>
    cases taken
    obtain ⟨launched, warm, equal, timed, fresh⟩ := atPhase
    change rolloutVersion = actorVersion at equal
    refine ⟨?_, ?_, ⟨launched, ⟨?_, ?_⟩, timed⟩, sees, ?_, validations⟩
    · rw [← order]
      simp [held, fitUpdateActor]
    · change globalSteps = (entries ++ [_]).length
      rw [length_append]
      exact steps
    · intro early
      obtain ⟨actor, rollout⟩ := warm early
      exact ⟨(if_neg (Nat.not_le.mpr early)).trans actor, rollout⟩
    · intro late
      exact (if_pos late).trans (congrArg (· + 1) equal.symm)
    · intro entry member
      cases mem_append.mp member with
      | inl earlier => exact trained entry earlier
      | inr last =>
        rw [mem_singleton.mp last]
        exact fresh
  | updated =>
    cases taken
    obtain ⟨launched, behind, timed⟩ := atPhase
    have late (tested : setup.testFreq > 0) : (⟨globalSteps, rolloutVersion, actorVersion⟩ : Validation).Late setup := by
      refine Or.inr ⟨tested, timed.1.2, ?_, behind.2⟩
      intro early
      obtain ⟨actor, rollout⟩ := behind.1 early
      exact rollout.trans actor.symm
    refine ⟨order, steps, ⟨launched, behind, timed, ?_⟩, sees, trained, ?_⟩
    · intro last tested
      refine ⟨⟨globalSteps, rolloutVersion, actorVersion⟩, ?_, rfl⟩
      change _ ∈ ite _ _ _
      rw [if_pos ⟨tested, Or.inl last⟩]
      exact mem_append_right _ mem_cons_self
    · intro entry member
      change entry ∈ ite _ _ _ at member
      split at member
      · rename_i tested
        cases mem_append.mp member with
        | inl earlier => exact validations entry earlier
        | inr now =>
          rw [mem_singleton.mp now]
          exact late tested.1
      · exact validations entry member
  | validated =>
    cases taken
    obtain ⟨launched, behind, timed, logs⟩ := atPhase
    obtain ⟨⟨positive, within⟩, last⟩ := timed
    cases isLastStep with
    | true =>
      have reached : globalSteps = lastStep setup := by
        have enough : setup.totalTrainingSteps ≤ globalSteps := of_decide_eq_true last.symm
        exact Nat.le_antisymm within (Nat.max_le.mpr ⟨positive, enough⟩)
      refine ⟨order, congrArg (· + 1) steps, ⟨Option.not_isSome_iff_eq_none.mp (by rw [launched]; simp), congrArg (· + 1) reached, ?_⟩, sees,
        trained, validations⟩
      intro tested
      rw [← reached]
      exact logs rfl tested
    | false =>
      have more : globalSteps < setup.totalTrainingSteps := Nat.lt_of_not_le (of_decide_eq_false last.symm)
      refine ⟨order, congrArg (· + 1) steps, ⟨launched, ?_, ?_, Nat.succ_pos _, Nat.le_trans more (Nat.le_max_right _ _)⟩, sees,
        trained, validations⟩
      · intro early
        exact behind.1 (Nat.lt_of_succ_lt early)
      · by_cases late : setup.criticWarmup ≤ globalSteps
        · have equal := behind.2 late
          change actorVersion = rolloutVersion + 1 at equal
          exact ⟨equal ▸ Nat.le_succ _, Nat.le_of_eq equal⟩
        · obtain ⟨actor, rollout⟩ := behind.1 (Nat.lt_of_not_le late)
          change actorVersion = 0 at actor
          change rolloutVersion = 0 at rollout
          exact ⟨by rw [actor, rollout], by rw [actor]; exact Nat.zero_le _⟩
  | stopped raised => cases taken

theorem invariant_run (trains : ¬ (setup.valBeforeTrain = true ∧ setup.valOnly = true)) {events : List Event}
    (run : Reached setup events state) : Invariant setup state := by
  induction run with
  | start => exact invariant_start setup trains
  | @step _ _ _ event _ taken ih =>
    cases event with
    | main => exact invariant_main setup ih taken
    | task => exact invariant_task setup ih taken

/-! ### Where runs stop -/

/-- A state in which neither the trainer nor the task can go on. -/
def Stuck (state : State β) : Prop := ∀ event next, ¬ Step setup state event next

theorem stuck_stopped (invariant : Invariant setup state) (stuck : Stuck setup state) :
    ∃ raised, state.phase = .stopped raised := by
  obtain ⟨iterator, task, phase, globalSteps, isLastStep, actorVersion, rolloutVersion, trained, validations⟩ := state
  cases phase with
  | stopped raised => exact ⟨raised, rfl⟩
  | awaiting =>
    cases task with
    | none => cases invariant.atPhase.1
    | some task =>
      cases task with
      | created =>
        cases iterator with
        | nil => exact absurd rfl (stuck .task _)
        | cons batch rest => exact absurd rfl (stuck .task _)
      | generating batch left seen =>
        cases left with
        | zero => exact absurd rfl (stuck .task _)
        | succ left => exact absurd rfl (stuck .task _)
      | finished result =>
        cases result with
        | none => exact absurd rfl (stuck .main _)
        | some result => exact absurd rfl (stuck .main _)
  | _ => exact absurd rfl (stuck .main _)

theorem returned (invariant : Invariant setup state) (stopped : state.phase = .stopped false) :
    state.trained.map Trained.batch = (createContinuousIterator setup).take (lastStep setup) ∧
      lastStep setup ≤ (createContinuousIterator setup).length := by
  obtain ⟨order, steps, atPhase, _, _, _⟩ := invariant
  rw [AtPhase, stopped] at atPhase
  rw [stopped, atPhase.1] at order
  rw [stopped, atPhase.2.1] at steps
  have count : (state.trained.map Trained.batch).length = lastStep setup := by
    rw [length_map]
    exact (Nat.succ.inj steps).symm
  simp only [held, inTask, append_nil] at order
  rw [← order, ← count]
  exact ⟨take_left.symm, by rw [length_append]; exact Nat.le_add_right _ _⟩

theorem raised (invariant : Invariant setup state) (stopped : state.phase = .stopped true) :
    (createContinuousIterator setup).length < lastStep setup := by
  obtain ⟨order, steps, atPhase, sees, _, _⟩ := invariant
  rw [AtPhase, stopped] at atPhase
  rw [TaskSees, atPhase.1] at sees
  rw [stopped, atPhase.1, sees] at order
  rw [stopped] at steps
  simp only [held, inTask, append_nil] at order
  rw [← order, length_map]
  have within := atPhase.2
  rw [steps] at within
  exact within

theorem quiet_step {state next : State β} {event : Event} (invariant : Invariant setup state) (taken : Step setup state event next)
    (changed : next.rolloutVersion ≠ state.rolloutVersion) : state.task = none := by
  obtain ⟨iterator, task, phase, globalSteps, isLastStep, actorVersion, rolloutVersion, trained, validations⟩ := state
  cases event with
  | main =>
    cases phase with
    | received batch seen => exact invariant.atPhase.1
    | stopped raised => cases taken
    | awaiting =>
      cases task with
      | none => rfl
      | some task =>
        cases task with
        | created => cases taken
        | generating batch left seen => cases taken
        | finished result =>
          cases result with
          | none =>
            cases taken
            exact absurd rfl changed
          | some result =>
            cases taken
            exact absurd rfl changed
    | _ =>
      cases taken
      exact absurd rfl changed
  | task =>
    cases task with
    | none => rfl
    | some task =>
      cases task with
      | created =>
        cases iterator with
        | nil =>
          cases taken
          exact absurd rfl changed
        | cons batch rest =>
          cases taken
          exact absurd rfl changed
      | generating batch left seen =>
        cases left with
        | zero =>
          cases taken
          exact absurd rfl changed
        | succ left =>
          cases taken
          exact absurd rfl changed
      | finished result => cases taken

/-! ### The schedule -/

/-- The schedule over all runs. -/
structure Scheduled : Prop where
  /-- every run ends -/
  ends : ∃ bound, ∀ events state, Reached setup events state → events.length ≤ bound
  /-- without an exception -/
  returns : ∀ events state, Reached setup events state → Stuck setup state → state.phase = .stopped false
  /-- after training on the batches in order, each once, for as many steps as there are batches or are wanted -/
  trains : ∀ events state, Reached setup events state → Stuck setup state →
    state.trained.map Trained.batch = (createContinuousIterator setup).take setup.totalTrainingSteps
  /-- the weights of the servers stay as they are while a batch is generated -/
  quiet : ∀ events state event next, Reached setup events state → Step setup state event next →
    next.rolloutVersion ≠ state.rolloutVersion → ∀ batch left seen, state.task ≠ some (.generating batch left seen)
  /-- a batch comes from one version, at most one update behind the actor that trains on it -/
  fresh : ∀ events state, Reached setup events state → ∀ entry ∈ state.trained, Fresh entry.seen entry.actorVersion
  /-- a validation evaluates the weights of the actor after the step's update -/
  validates : ∀ events state, Reached setup events state → ∀ entry ∈ state.validations, entry.rolloutVersion = entry.actorVersion

/-- There are steps to take and batches for all of them, and no validation comes after an update;
or there is nothing to train on and only a validation is wanted. -/
def Allowed : Prop :=
  if setup.valBeforeTrain = true ∧ setup.valOnly = true then (createContinuousIterator setup).take setup.totalTrainingSteps = []
  else (0 < setup.totalTrainingSteps ∧ setup.totalTrainingSteps ≤ (createContinuousIterator setup).length) ∧
    (setup.testFreq > 0 → setup.totalTrainingSteps < setup.criticWarmup)

theorem scheduled_valOnly (only : setup.valBeforeTrain = true ∧ setup.valOnly = true) :
    Scheduled setup ↔ (createContinuousIterator setup).take setup.totalTrainingSteps = [] := by
  have start : fit setup = ⟨createContinuousIterator setup, none, .stopped false, 0, false, 0, 0, [], [⟨0, 0, 0⟩]⟩ := by
    rw [fit, if_pos only]
    simp [fitUpdateWeights, validate, only.1]
  have stuck : Stuck setup (fit setup) := by
    intro event next taken
    rw [start] at taken
    cases event with
    | main => cases taken
    | task => cases taken
  have alone : ∀ events state, Reached setup events state → events = [] ∧ state = fit setup := by
    intro events state run
    induction run with
    | start => exact ⟨rfl, rfl⟩
    | step _ taken ih =>
      rw [ih.2] at taken
      exact absurd taken (stuck _ _)
  constructor
  · intro schedule
    have trains := schedule.trains [] (fit setup) .start stuck
    rw [start] at trains
    exact trains.symm
  · intro nothing
    refine ⟨⟨0, ?_⟩, ?_, ?_, ?_, ?_, ?_⟩
    · intro events state run
      rw [(alone events state run).1]
      exact Nat.le_refl 0
    · intro events state run _
      rw [(alone events state run).2, start]
    · intro events state run _
      rw [(alone events state run).2, start, nothing]
      rfl
    · intro events state event next run taken
      rw [(alone events state run).2] at taken
      exact absurd taken (stuck event next)
    · intro events state run entry member
      rw [(alone events state run).2, start] at member
      cases member
    · intro events state run entry member
      rw [(alone events state run).2, start] at member
      rw [mem_singleton.mp member]

/-- When there are steps to take, no step comes after data have run out, and no validation after an update. -/
theorem scheduled_of_allowed (trains : ¬ (setup.valBeforeTrain = true ∧ setup.valOnly = true))
    (some : 0 < setup.totalTrainingSteps) (enough : setup.totalTrainingSteps ≤ (createContinuousIterator setup).length)
    (untested : setup.testFreq > 0 → setup.totalTrainingSteps < setup.criticWarmup) : Scheduled setup := by
  have last : lastStep setup = setup.totalTrainingSteps := Nat.max_eq_right some
  have returns : ∀ events state, Reached setup events state → Stuck setup state → state.phase = .stopped false := by
    intro events state run stuck
    have invariant := invariant_run setup trains run
    obtain ⟨stop, stopped⟩ := stuck_stopped setup invariant stuck
    cases stop with
    | false => exact stopped
    | true =>
      have short := raised setup invariant stopped
      rw [last] at short
      exact absurd enough (Nat.not_le.mpr short)
  refine ⟨⟨weight setup (fit setup), ?_⟩, returns, ?_, ?_, ?_, ?_⟩
  · intro events state run
    exact Nat.le_of_add_right_le (run.bounded (fun _ _ _ taken => step_weight setup taken))
  · intro events state run stuck
    rw [(returned setup (invariant_run setup trains run) (returns events state run stuck)).1, last]
  · intro events state event next run taken changed batch left seen running
    rw [quiet_step setup (invariant_run setup trains run) taken changed] at running
    cases running
  · intro events state run
    exact (invariant_run setup trains run).trained
  · intro events state run entry member
    cases (invariant_run setup trains run).validations entry member with
    | inl before => exact before.2
    | inr late =>
      obtain ⟨tested, within, early, _⟩ := late
      rw [last] at within
      exact early (Nat.lt_of_le_of_lt within (untested tested))

theorem allowed_of_scheduled (trains : ¬ (setup.valBeforeTrain = true ∧ setup.valOnly = true)) (schedule : Scheduled setup) :
    (0 < setup.totalTrainingSteps ∧ setup.totalTrainingSteps ≤ (createContinuousIterator setup).length) ∧
      (setup.testFreq > 0 → setup.totalTrainingSteps < setup.criticWarmup) := by
  have first : Reached setup [] (fit setup) := .start
  obtain ⟨events, final, run, stuck⟩ := first.exists_stuck (fun _ _ _ taken => step_weight setup taken)
  have invariant := invariant_run setup trains run
  have stopped := schedule.returns events final run stuck
  obtain ⟨taken, enough⟩ := returned setup invariant stopped
  have lengths := congrArg length ((schedule.trains events final run stuck).symm.trans taken)
  rw [length_take, length_take, Nat.min_eq_left enough] at lengths
  have wanted : setup.totalTrainingSteps ≤ lastStep setup := Nat.le_max_right _ _
  have positive : 1 ≤ lastStep setup := Nat.le_max_left _ _
  have last : lastStep setup = setup.totalTrainingSteps := by omega
  refine ⟨⟨last ▸ positive, last ▸ enough⟩, ?_⟩
  intro tested
  have atPhase := invariant.atPhase
  rw [AtPhase, stopped] at atPhase
  obtain ⟨entry, member, step⟩ := atPhase.2.2 tested
  have same := schedule.validates events final run entry member
  cases invariant.validations entry member with
  | inl before =>
    rw [step] at before
    omega
  | inr late =>
    obtain ⟨_, _, _, updated⟩ := late
    by_cases warm : setup.totalTrainingSteps < setup.criticWarmup
    · exact warm
    · have behind := updated (by rw [step, last]; exact Nat.not_lt.mp warm)
      omega

/-- The schedule is kept exactly then. -/
theorem scheduled_iff : Scheduled setup ↔ Allowed setup := by
  by_cases trains : setup.valBeforeTrain = true ∧ setup.valOnly = true
  · rw [Allowed, if_pos trains]
    exact scheduled_valOnly setup trains
  · rw [Allowed, if_neg trains]
    constructor
    · exact allowed_of_scheduled setup trains
    · intro allowed
      exact scheduled_of_allowed setup trains allowed.1.1 allowed.1.2 allowed.2

/-- One batch where two steps are wanted, and no validation. -/
def shortData : Setup Nat := ⟨1, fun _ => [7], 2, 0, -1, false, false, fun _ => 1⟩

/-- Two batches with a validation after each of two steps. -/
def testedSteps : Setup Nat := ⟨1, fun _ => [7, 8], 2, 0, 1, false, false, fun _ => 1⟩

/-- The first raises when data have run out, and the second validates the weights of before the update. -/
theorem not_scheduled : ¬ Scheduled shortData ∧ ¬ Scheduled testedSteps := by
  constructor
  · intro schedule
    exact absurd (allowed_of_scheduled shortData (by decide) schedule).1.2 (by decide)
  · intro schedule
    exact absurd ((allowed_of_scheduled testedSteps (by decide) schedule).2 (by decide)) (by decide)

end LLMFusion.OneStepOff
