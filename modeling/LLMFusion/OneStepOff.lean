import LLMFusion.Lib.Runs

/-! The one-step-off trainer: while it trains on a batch, a task generates the next one. The weights
of the actor and of the rollout servers are versions, the number of the actor's updates they contain. -/

namespace LLMFusion.OneStepOff
open Runs

/-- What a run is configured with; `reads` is how often the servers look at their weights for a batch. -/
structure Setup (β : Type) where
  totalEpochs : Nat
  trainDataloader : Nat → List β
  totalTrainingSteps : Nat
  criticWarmup : Nat
  testFreq : Int
  valBeforeTrain : Bool
  valOnly : Bool
  reads : β → Nat

variable {β : Type}

/-- The batches of all epochs. -/
def createContinuousIterator (setup : Setup β) : List (Nat × β) :=
  (List.range setup.totalEpochs).flatMap (fun epoch => (setup.trainDataloader epoch).map (fun batch => (epoch, batch)))

/-- The task of `_async_gen_next_batch`: `seen` are the versions its servers have read so far. -/
inductive Task (β : Type) where
  | created
  | generating (batch : Nat × β) (left : Nat) (seen : List Nat)
  | finished (result : Option ((Nat × β) × List Nat))

/-- Where the trainer is in `fit_step`. -/
inductive Phase (β : Type) where
  | prepare
  | awaiting
  | received (batch : Nat × β) (seen : List Nat)
  | synced (batch : Nat × β) (seen : List Nat)
  | launched (batch : Nat × β) (seen : List Nat)
  | updated
  | validated
  | stopped (raised : Bool)

/-- A batch that was trained on, with the version of the actor that did. -/
structure Trained (β : Type) where
  batch : Nat × β
  seen : List Nat
  actorVersion : Nat

/-- The versions at a validation. -/
structure Validation where
  step : Nat
  rolloutVersion : Nat
  actorVersion : Nat

structure State (β : Type) where
  iterator : List (Nat × β)
  task : Option (Task β)
  phase : Phase β
  globalSteps : Nat
  isLastStep : Bool
  actorVersion : Nat
  rolloutVersion : Nat
  trained : List (Trained β)
  validations : List Validation

variable (setup : Setup β)

/-- The weights of the actor are sent to the servers. -/
def fitUpdateWeights (state : State β) : State β :=
  { state with rolloutVersion := if setup.criticWarmup ≤ state.globalSteps then state.actorVersion else state.rolloutVersion }

def fitUpdateActor (state : State β) : State β :=
  { state with actorVersion := if setup.criticWarmup ≤ state.globalSteps then state.actorVersion + 1 else state.actorVersion }

/-- The servers answer the validation. -/
def validate (state : State β) : List Validation :=
  state.validations ++ [⟨state.globalSteps, state.rolloutVersion, state.actorVersion⟩]

def fitValidate (state : State β) : State β :=
  { state with validations :=
      if setup.testFreq > 0 ∧ (state.isLastStep = true ∨ (state.globalSteps : Int) % setup.testFreq = 0) then validate state
      else state.validations }

/-- `fit` up to its loop, without a checkpoint to load. -/
def fit : State β :=
  let blank : State β := ⟨createContinuousIterator setup, none, .prepare, 0, false, 0, 0, [], []⟩
  let state := fitUpdateWeights setup blank
  let state := { state with validations := if setup.valBeforeTrain then validate state else [] }
  if setup.valBeforeTrain ∧ setup.valOnly then { state with phase := .stopped false }
  else { state with globalSteps := 1, task := some .created }

/-- The trainer's next part of `fit_step`. It waits for the task, and it cannot take `None` apart. -/
def mainStep (state : State β) : Option (State β) :=
  match state.phase with
  | .prepare => some { state with isLastStep := decide (state.globalSteps ≥ setup.totalTrainingSteps), phase := .awaiting }
  | .awaiting =>
    match state.task with
    | some (.finished (some (batch, seen))) => some { state with phase := .received batch seen, task := none }
    | some (.finished none) => some { state with phase := .stopped true }
    | _ => none
  | .received batch seen => some { fitUpdateWeights setup state with phase := .synced batch seen }
  | .synced batch seen =>
    some { state with phase := .launched batch seen, task := if state.isLastStep then none else some .created }
  | .launched batch seen =>
    some { fitUpdateActor setup state with
      phase := .updated, trained := state.trained ++ [⟨batch, seen, state.actorVersion⟩] }
  | .updated => some { fitValidate setup state with phase := .validated }
  | .validated =>
    some { state with
      globalSteps := state.globalSteps + 1, phase := if state.isLastStep then .stopped false else .prepare }
  | .stopped _ => none

/-- The task's next part: it takes a batch, the servers read their weights, and it returns. -/
def taskStep (state : State β) : Option (State β) :=
  match state.task with
  | some .created =>
    match state.iterator with
    | [] => some { state with task := some (.finished none) }
    | batch :: rest => some { state with iterator := rest, task := some (.generating batch (setup.reads batch.2) []) }
  | some (.generating batch (left + 1) seen) =>
    some { state with task := some (.generating batch left (seen ++ [state.rolloutVersion])) }
  | some (.generating batch 0 seen) => some { state with task := some (.finished (some (batch, seen))) }
  | _ => none

inductive Event where
  | main
  | task

/-- Either may go on, in any order. -/
def Step (state : State β) (event : Event) (next : State β) : Prop :=
  match event with
  | .main => mainStep setup state = some next
  | .task => taskStep setup state = some next

abbrev Reached (events : List Event) (state : State β) : Prop := Run (Step setup) (fit setup) events state

end LLMFusion.OneStepOff
