import LLMFusion.Lib.Dictionary
import LLMFusion.Lib.Runs

/-! The replay buffer of the synchronous trainer. Prompt tasks put what their sessions return into the
transfer queue; a thread polls the keys and tags of the queue and adds them to the buffer; the trainer
submits prompts, samples their outputs from the buffer, and clears them. -/

namespace LLMFusion.ReplayBuffer
open Dictionary

inductive Partition where
  | train
  | val
  deriving DecidableEq, Repr

inductive Status where
  | running
  | success
  | finished
  | failure
  deriving DecidableEq, Repr

/-- The items of a tag, each of which may be missing. -/
structure Tag where
  globalSteps : Option Nat
  status : Option Status
  deriving DecidableEq, Repr

/-- The uid of a prompt, or `{uid}_{session_id}_{index}` for an output of one of its sessions. -/
inductive Key where
  | prompt (uid : String)
  | output (uid : String) (session index : Nat)
  deriving DecidableEq, Repr

def Key.uid : Key → String
  | .prompt uid => uid
  | .output uid _ _ => uid

abbrev Items := List (Key × Tag)

/-- `tags.update(new)` -/
def Tag.update (old new : Tag) : Tag := ⟨new.globalSteps.or old.globalSteps, new.status.or old.status⟩

/-! ### The buffer -/

/-- A key that is not in the partition starts with an empty tag. -/
def add (partition items : Items) : Items :=
  merge (fun old new => (old.getD ⟨none, none⟩).update new) partition items

def remove (partition : Items) (keys : List Key) : Items := erase partition keys

inductive KeyError where
  | globalSteps
  | status
  deriving DecidableEq, Repr

/-- One pass of the loop of `sample`; `none` is to wait. -/
def sample (globalSteps : Nat) (partition : Items) : Except KeyError (Option (List Key)) :=
  match partition with
  | [] => .ok (some [])
  | (key, tag) :: rest =>
    match tag.globalSteps with
    | none => .error .globalSteps
    | some steps =>
      if steps = globalSteps then
        match tag.status with
        | none => .error .status
        | some .running => .ok none
        | some .success => (sample globalSteps rest).map (Option.map (key :: ·))
        | some _ => sample globalSteps rest
      else sample globalSteps rest

/-! ### Prompts and the trainer -/

inductive Session where
  | running
  /-- The outputs are in the queue. -/
  | written
  | returned
  | raised
  deriving DecidableEq, Repr

/-- `_run_prompt` of a prompt. -/
structure Task where
  globalSteps : Nat
  sessions : List Session
  /-- The status of the prompt is in the queue. -/
  recorded : Bool
  deriving DecidableEq, Repr

/-- A batch of prompts, each with the number of its sessions, that is submitted and then sampled. -/
structure Round where
  globalSteps : Nat
  prompts : List (String × Nat)
  deriving DecidableEq, Repr

def Round.uids (round : Round) : List String := round.prompts.map Prod.fst

/-- Where the trainer is with a partition. -/
inductive Phase where
  | idle
  | dispatching (round : Round) (left : List (String × Nat))
  | sampling (round : Round)
  /-- The keys that were returned and are not cleared yet. -/
  | sampled (round : Round) (held : List Key)
  /-- Some of them are cleared from the queue, and next removed from the buffer. -/
  | cleared (round : Round) (held keys : List Key)
  | raised
  deriving DecidableEq, Repr

/-- A partition of the queue and of the buffer. All keys that were ever written, returned by `sample` and
cleared are kept. -/
structure Part where
  rounds : List Round
  phase : Phase
  queue : Items
  buffer : Items
  tasks : String → Option Task
  written : List Key
  returned : List Key
  cleared : List Key

inductive PartEvent where
  | generate
  | dispatch
  | dispatched
  | write (uid : String) (session count : Nat)
  | finish (uid : String) (session : Nat)
  | fail (uid : String) (session : Nat)
  | record (uid : String)
  | sample
  | clear (keys : List Key)
  | remove

def setTask (tasks : String → Option Task) (uid : String) (task : Task) : String → Option Task :=
  fun other => if other = uid then some task else tasks other

def Task.set (task : Task) (session : Nat) (status : Session) : Task :=
  { task with sessions := task.sessions.set session status }

/-- What `generate_sequences` marks as running. -/
def pendingItems (round : Round) : Items :=
  round.prompts.map (fun prompt => (.prompt prompt.1, ⟨some round.globalSteps, some .running⟩))

def outputKeys (uid : String) (session count : Nat) : List Key := (List.range count).map (.output uid session)

/-- `gather` raises when a session has raised, and returns when all have returned. -/
def gathered (sessions : List Session) : Option Status :=
  if .raised ∈ sessions then some .failure else if ∀ session ∈ sessions, session = .returned then some .finished else none

inductive PartStep : Part → PartEvent → Part → Prop where
  | generate {part : Part} {round : Round} {rest : List Round} (idle : part.phase = .idle) (next : part.rounds = round :: rest) :
      PartStep part .generate { part with
        rounds := rest, phase := .dispatching round round.prompts, buffer := add part.buffer (pendingItems round) }
  | dispatch {part : Part} {round : Round} {uid : String} {n : Nat} {left : List (String × Nat)}
      (dispatching : part.phase = .dispatching round ((uid, n) :: left)) :
      PartStep part .dispatch { part with
        phase := .dispatching round left
        tasks := setTask part.tasks uid ⟨round.globalSteps, List.replicate n .running, false⟩ }
  | dispatched {part : Part} {round : Round} (dispatching : part.phase = .dispatching round []) :
      PartStep part .dispatched { part with phase := .sampling round }
  | write {part : Part} {uid : String} {task : Task} {session count : Nat} (isTask : part.tasks uid = some task)
      (running : task.sessions[session]? = some .running) (filled : 0 < count) :
      PartStep part (.write uid session count) { part with
        queue := add part.queue ((outputKeys uid session count).map (fun key => (key, ⟨some task.globalSteps, some .success⟩)))
        tasks := setTask part.tasks uid (task.set session .written)
        written := part.written ++ outputKeys uid session count }
  /-- With outputs that are written, or with none. -/
  | finish {part : Part} {uid : String} {task : Task} {session : Nat} (isTask : part.tasks uid = some task)
      (alive : task.sessions[session]? = some .running ∨ task.sessions[session]? = some .written) :
      PartStep part (.finish uid session) { part with tasks := setTask part.tasks uid (task.set session .returned) }
  | fail {part : Part} {uid : String} {task : Task} {session : Nat} (isTask : part.tasks uid = some task)
      (alive : task.sessions[session]? = some .running ∨ task.sessions[session]? = some .written) :
      PartStep part (.fail uid session) { part with tasks := setTask part.tasks uid (task.set session .raised) }
  | record {part : Part} {uid : String} {task : Task} {status : Status} (isTask : part.tasks uid = some task)
      (first : task.recorded = false) (known : gathered task.sessions = some status) :
      PartStep part (.record uid) { part with
        queue := add part.queue [(.prompt uid, ⟨none, some status⟩)]
        tasks := setTask part.tasks uid { task with recorded := true } }
  | sample {part : Part} {round : Round} {keys : List Key} (sampling : part.phase = .sampling round)
      (found : sample round.globalSteps part.buffer = .ok (some keys)) :
      PartStep part .sample { part with phase := .sampled round keys, returned := part.returned ++ keys }
  | sampleRaises {part : Part} {round : Round} {error : KeyError} (sampling : part.phase = .sampling round)
      (raises : ReplayBuffer.sample round.globalSteps part.buffer = .error error) :
      PartStep part .sample { part with phase := .raised }
  /-- `kv_clear` of all or some of the keys. -/
  | clear {part : Part} {round : Round} {held keys : List Key} (sampled : part.phase = .sampled round held)
      (inside : ∀ key ∈ keys, key ∈ held) :
      PartStep part (.clear keys) { part with
        phase := .cleared round held keys, queue := erase part.queue keys, cleared := part.cleared ++ keys }
  | remove {part : Part} {round : Round} {held keys : List Key} (cleared : part.phase = .cleared round held keys) :
      PartStep part .remove { part with
        phase := if ∀ key ∈ held, key ∈ keys then .idle else .sampled round (held.filter (fun key => decide (key ∉ keys)))
        buffer := ReplayBuffer.remove part.buffer keys }

/-! ### The system -/

/-- `pending` is what the polling thread has listed and not added yet. -/
structure State where
  parts : Partition → Part
  pending : List (Partition × Items)

inductive Event where
  | part (partition : Partition) (event : PartEvent)
  | poll
  | apply

def setPart (parts : Partition → Part) (partition : Partition) (part : Part) : Partition → Part :=
  fun other => if other = partition then part else parts other

/-- The items of all partitions at one moment. -/
def kvList (parts : Partition → Part) : List (Partition × Items) :=
  [Partition.train, Partition.val].map (fun partition => (partition, (parts partition).queue))

inductive Step : State → Event → State → Prop where
  | part {state : State} {event : PartEvent} {next : Part} (partition : Partition)
      (taken : PartStep (state.parts partition) event next) :
      Step state (.part partition event) { state with parts := setPart state.parts partition next }
  | poll {state : State} (idle : state.pending = []) : Step state .poll { state with pending := kvList state.parts }
  | apply {state : State} {partition : Partition} {items : Items} {rest : List (Partition × Items)}
      (listed : state.pending = (partition, items) :: rest) :
      Step state .apply {
        parts := setPart state.parts partition { state.parts partition with buffer := add (state.parts partition).buffer items }
        pending := rest }

def Part.initial (rounds : List Round) : Part := ⟨rounds, .idle, [], [], fun _ => none, [], [], []⟩

def State.initial (rounds : Partition → List Round) : State := ⟨fun partition => .initial (rounds partition), []⟩

end LLMFusion.ReplayBuffer
