import LLMFusion.ReplayBuffer

/-! What `sample` returns in a run. Where a prompt only fails when its other sessions have ended, and no
snapshot brings a cleared key back that a later call would find, every call returns the outputs of
the prompts submitted since the call before it. -/

namespace LLMFusion.ReplayBuffer
open List hiding get
open Dictionary Runs

/-! ### What is claimed -/

/-- No session can still write. -/
def Task.Quiet (task : Task) : Prop := ∀ session ∈ task.sessions, session ≠ .running

/-- The round that is submitted and not sampled yet. -/
def Part.current (part : Part) : Option Round :=
  match part.phase with
  | .dispatching round _ => some round
  | .sampling round => some round
  | _ => none

/-- The rounds that are not sampled yet. -/
def Part.unsampled (part : Part) : List Round := part.current.toList ++ part.rounds

/-- The step does not record a prompt while another of its sessions can write, and does not bring a cleared
key back that belongs to the global step of a call to come. -/
def Careful (state : State) : Event → Prop
  | .part partition (.record uid) => ∀ task, (state.parts partition).tasks uid = some task → task.Quiet
  | .apply => ∀ partition items rest, state.pending = (partition, items) :: rest →
      ∀ key tag, (key, tag) ∈ items → key ∈ (state.parts partition).cleared →
        ∀ round ∈ (state.parts partition).unsampled, tag.globalSteps ≠ some round.globalSteps
  | _ => True

/-- The keys are the outputs of the prompts of the round, each once and for the first time, and no session of
them can still write. -/
structure Exact (part : Part) (round : Round) (keys : List Key) : Prop where
  distinct : keys.Nodup
  outputs : ∀ key, key ∈ keys ↔ key ∈ part.written ∧ key.uid ∈ round.uids
  fresh : ∀ key ∈ keys, key ∉ part.returned ∧ key ∉ part.cleared
  quiet : ∀ uid ∈ round.uids, ∃ task, part.tasks uid = some task ∧ task.Quiet

/-- `sample` does not raise, what it returns is exact, and nothing of the rounds before is missing. When all
prompts have recorded, the next snapshot lets it return. -/
structure Sound (part : Part) : Prop where
  unraised : part.phase ≠ .raised
  holds : ∀ round, part.phase = .sampling round → ∃ result, sample round.globalSteps part.buffer = .ok result ∧
    ∀ keys, result = some keys → Exact part round keys
  complete : ∀ key ∈ part.written, key ∈ part.returned ∨ ∃ round ∈ part.unsampled, key.uid ∈ round.uids
  returns : ∀ round, part.phase = .sampling round →
    (∀ uid ∈ round.uids, ∃ task, part.tasks uid = some task ∧ task.recorded = true) →
    ∃ keys, sample round.globalSteps (add part.buffer part.queue) = .ok (some keys)

/-! ### The buffer -/

theorem get_add {items : Items} (distinct : (items.map Prod.fst).Nodup) (partition : Items) (key : Key) :
    get (add partition items) key = (get items key).elim (get partition key)
      (fun new => some (((get partition key).getD ⟨none, none⟩).update new)) := by
  rw [add, get_merge distinct]

def Tag.Readable (tag : Tag) : Prop := tag.globalSteps ≠ none ∧ tag.status ≠ none

/-- `sample` waits for running prompts of its global step, and else returns the successful outputs. -/
theorem sample_readable (globalSteps : Nat) {partition : Items} (readable : ∀ entry ∈ partition, entry.2.Readable) :
    (sample globalSteps partition = .ok none ∧ ∃ entry ∈ partition, entry.2 = ⟨some globalSteps, some .running⟩) ∨
    (sample globalSteps partition =
        .ok (some ((partition.filter (fun entry => decide (entry.2 = ⟨some globalSteps, some .success⟩))).map Prod.fst)) ∧
      ∀ entry ∈ partition, entry.2 ≠ ⟨some globalSteps, some .running⟩) := by
  induction partition with
  | nil => exact Or.inr ⟨rfl, fun entry member => (not_mem_nil member).elim⟩
  | cons first rest ih =>
    obtain ⟨key, steps, status⟩ := first
    obtain ⟨⟨hasSteps, hasStatus⟩, later⟩ := forall_mem_cons.mp readable
    obtain ⟨steps, rfl⟩ := Option.ne_none_iff_exists'.mp hasSteps
    obtain ⟨status, rfl⟩ := Option.ne_none_iff_exists'.mp hasStatus
    -- an entry that is passed over
    have passed (skip : sample globalSteps ((key, ⟨some steps, some status⟩) :: rest) = sample globalSteps rest)
        (notRunning : (⟨some steps, some status⟩ : Tag) ≠ ⟨some globalSteps, some .running⟩)
        (notSuccess : (⟨some steps, some status⟩ : Tag) ≠ ⟨some globalSteps, some .success⟩) :
        (sample globalSteps ((key, ⟨some steps, some status⟩) :: rest) = .ok none ∧
          ∃ entry ∈ (key, (⟨some steps, some status⟩ : Tag)) :: rest, entry.2 = ⟨some globalSteps, some .running⟩) ∨
        (sample globalSteps ((key, ⟨some steps, some status⟩) :: rest) =
            .ok (some ((((key, ⟨some steps, some status⟩) :: rest).filter
              (fun entry => decide (entry.2 = ⟨some globalSteps, some .success⟩))).map Prod.fst)) ∧
          ∀ entry ∈ (key, (⟨some steps, some status⟩ : Tag)) :: rest, entry.2 ≠ ⟨some globalSteps, some .running⟩) := by
      rw [skip, filter_cons_of_neg (by simpa using notSuccess)]
      cases ih later with
      | inl waits =>
        obtain ⟨waits, entry, member, running⟩ := waits
        exact Or.inl ⟨waits, entry, mem_cons_of_mem _ member, running⟩
      | inr returns => exact Or.inr ⟨returns.1, forall_mem_cons.mpr ⟨notRunning, returns.2⟩⟩
    by_cases same : steps = globalSteps
    · subst same
      cases status with
      | running => exact Or.inl ⟨by simp [sample], _, mem_cons_self, rfl⟩
      | success =>
        cases ih later with
        | inl waits =>
          obtain ⟨waits, entry, member, running⟩ := waits
          refine Or.inl ⟨?_, entry, mem_cons_of_mem _ member, running⟩
          simp [sample, waits, Except.map]
        | inr returns =>
          refine Or.inr ⟨?_, forall_mem_cons.mpr ⟨by simp, returns.2⟩⟩
          simp [sample, returns.1, Except.map]
      | finished => exact passed (by simp [sample]) (by simp) (by simp)
      | failure => exact passed (by simp [sample]) (by simp) (by simp)
    · exact passed (by simp [sample, same]) (by simp [same]) (by simp [same])

/-! ### The invariant -/

def Part.steps (part : Part) (uid : String) : Option Nat := (part.tasks uid).map Task.globalSteps

def Part.Recorded (part : Part) (uid : String) : Prop := ∃ task, part.tasks uid = some task ∧ task.recorded = true

def Part.left (part : Part) : List String :=
  match part.phase with
  | .dispatching _ left => left.map Prod.fst
  | _ => []

def Part.Holds (part : Part) (key : Key) : Prop :=
  match part.phase with
  | .sampled _ held => key ∈ held
  | .cleared _ held _ => key ∈ held
  | _ => ∃ round, part.current = some round ∧ key.uid ∈ round.uids

/-- A prompt has recorded, and the items have all its outputs that are not cleared. -/
def Part.Settled (part : Part) (items : Items) (uid : String) : Prop :=
  part.Recorded uid ∧ ∀ key ∈ part.written, key.uid = uid → key ∈ part.cleared ∨ get items key ≠ none

def Part.Output (part : Part) (key : Key) (tag : Tag) : Prop :=
  key ∈ part.written ∧ ∃ steps, part.steps key.uid = some steps ∧ tag = ⟨some steps, some .success⟩

def Part.Lists (part : Part) : Key → Tag → Prop
  | .prompt uid, tag => (tag = ⟨none, some .finished⟩ ∨ tag = ⟨none, some .failure⟩) ∧ part.Recorded uid
  | .output uid session index, tag => part.Output (.output uid session index) tag

def Part.Buffers (part : Part) : Key → Tag → Prop
  | .prompt uid, tag => ∃ steps status, tag = ⟨some steps, some status⟩ ∧ status ≠ .success ∧
      (status ≠ .running → part.Settled part.buffer uid)
  | .output uid session index, tag => part.Output (.output uid session index) tag

structure Listed (part : Part) (items : Items) : Prop where
  distinct : (items.map Prod.fst).Nodup
  entries : ∀ key tag, get items key = some tag → part.Lists key tag
  settled : ∀ uid, get items (.prompt uid) ≠ none → part.Settled items uid

structure Inv (part : Part) : Prop where
  unraised : part.phase ≠ .raised
  quiet : ∀ uid task, part.tasks uid = some task → task.recorded = true → task.Quiet
  wrote : ∀ key ∈ part.written, ∃ uid session index task status, key = .output uid session index ∧
    part.tasks uid = some task ∧ task.sessions[session]? = some status ∧ status ≠ .running
  queueDistinct : (part.queue.map Prod.fst).Nodup
  queueEntries : ∀ key tag, get part.queue key = some tag → part.Lists key tag
  queueCleared : ∀ key ∈ part.cleared, get part.queue key = none
  queueRecorded : ∀ uid, part.Recorded uid → get part.queue (.prompt uid) ≠ none
  queueWritten : ∀ key ∈ part.written, key ∈ part.cleared ∨ get part.queue key ≠ none
  bufferDistinct : (part.buffer.map Prod.fst).Nodup
  bufferEntries : ∀ key tag, get part.buffer key = some tag → part.Buffers key tag
  bufferTask : ∀ uid steps, part.steps uid = some steps → ∃ status, get part.buffer (.prompt uid) = some ⟨some steps, some status⟩ ∧
    ((∀ round ∈ part.unsampled, uid ∉ round.uids) → status ≠ .running)
  bufferKnown : ∀ uid, get part.buffer (.prompt uid) ≠ none → part.steps uid ≠ none ∨ uid ∈ part.left
  bufferFresh : ∀ key tag, get part.buffer key = some tag → (∀ uid, key ≠ .prompt uid) →
    ∀ round ∈ part.unsampled, tag.globalSteps = some round.globalSteps → part.Holds key
  uids : (part.unsampled.flatMap Round.uids).Nodup
  future : ∀ round ∈ part.rounds, ∀ uid ∈ round.uids, part.steps uid = none ∧ get part.buffer (.prompt uid) = none
  left : ∀ round, part.current = some round → part.left.Sublist round.uids
  waiting : ∀ round, part.current = some round → ∀ uid ∈ part.left,
    part.steps uid = none ∧ get part.buffer (.prompt uid) = some ⟨some round.globalSteps, some .running⟩
  dispatched : ∀ round, part.current = some round → ∀ uid ∈ round.uids, uid ∉ part.left → part.steps uid = some round.globalSteps
  accounted : ∀ key ∈ part.written, key ∈ part.cleared ∨ part.Holds key
  complete : ∀ key ∈ part.written, key ∈ part.returned ∨ ∃ round ∈ part.unsampled, key.uid ∈ round.uids
  returned : ∀ key ∈ part.returned, key ∈ part.written ∧ ∀ round ∈ part.unsampled, key.uid ∉ round.uids
  cleared : ∀ key ∈ part.cleared, key ∈ part.returned
  sampled : ∀ round held, part.phase = .sampled round held → ∀ key ∈ held, key ∈ part.returned ∧ key ∉ part.cleared
  clearing : ∀ round held keys, part.phase = .cleared round held keys →
    (∀ key ∈ held, key ∈ part.returned ∧ (key ∈ part.cleared ↔ key ∈ keys)) ∧ ∀ key ∈ keys, key ∈ held

/-! ### What the invariant says -/

namespace Inv
variable {part : Part} (inv : Inv part)
include inv

theorem written_output {key : Key} (written : key ∈ part.written) (uid : String) : key ≠ .prompt uid := by
  obtain ⟨uid', session, index, task, status, rfl, -⟩ := inv.wrote key written
  exact nofun

theorem active {uid : String} {task : Task} (isTask : part.tasks uid = some task) (busy : ¬ task.Quiet) :
    ∃ round, part.current = some round ∧ uid ∈ round.uids := by
  have steps : part.steps uid = some task.globalSteps := by rw [Part.steps, isTask, Option.map_some]
  obtain ⟨status, found, past⟩ := inv.bufferTask uid _ steps
  by_cases old : ∀ round ∈ part.unsampled, uid ∉ round.uids
  · obtain ⟨steps', status', same, -, settled⟩ := inv.bufferEntries _ _ found
    cases same
    obtain ⟨task', isTask', recorded⟩ := (settled (past old)).1
    cases isTask.symm.trans isTask'
    exact absurd (inv.quiet uid task isTask recorded) busy
  · push Not at old
    obtain ⟨round, member, inside⟩ := old
    cases List.mem_append.mp member with
    | inl current => exact ⟨round, Option.mem_toList.mp current, inside⟩
    | inr future =>
      have none := (inv.future round future uid inside).1
      rw [none] at steps
      cases steps

theorem readable : ∀ entry ∈ part.buffer, entry.2.Readable := by
  intro entry member
  have found := (mem_iff_get inv.bufferDistinct).mp (show (entry.1, entry.2) ∈ part.buffer from member)
  have buffers := inv.bufferEntries _ _ found
  obtain ⟨key, tag⟩ := entry
  cases key with
  | prompt uid =>
    obtain ⟨steps, status, rfl, -⟩ := buffers
    exact ⟨nofun, nofun⟩
  | output uid session index =>
    obtain ⟨-, steps, -, rfl⟩ := buffers
    exact ⟨nofun, nofun⟩

end Inv

/-! ### What later steps keep -/

structure Grows (before after : Part) : Prop where
  steps : ∀ uid steps, before.steps uid = some steps → after.steps uid = some steps
  recorded : ∀ uid, before.Recorded uid → after.Recorded uid
  written : ∀ key ∈ before.written, key ∈ after.written
  silent : ∀ key ∈ after.written, key ∉ before.written → ¬ before.Recorded key.uid
  cleared : ∀ key ∈ before.cleared, key ∈ after.cleared

namespace Grows
variable {before after : Part} (growth : Grows before after)
include growth

theorem output {key : Key} {tag : Tag} (output : before.Output key tag) : after.Output key tag := by
  obtain ⟨written, steps, known, isTag⟩ := output
  exact ⟨growth.written key written, steps, growth.steps _ _ known, isTag⟩

theorem lists {key : Key} {tag : Tag} (lists : before.Lists key tag) : after.Lists key tag := by
  cases key with
  | prompt uid => exact ⟨lists.1, growth.recorded uid lists.2⟩
  | output uid session index => exact growth.output lists

theorem settled {items later : Items} {uid : String} (settled : before.Settled items uid)
    (kept : ∀ key, get items key ≠ none → key ∈ after.cleared ∨ get later key ≠ none) : after.Settled later uid := by
  refine ⟨growth.recorded uid settled.1, ?_⟩
  intro key written isUid
  by_cases old : key ∈ before.written
  · cases settled.2 key old isUid with
    | inl cleared => exact Or.inl (growth.cleared key cleared)
    | inr present => exact kept key present
  · exact absurd settled.1 (isUid ▸ growth.silent key written old)

theorem listed {items : Items} (listed : Listed before items) : Listed after items where
  distinct := listed.distinct
  entries key tag found := growth.lists (listed.entries key tag found)
  settled uid present := growth.settled (listed.settled uid present) (fun _ present => Or.inr present)

theorem buffers {key : Key} {tag : Tag} (buffers : before.Buffers key tag)
    (kept : ∀ key, get before.buffer key ≠ none → key ∈ after.cleared ∨ get after.buffer key ≠ none) :
    after.Buffers key tag := by
  cases key with
  | prompt uid =>
    obtain ⟨steps, status, isTag, notSuccess, settled⟩ := buffers
    exact ⟨steps, status, isTag, notSuccess, fun ended => growth.settled (settled ended) kept⟩
  | output uid session index => exact growth.output buffers

end Grows

theorem Inv.listed {part : Part} (inv : Inv part) : Listed part part.queue where
  distinct := inv.queueDistinct
  entries := inv.queueEntries
  settled uid present := by
    obtain ⟨tag, found⟩ := Option.ne_none_iff_exists'.mp present
    exact ⟨(inv.queueEntries _ _ found).2, fun key written _ => inv.queueWritten key written⟩

/-! ### Sessions -/

variable {session : Nat} {status : Session}

theorem Task.set_quiet {task : Task} (quiet : task.Quiet) (ended : status ≠ .running) :
    (task.set session status).Quiet := by
  intro other member
  cases List.mem_or_eq_of_mem_set member with
  | inl old => exact quiet other old
  | inr new => exact new ▸ ended

theorem Task.set_ended {task : Task} (session : Nat) {other : Nat} {status old : Session} (ended : status ≠ .running)
    (found : task.sessions[other]? = some old) (notRunning : old ≠ .running) :
    ∃ new, (task.set session status).sessions[other]? = some new ∧ new ≠ .running := by
  rw [Task.set, List.getElem?_set]
  split
  · next same =>
    subst same
    rw [if_pos (List.getElem?_eq_some_iff.mp found).1]
    exact ⟨status, rfl, ended⟩
  · exact ⟨old, found, notRunning⟩

theorem Task.Quiet.not_running {task : Task} (quiet : task.Quiet) (running : task.sessions[session]? = some .running) :
    False :=
  quiet .running (List.mem_of_getElem? running) rfl

theorem gathered_status {sessions : List Session} {status : Status} (known : gathered sessions = some status) :
    status = .finished ∨ status = .failure := by
  rw [gathered] at known
  split at known
  · cases known
    exact Or.inr rfl
  · split at known
    · cases known
      exact Or.inl rfl
    · cases known

theorem setTask_same (tasks : String → Option Task) (uid : String) (task : Task) : setTask tasks uid task uid = some task := if_pos rfl

theorem setTask_other (tasks : String → Option Task) {uid other : String} (task : Task) (different : other ≠ uid) :
    setTask tasks uid task other = tasks other := if_neg different

def Part.worked (part : Part) (queue : Items) (tasks : String → Option Task) (written : List Key) : Part :=
  { part with queue := queue, tasks := tasks, written := written }

namespace Inv
open List hiding get
variable {part : Part} (inv : Inv part)
include inv

theorem unrecorded {uid : String} {task : Task} (isTask : part.tasks uid = some task)
    (running : task.sessions[session]? = some .running) : ¬ part.Recorded uid := by
  rintro ⟨task', isTask', recorded⟩
  cases isTask.symm.trans isTask'
  exact (inv.quiet uid task isTask recorded).not_running running

theorem worked {queue : Items} {tasks : String → Option Task} {written : List Key}
    (growth : Grows part (part.worked queue tasks written))
    (steps : ∀ uid, (part.worked queue tasks written).steps uid = part.steps uid)
    (owners : ∀ key ∈ written, key ∉ part.written → ∃ round, part.current = some round ∧ key.uid ∈ round.uids)
    (quiet : ∀ uid task, tasks uid = some task → task.recorded = true → task.Quiet)
    (wrote : ∀ key ∈ written, ∃ uid session index task status, key = .output uid session index ∧
      tasks uid = some task ∧ task.sessions[session]? = some status ∧ status ≠ .running)
    (queueDistinct : (queue.map Prod.fst).Nodup)
    (queueEntries : ∀ key tag, get queue key = some tag → (part.worked queue tasks written).Lists key tag)
    (queueCleared : ∀ key ∈ part.cleared, get queue key = none)
    (queueRecorded : ∀ uid, (part.worked queue tasks written).Recorded uid → get queue (.prompt uid) ≠ none)
    (queueWritten : ∀ key ∈ written, key ∈ part.cleared ∨ get queue key ≠ none) :
    Inv (part.worked queue tasks written) := by
  -- what was not written before is of the current round
  have holds (key : Key) (new : ∃ round, part.current = some round ∧ key.uid ∈ round.uids) : part.Holds key := by
    obtain ⟨round, current, inside⟩ := new
    rw [Part.Holds]
    split
    · next sampled =>
      rw [Part.current, sampled] at current
      cases current
    · next clearing =>
      rw [Part.current, clearing] at current
      cases current
    · exact ⟨round, current, inside⟩
  have current (key : Key) (new : ∃ round, part.current = some round ∧ key.uid ∈ round.uids) :
      ∃ round ∈ part.unsampled, key.uid ∈ round.uids := by
    obtain ⟨round, current, inside⟩ := new
    exact ⟨round, mem_append_left _ (Option.mem_toList.mpr current), inside⟩
  exact {
    unraised := inv.unraised
    quiet := quiet
    wrote := wrote
    queueDistinct := queueDistinct
    queueEntries := queueEntries
    queueCleared := queueCleared
    queueRecorded := queueRecorded
    queueWritten := queueWritten
    bufferDistinct := inv.bufferDistinct
    bufferEntries := fun key tag found => growth.buffers (inv.bufferEntries key tag found) (fun _ present => Or.inr present)
    bufferTask := fun uid count known => inv.bufferTask uid count ((steps uid).symm.trans known)
    bufferKnown := fun uid present => (inv.bufferKnown uid present).imp_left (fun known => by rwa [steps])
    bufferFresh := inv.bufferFresh
    uids := inv.uids
    future := fun round member uid inside => by
      rw [steps]
      exact inv.future round member uid inside
    left := inv.left
    waiting := fun round isCurrent uid member => by
      rw [steps]
      exact inv.waiting round isCurrent uid member
    dispatched := fun round isCurrent uid inside outside => by
      rw [steps]
      exact inv.dispatched round isCurrent uid inside outside
    accounted := fun key member => by
      by_cases old : key ∈ part.written
      · exact inv.accounted key old
      · exact Or.inr (holds key (owners key member old))
    complete := fun key member => by
      by_cases old : key ∈ part.written
      · exact inv.complete key old
      · exact Or.inr (current key (owners key member old))
    returned := fun key member => ⟨growth.written key (inv.returned key member).1, (inv.returned key member).2⟩
    cleared := inv.cleared
    sampled := inv.sampled
    clearing := inv.clearing }

omit inv in
theorem steps_setTask (queue : Items) (written : List Key) {uid : String} {task task' : Task} (isTask : part.tasks uid = some task)
    (same : task'.globalSteps = task.globalSteps) (other : String) :
    (part.worked queue (setTask part.tasks uid task') written).steps other = part.steps other := by
  simp only [Part.steps, Part.worked]
  by_cases here : other = uid
  · rw [here, setTask_same, isTask, Option.map_some, Option.map_some, same]
  · rw [setTask_other _ _ here]

omit inv in
theorem recorded_setTask (queue : Items) (written : List Key) {uid : String} {task task' : Task} (isTask : part.tasks uid = some task)
    (same : task'.recorded = task.recorded) (other : String) :
    (part.worked queue (setTask part.tasks uid task') written).Recorded other ↔ part.Recorded other := by
  simp only [Part.Recorded, Part.worked]
  by_cases here : other = uid
  · rw [here, setTask_same, isTask]
    simp [same]
  · rw [setTask_other _ _ here]

theorem quiet_set {uid : String} {task : Task} (isTask : part.tasks uid = some task)
    (ended : status ≠ .running) (other : String) (task' : Task)
    (isTask' : setTask part.tasks uid (task.set session status) other = some task') (recorded : task'.recorded = true) :
    task'.Quiet := by
  by_cases here : other = uid
  · subst here
    rw [setTask_same] at isTask'
    cases isTask'
    exact Task.set_quiet (inv.quiet other task isTask recorded) ended
  · rw [setTask_other _ _ here] at isTask'
    exact inv.quiet other task' isTask' recorded

theorem wrote_set {uid : String} {task : Task} (isTask : part.tasks uid = some task) (session : Nat)
    (ended : status ≠ .running) (key : Key) (member : key ∈ part.written) :
    ∃ other session' index task' status', key = .output other session' index ∧
      setTask part.tasks uid (task.set session status) other = some task' ∧ task'.sessions[session']? = some status' ∧
      status' ≠ .running := by
  obtain ⟨other, session', index, task', old, isKey, isTask', found, notRunning⟩ := inv.wrote key member
  by_cases here : other = uid
  · subst here
    cases isTask.symm.trans isTask'
    obtain ⟨new, found, notRunning⟩ := Task.set_ended session ended found notRunning
    exact ⟨other, session', index, _, new, isKey, setTask_same _ _ _, found, notRunning⟩
  · exact ⟨other, session', index, task', old, isKey, (setTask_other _ _ here).trans isTask', found, notRunning⟩

theorem ended {uid : String} {task : Task} (isTask : part.tasks uid = some task)
    (ended : status ≠ .running) : Inv (part.worked part.queue (setTask part.tasks uid (task.set session status)) part.written) ∧
      Grows part (part.worked part.queue (setTask part.tasks uid (task.set session status)) part.written) := by
  have steps := steps_setTask part.queue part.written isTask (show (task.set session status).globalSteps = _ from rfl)
  have recorded := recorded_setTask part.queue part.written isTask (show (task.set session status).recorded = _ from rfl)
  have growth : Grows part (part.worked part.queue (setTask part.tasks uid (task.set session status)) part.written) := {
    steps := fun other count known => (steps other).trans known
    recorded := fun other known => (recorded other).mpr known
    written := fun key member => member
    silent := fun key member new => absurd member new
    cleared := fun key member => member }
  refine ⟨?_, growth⟩
  apply inv.worked growth steps
  case owners => exact fun key member new => absurd member new
  case quiet => exact inv.quiet_set isTask ended
  case wrote => exact inv.wrote_set isTask session ended
  case queueDistinct => exact inv.queueDistinct
  case queueEntries => exact fun key tag found => growth.lists (inv.queueEntries key tag found)
  case queueCleared => exact inv.queueCleared
  case queueRecorded => exact fun other known => inv.queueRecorded other ((recorded other).mp known)
  case queueWritten => exact inv.queueWritten

omit inv in
theorem get_written (queue : Items) (uid : String) (session count : Nat) (steps : Nat) (key : Key) :
    get (add queue ((outputKeys uid session count).map (fun key => (key, ⟨some steps, some .success⟩)))) key =
      if key ∈ outputKeys uid session count then some ⟨some steps, some .success⟩ else get queue key := by
  generalize isItems : (outputKeys uid session count).map (fun key => (key, (⟨some steps, some .success⟩ : Tag))) = items
  have keys : items.map Prod.fst = outputKeys uid session count := by
    rw [← isItems, map_map]
    exact map_id _
  have distinct : (items.map Prod.fst).Nodup := by
    rw [keys, outputKeys]
    exact List.Nodup.map (fun _ _ same => by cases same; rfl) nodup_range
  rw [get_add distinct]
  split
  · next inside =>
    rw [← keys] at inside
    cases found : get items key with
    | none => exact absurd inside (get_none.mp found)
    | some tag =>
      have member := get_some_mem found
      rw [← isItems] at member
      obtain ⟨key', -, same⟩ := mem_map.mp member
      cases same
      rfl
  · next outside =>
    rw [get_none.mpr (keys ▸ outside)]
    rfl

theorem write {uid : String} {task : Task} {session count : Nat} (isTask : part.tasks uid = some task)
    (running : task.sessions[session]? = some .running) :
    Inv (part.worked (add part.queue ((outputKeys uid session count).map (fun key => (key, ⟨some task.globalSteps, some .success⟩))))
        (setTask part.tasks uid (task.set session .written)) (part.written ++ outputKeys uid session count)) ∧ Grows part
        (part.worked (add part.queue ((outputKeys uid session count).map (fun key => (key, ⟨some task.globalSteps, some .success⟩))))
          (setTask part.tasks uid (task.set session .written)) (part.written ++ outputKeys uid session count)) := by
  generalize isQueue : add part.queue ((outputKeys uid session count).map
    (fun key => (key, (⟨some task.globalSteps, some .success⟩ : Tag)))) = queue
  have found (key : Key) : get queue key = if key ∈ outputKeys uid session count then some ⟨some task.globalSteps, some .success⟩
      else get part.queue key := by
    rw [← isQueue, get_written]
  have isOutput (key : Key) (member : key ∈ outputKeys uid session count) : ∃ index, key = .output uid session index := by
    obtain ⟨index, -, isKey⟩ := mem_map.mp member
    exact ⟨index, isKey.symm⟩
  have notPrompt (other : String) : .prompt other ∉ outputKeys uid session count := by
    intro member
    obtain ⟨index, isKey⟩ := isOutput _ member
    cases isKey
  have ended : Session.written ≠ .running := Session.noConfusion
  have unrecorded := inv.unrecorded isTask running
  have busy : ¬ task.Quiet := fun quiet => quiet.not_running running
  have steps := steps_setTask queue (part.written ++ outputKeys uid session count) isTask
    (show (task.set session .written).globalSteps = _ from rfl)
  have recorded := recorded_setTask queue (part.written ++ outputKeys uid session count) isTask
    (show (task.set session .written).recorded = _ from rfl)
  have growth : Grows part
      (part.worked queue (setTask part.tasks uid (task.set session .written)) (part.written ++ outputKeys uid session count)) := {
    steps := fun other known => (steps other).trans
    recorded := fun other known => (recorded other).mpr known
    written := fun key member => mem_append_left _ member
    silent := fun key member new => by
      obtain ⟨index, rfl⟩ := isOutput key ((mem_append.mp member).resolve_left new)
      exact unrecorded
    cleared := fun key member => member }
  refine ⟨?_, growth⟩
  apply inv.worked growth steps
  case owners =>
    intro key member new
    obtain ⟨index, rfl⟩ := isOutput key ((mem_append.mp member).resolve_left new)
    exact inv.active isTask busy
  case quiet => exact inv.quiet_set isTask ended
  case wrote =>
    intro key member
    cases mem_append.mp member with
    | inl old => exact inv.wrote_set isTask session ended key old
    | inr new =>
      obtain ⟨index, rfl⟩ := isOutput key new
      refine ⟨uid, session, index, _, .written, rfl, setTask_same _ _ _, ?_, ended⟩
      rw [Task.set, List.getElem?_set_self (List.getElem?_eq_some_iff.mp running).1]
  case queueDistinct => exact isQueue ▸ merge_distinct inv.queueDistinct _
  case queueEntries =>
    intro key tag present
    rw [found] at present
    split at present
    · next new =>
      cases present
      obtain ⟨index, rfl⟩ := isOutput key new
      refine ⟨mem_append_right _ new, task.globalSteps, (steps uid).trans ?_, rfl⟩
      rw [Part.steps, isTask, Option.map_some]
    · exact growth.lists (inv.queueEntries key tag present)
  case queueCleared =>
    intro key cleared
    have old := inv.returned key (inv.cleared key cleared)
    rw [found, if_neg, inv.queueCleared key cleared]
    -- what is cleared is of an earlier round
    intro new
    obtain ⟨index, rfl⟩ := isOutput key new
    obtain ⟨round, current, inside⟩ := inv.active isTask busy
    exact old.2 round (mem_append_left _ (Option.mem_toList.mpr current)) inside
  case queueRecorded =>
    intro other known
    rw [found, if_neg (notPrompt other)]
    exact inv.queueRecorded other ((recorded other).mp known)
  case queueWritten =>
    intro key member
    rw [found]
    split
    · exact Or.inr (Option.some_ne_none _)
    · next old => exact inv.queueWritten key ((mem_append.mp member).resolve_right old)

theorem record {uid : String} {task : Task} {status : Status} (isTask : part.tasks uid = some task)
    (known : gathered task.sessions = some status) (quiet : task.Quiet) :
    Inv (part.worked (add part.queue [(.prompt uid, ⟨none, some status⟩)]) (setTask part.tasks uid { task with recorded := true })
        part.written) ∧
      Grows part (part.worked (add part.queue [(.prompt uid, ⟨none, some status⟩)])
        (setTask part.tasks uid { task with recorded := true }) part.written) := by
  generalize isQueue : add part.queue [(.prompt uid, ⟨none, some status⟩)] = queue
  have distinct : ([(Key.prompt uid, (⟨none, some status⟩ : Tag))].map Prod.fst).Nodup := nodup_singleton _
  have other {key : Key} (different : key ≠ .prompt uid) : get queue key = get part.queue key := by
    rw [← isQueue, get_add distinct, get_cons, if_neg (fun same => different same.symm), get_nil]
    rfl
  have here : get queue (.prompt uid) = some ⟨none, some status⟩ := by
    rw [← isQueue, get_add distinct, get_cons, if_pos rfl, Option.elim_some]
    cases old : get part.queue (.prompt uid) with
    | none => rfl
    | some tag =>
      obtain ⟨rfl | rfl, -⟩ := inv.queueEntries _ _ old
      · rfl
      · rfl
  have steps := steps_setTask queue part.written isTask (show ({ task with recorded := true } : Task).globalSteps = _ from rfl)
  have recorded (uid' : String) : (part.worked queue (setTask part.tasks uid { task with recorded := true }) part.written).Recorded uid' ↔
      uid' = uid ∨ part.Recorded uid' := by
    simp only [Part.Recorded, Part.worked]
    by_cases same : uid' = uid
    · rw [same, setTask_same]
      simp
    · rw [setTask_other _ _ same]
      simp [same]
  have growth : Grows part (part.worked queue (setTask part.tasks uid { task with recorded := true }) part.written) := {
    steps := fun other known => (steps other).trans
    recorded := fun other known => (recorded other).mpr (Or.inr known)
    written := fun key member => member
    silent := fun key member new => absurd member new
    cleared := fun key member => member }
  refine ⟨?_, growth⟩
  apply inv.worked growth steps
  case owners => exact fun key member new => absurd member new
  case quiet =>
    intro uid' task' isTask' recorded'
    by_cases same : uid' = uid
    · rw [same, setTask_same] at isTask'
      cases isTask'
      exact quiet
    · rw [setTask_other _ _ same] at isTask'
      exact inv.quiet uid' task' isTask' recorded'
  case wrote =>
    intro key member
    obtain ⟨uid', session, index, task', old, isKey, isTask', found, notRunning⟩ := inv.wrote key member
    by_cases same : uid' = uid
    · subst same
      cases isTask.symm.trans isTask'
      exact ⟨uid', session, index, _, old, isKey, setTask_same _ _ _, found, notRunning⟩
    · exact ⟨uid', session, index, task', old, isKey, (setTask_other _ _ same).trans isTask', found, notRunning⟩
  case queueDistinct => exact isQueue ▸ merge_distinct inv.queueDistinct _
  case queueEntries =>
    intro key tag present
    by_cases same : key = .prompt uid
    · subst same
      cases here.symm.trans present
      refine ⟨?_, (recorded uid).mpr (Or.inl rfl)⟩
      cases gathered_status known with
      | inl finished => exact Or.inl (by rw [finished])
      | inr failure => exact Or.inr (by rw [failure])
    · exact growth.lists (inv.queueEntries key tag ((other same).symm.trans present))
  case queueCleared =>
    intro key cleared
    have written := (inv.returned key (inv.cleared key cleared)).1
    rw [other (inv.written_output written uid)]
    exact inv.queueCleared key cleared
  case queueRecorded =>
    intro uid' isRecorded
    by_cases same : uid' = uid
    · rw [same, here]
      exact nofun
    · rw [other (fun equal => same (by cases equal; rfl))]
      exact inv.queueRecorded uid' (((recorded uid').mp isRecorded).resolve_left same)
  case queueWritten =>
    intro key member
    rw [other (inv.written_output member uid)]
    exact inv.queueWritten key member

end Inv

/-! ### The trainer -/

theorem Grows.of_same {before after : Part} (tasks : after.tasks = before.tasks) (written : after.written = before.written)
    (cleared : ∀ key ∈ before.cleared, key ∈ after.cleared) : Grows before after where
  steps uid steps known := by rwa [Part.steps, tasks]
  recorded uid known := by rwa [Part.Recorded, tasks]
  written key member := written ▸ member
  silent key member new := absurd (written ▸ member) new
  cleared := cleared

variable {round : Round}

theorem get_pending (distinct : round.uids.Nodup) (buffer : Items)
    (new : ∀ uid ∈ round.uids, get buffer (.prompt uid) = none) (key : Key) :
    (∃ uid ∈ round.uids, key = .prompt uid ∧ get (add buffer (pendingItems round)) key = some ⟨some round.globalSteps, some .running⟩) ∨
      (∀ uid ∈ round.uids, key ≠ .prompt uid) ∧ get (add buffer (pendingItems round)) key = get buffer key := by
  have keys : (pendingItems round).map Prod.fst = round.uids.map Key.prompt := by
    simp only [pendingItems, Round.uids, map_map, Function.comp_def]
  have distinctItems : ((pendingItems round).map Prod.fst).Nodup := by
    rw [keys]
    exact distinct.map (fun _ _ same => by cases same; rfl)
  rw [get_add distinctItems]
  cases found : get (pendingItems round) key with
  | none =>
    refine Or.inr ⟨?_, rfl⟩
    intro uid inside same
    apply get_none.mp found
    rw [keys]
    exact mem_map.mpr ⟨uid, inside, same.symm⟩
  | some tag =>
    obtain ⟨prompt, member, same⟩ := mem_map.mp (get_some_mem found)
    cases same
    have inside : prompt.1 ∈ round.uids := mem_map_of_mem member
    refine Or.inl ⟨prompt.1, inside, rfl, ?_⟩
    rw [new _ inside]
    rfl

namespace Inv
open List hiding get
variable {part : Part} (inv : Inv part)
include inv

theorem generate {rest : List Round} (idle : part.phase = .idle) (next : part.rounds = round :: rest) :
    Inv { part with rounds := rest, phase := .dispatching round round.prompts, buffer := add part.buffer (pendingItems round) } := by
  obtain ⟨rounds, phase, queue, buffer, tasks, written, returned, cleared⟩ := part
  cases idle
  cases next
  have growth : Grows ⟨round :: rest, .idle, queue, buffer, tasks, written, returned, cleared⟩
      ⟨rest, .dispatching round round.prompts, queue, add buffer (pendingItems round), tasks, written, returned, cleared⟩ :=
    .of_same rfl rfl (fun _ member => member)
  have distinct : (round.uids ++ rest.flatMap Round.uids).Nodup := inv.uids
  have pending := get_pending distinct.of_append_left buffer (fun uid inside => (inv.future round mem_cons_self uid inside).2)
  have kept (key : Key) (present : get buffer key ≠ none) : get (add buffer (pendingItems round)) key = get buffer key := by
    cases pending key with
    | inl marked =>
      obtain ⟨uid, inside, rfl, -⟩ := marked
      exact absurd (inv.future round mem_cons_self uid inside).2 present
    | inr other => exact other.2
  exact { inv with
    unraised := nofun
    queueEntries := fun key tag found => growth.lists (inv.queueEntries key tag found)
    bufferDistinct := merge_distinct inv.bufferDistinct _
    bufferEntries := fun key tag found => by
      cases pending key with
      | inl marked =>
        obtain ⟨uid, inside, rfl, isTag⟩ := marked
        cases isTag.symm.trans found
        exact ⟨round.globalSteps, .running, rfl, nofun, fun ended => absurd rfl ended⟩
      | inr other =>
        refine growth.buffers (inv.bufferEntries key tag (other.2.symm.trans found)) ?_
        intro key present
        exact Or.inr (by rwa [kept key present])
    bufferTask := fun uid steps known => by
      obtain ⟨status, found, past⟩ := inv.bufferTask uid steps known
      exact ⟨status, (kept _ (by rw [found]; nofun)).trans found, past⟩
    bufferKnown := fun uid present => by
      cases pending (.prompt uid) with
      | inl marked =>
        obtain ⟨uid', inside, same, -⟩ := marked
        cases same
        exact Or.inr inside
      | inr other =>
        cases inv.bufferKnown uid (other.2 ▸ present) with
        | inl known => exact Or.inl known
        | inr left => exact (not_mem_nil left).elim
    bufferFresh := fun key tag found isOutput round' member isSteps => by
      cases pending key with
      | inl marked =>
        obtain ⟨uid, inside, same, -⟩ := marked
        exact absurd same (isOutput uid)
      | inr other =>
        obtain ⟨_, none, -⟩ := inv.bufferFresh key tag (other.2.symm.trans found) isOutput round' member isSteps
        cases none
    future := fun round' member uid inside => by
      refine ⟨(inv.future round' (mem_cons_of_mem _ member) uid inside).1, ?_⟩
      cases pending (.prompt uid) with
      | inl marked =>
        obtain ⟨uid', inside', same, -⟩ := marked
        cases same
        exact absurd (mem_flatMap.mpr ⟨round', member, inside⟩) (distinct.disjoint inside')
      | inr other => exact other.2.trans (inv.future round' (mem_cons_of_mem _ member) uid inside).2
    left := fun round' isCurrent => by
      cases isCurrent
      exact List.Sublist.refl _
    waiting := fun round' isCurrent uid member => by
      cases isCurrent
      refine ⟨(inv.future round mem_cons_self uid member).1, ?_⟩
      cases pending (.prompt uid) with
      | inl marked =>
        obtain ⟨uid', inside, same, isTag⟩ := marked
        exact isTag
      | inr other => exact absurd rfl (other.1 uid member)
    dispatched := fun round' isCurrent uid inside outside => by
      cases isCurrent
      exact absurd inside outside
    accounted := fun key member => by
      cases inv.accounted key member with
      | inl cleared => exact Or.inl cleared
      | inr holds =>
        obtain ⟨_, none, -⟩ := holds
        cases none
    sampled := nofun
    clearing := nofun }

theorem dispatch {uid : String} {n : Nat} {left : List (String × Nat)}
    (dispatching : part.phase = .dispatching round ((uid, n) :: left)) :
    Inv { part with
      phase := .dispatching round left
      tasks := setTask part.tasks uid ⟨round.globalSteps, replicate n .running, false⟩ } ∧
    Grows part { part with
      phase := .dispatching round left
      tasks := setTask part.tasks uid ⟨round.globalSteps, replicate n .running, false⟩ } := by
  obtain ⟨rounds, phase, queue, buffer, tasks, written, returned, cleared⟩ := part
  cases dispatching
  have sublist : (uid :: left.map Prod.fst).Sublist round.uids := inv.left round rfl
  have inside : uid ∈ round.uids := sublist.subset mem_cons_self
  obtain ⟨noSteps, marked⟩ := inv.waiting round rfl uid mem_cons_self
  have noTask : tasks uid = none := Option.map_eq_none_iff.mp noSteps
  have distinctLeft : (uid :: left.map Prod.fst).Nodup :=
    sublist.nodup ((show (round.uids ++ rounds.flatMap Round.uids).Nodup from inv.uids).of_append_left)
  have others {other : String} (isOther : other ∈ left.map Prod.fst) : other ≠ uid := by
    rintro rfl
    exact (nodup_cons.mp distinctLeft).1 isOther
  generalize isTasks : setTask tasks uid ⟨round.globalSteps, replicate n .running, false⟩ = later
  have here : later uid = some ⟨round.globalSteps, replicate n .running, false⟩ := by rw [← isTasks, setTask_same]
  have other {uid' : String} (different : uid' ≠ uid) : later uid' = tasks uid' := by rw [← isTasks, setTask_other _ _ different]
  have stepsHere : (later uid).map Task.globalSteps = some round.globalSteps := by rw [here, Option.map_some]
  have stepsOther {uid' : String} (different : uid' ≠ uid) :
      (later uid').map Task.globalSteps = (tasks uid').map Task.globalSteps := by rw [other different]
  have kept {uid' : String} {task : Task} (isTask : tasks uid' = some task) : later uid' = some task := by
    rw [other ?_, isTask]
    rintro rfl
    cases noTask.symm.trans isTask
  have recorded {uid' : String} {task : Task} (isTask : later uid' = some task) (recorded : task.recorded = true) :
      tasks uid' = some task := by
    by_cases same : uid' = uid
    · rw [same, here] at isTask
      cases isTask
      cases recorded
    · exact (other same).symm.trans isTask
  have growth : Grows ⟨rounds, .dispatching round ((uid, n) :: left), queue, buffer, tasks, written, returned, cleared⟩
      ⟨rounds, .dispatching round left, queue, buffer, later, written, returned, cleared⟩ := {
    steps := fun uid' steps known => by
      obtain ⟨task, isTask, isSteps⟩ := Option.map_eq_some_iff.mp known
      exact Option.map_eq_some_iff.mpr ⟨task, kept isTask, isSteps⟩
    recorded := fun uid' known => by
      obtain ⟨task, isTask, isRecorded⟩ := known
      exact ⟨task, kept isTask, isRecorded⟩
    written := fun key member => member
    silent := fun key member new => absurd member new
    cleared := fun key member => member }
  refine ⟨?_, growth⟩
  exact { inv with
    unraised := nofun
    quiet := fun uid' task isTask isRecorded => inv.quiet uid' task (recorded isTask isRecorded) isRecorded
    wrote := fun key member => by
      obtain ⟨uid', session, index, task, status, isKey, isTask, found⟩ := inv.wrote key member
      exact ⟨uid', session, index, task, status, isKey, kept isTask, found⟩
    queueEntries := fun key tag found => growth.lists (inv.queueEntries key tag found)
    queueRecorded := fun uid' known => by
      obtain ⟨task, isTask, isRecorded⟩ := known
      exact inv.queueRecorded uid' ⟨task, recorded isTask isRecorded, isRecorded⟩
    bufferEntries := fun key tag found => growth.buffers (inv.bufferEntries key tag found) (fun _ present => Or.inr present)
    bufferTask := fun uid' steps known => by
      by_cases same : uid' = uid
      · subst same
        cases stepsHere.symm.trans known
        exact ⟨.running, marked, fun past => absurd inside (past round mem_cons_self)⟩
      · exact inv.bufferTask uid' steps ((stepsOther same).symm.trans known)
    bufferKnown := fun uid' present => by
      by_cases same : uid' = uid
      · subst same
        refine Or.inl (fun unknown => ?_)
        cases stepsHere.symm.trans unknown
      · cases inv.bufferKnown uid' present with
        | inl known => exact Or.inl (fun unknown => known ((stepsOther same).symm.trans unknown))
        | inr waits => exact Or.inr ((mem_cons.mp waits).resolve_left same)
    future := fun round' member uid' isFuture => by
      obtain ⟨noSteps, unmarked⟩ := inv.future round' member uid' isFuture
      refine ⟨(stepsOther ?_).trans noSteps, unmarked⟩
      rintro rfl
      cases marked.symm.trans unmarked
    left := fun round' isCurrent => by
      cases isCurrent
      exact (sublist_cons_self _ _).trans sublist
    waiting := fun round' isCurrent uid' member => by
      cases isCurrent
      obtain ⟨noSteps, marked⟩ := inv.waiting round rfl uid' (mem_cons_of_mem _ member)
      exact ⟨(stepsOther (others member)).trans noSteps, marked⟩
    dispatched := fun round' isCurrent uid' isInside outside => by
      cases isCurrent
      by_cases same : uid' = uid
      · exact same ▸ stepsHere
      · refine (stepsOther same).trans (inv.dispatched round rfl uid' isInside ?_)
        intro waits
        exact outside ((mem_cons.mp waits).resolve_left same)
    sampled := nofun
    clearing := nofun }

theorem allDispatched (dispatching : part.phase = .dispatching round []) :
    Inv { part with phase := .sampling round } := by
  obtain ⟨rounds, phase, queue, buffer, tasks, written, returned, cleared⟩ := part
  cases dispatching
  have growth : Grows ⟨rounds, .dispatching round [], queue, buffer, tasks, written, returned, cleared⟩
      ⟨rounds, .sampling round, queue, buffer, tasks, written, returned, cleared⟩ :=
    .of_same rfl rfl (fun _ member => member)
  exact { inv with
    unraised := nofun
    queueEntries := fun key tag found => growth.lists (inv.queueEntries key tag found)
    bufferEntries := fun key tag found => growth.buffers (inv.bufferEntries key tag found) (fun _ present => Or.inr present)
    sampled := nofun
    clearing := nofun }

theorem ended_settled (sampling : part.phase = .sampling round)
    (free : ∀ entry ∈ part.buffer, entry.2 ≠ ⟨some round.globalSteps, some .running⟩) {uid : String} (inside : uid ∈ round.uids) :
    part.steps uid = some round.globalSteps ∧ part.Settled part.buffer uid ∧
      ∀ status, get part.buffer (.prompt uid) = some ⟨some round.globalSteps, some status⟩ → status ≠ .running := by
  have current : part.current = some round := by rw [Part.current, sampling]
  have known : part.steps uid = some round.globalSteps := by
    refine inv.dispatched round current uid inside ?_
    rw [Part.left, sampling]
    exact not_mem_nil
  have notRunning (status : Status) (found : get part.buffer (.prompt uid) = some ⟨some round.globalSteps, some status⟩) :
      status ≠ .running := by
    rintro rfl
    exact free _ (get_some_mem found) rfl
  refine ⟨known, ?_, notRunning⟩
  obtain ⟨status, found, -⟩ := inv.bufferTask uid _ known
  obtain ⟨steps', status', same, -, settled⟩ := inv.bufferEntries _ _ found
  cases same
  exact settled (notRunning status found)

theorem sample_exact {keys : List Key} (sampling : part.phase = .sampling round)
    (found : ReplayBuffer.sample round.globalSteps part.buffer = .ok (some keys)) :
    Exact part round keys ∧ (∀ entry ∈ part.buffer, entry.2 ≠ ⟨some round.globalSteps, some .running⟩) ∧
      ∀ key, key ∈ keys ↔ get part.buffer key = some ⟨some round.globalSteps, some .success⟩ := by
  have current : part.current = some round := by rw [Part.current, sampling]
  have member : round ∈ part.unsampled := mem_append_left _ (Option.mem_toList.mpr current)
  cases sample_readable round.globalSteps inv.readable with
  | inl waits => cases waits.1.symm.trans found
  | inr returns =>
    obtain ⟨returns, free⟩ := returns
    cases found.symm.trans returns
    have isKey (key : Key) : key ∈ (part.buffer.filter
        (fun entry => decide (entry.2 = ⟨some round.globalSteps, some .success⟩))).map Prod.fst ↔
          get part.buffer key = some ⟨some round.globalSteps, some .success⟩ := by
      rw [← mem_iff_get inv.bufferDistinct]
      simp [mem_filter]
    have outputs (key : Key) : get part.buffer key = some ⟨some round.globalSteps, some .success⟩ ↔
        key ∈ part.written ∧ key.uid ∈ round.uids := by
      constructor
      · intro present
        have buffers := inv.bufferEntries _ _ present
        cases key with
        | prompt uid =>
          obtain ⟨steps, status, same, notSuccess, -⟩ := buffers
          cases same
          exact absurd rfl notSuccess
        | output uid session index =>
          refine ⟨buffers.1, ?_⟩
          have holds := inv.bufferFresh _ _ present nofun round member rfl
          rw [Part.Holds, sampling] at holds
          obtain ⟨round', current', inside⟩ := holds
          cases current.symm.trans current'
          exact inside
      · rintro ⟨written, inside⟩
        obtain ⟨known, settled, -⟩ := inv.ended_settled sampling free inside
        cases settled.2 key written rfl with
        | inl cleared => exact absurd inside ((inv.returned key (inv.cleared key cleared)).2 round member)
        | inr present =>
          obtain ⟨tag, found⟩ := Option.ne_none_iff_exists'.mp present
          have buffers := inv.bufferEntries _ _ found
          cases key with
          | prompt uid => exact absurd rfl (inv.written_output written uid)
          | output uid session index =>
            obtain ⟨-, steps, known', rfl⟩ := buffers
            cases known.symm.trans known'
            exact found
    refine ⟨⟨inv.bufferDistinct.sublist (filter_sublist.map Prod.fst), ?_, ?_, ?_⟩, free, isKey⟩
    · intro key
      rw [isKey, outputs]
    · intro key isIn
      have inside := ((outputs key).mp ((isKey key).mp isIn)).2
      refine ⟨fun returned => (inv.returned key returned).2 round member inside, ?_⟩
      intro cleared
      exact (inv.returned key (inv.cleared key cleared)).2 round member inside
    · intro uid inside
      obtain ⟨-, settled, -⟩ := inv.ended_settled sampling free inside
      obtain ⟨task, isTask, recorded⟩ := settled.1
      exact ⟨task, isTask, inv.quiet uid task isTask recorded⟩

theorem sample {keys : List Key} (sampling : part.phase = .sampling round)
    (found : ReplayBuffer.sample round.globalSteps part.buffer = .ok (some keys)) :
    Inv { part with phase := .sampled round keys, returned := part.returned ++ keys } := by
  obtain ⟨exact', free, isKey⟩ := inv.sample_exact sampling found
  have settled {uid : String} (inside : uid ∈ round.uids) := inv.ended_settled sampling free inside
  obtain ⟨rounds, phase, queue, buffer, tasks, written, returned, cleared⟩ := part
  cases sampling
  have growth : Grows ⟨rounds, .sampling round, queue, buffer, tasks, written, returned, cleared⟩
      ⟨rounds, .sampled round keys, queue, buffer, tasks, written, returned ++ keys, cleared⟩ :=
    .of_same rfl rfl (fun _ member => member)
  have distinct : (round.uids ++ rounds.flatMap Round.uids).Nodup := inv.uids
  have later {round' : Round} (member : round' ∈ rounds) {uid : String} (inside : uid ∈ round.uids) : uid ∉ round'.uids := by
    intro inside'
    exact distinct.disjoint inside (mem_flatMap.mpr ⟨round', member, inside'⟩)
  exact { inv with
    unraised := nofun
    queueEntries := fun key tag found => growth.lists (inv.queueEntries key tag found)
    bufferEntries := fun key tag found => growth.buffers (inv.bufferEntries key tag found) (fun _ present => Or.inr present)
    bufferTask := fun uid steps known => by
      obtain ⟨status, found, past⟩ := inv.bufferTask uid steps known
      refine ⟨status, found, fun old => ?_⟩
      by_cases inside : uid ∈ round.uids
      · cases known.symm.trans (settled inside).1
        exact (settled inside).2.2 status found
      · exact past (forall_mem_cons.mpr ⟨inside, old⟩)
    bufferFresh := fun key tag found isOutput round' member isSteps => by
      obtain ⟨_, isRound, inside⟩ := inv.bufferFresh key tag found isOutput round' (mem_cons_of_mem _ member) isSteps
      cases isRound
      have buffers := inv.bufferEntries key tag found
      cases key with
      | prompt uid => exact absurd rfl (isOutput uid)
      | output uid session index => exact (exact'.outputs _).mpr ⟨buffers.1, inside⟩
    uids := distinct.of_append_right
    left := nofun
    waiting := nofun
    dispatched := nofun
    accounted := fun key member => by
      cases inv.accounted key member with
      | inl old => exact Or.inl old
      | inr holds =>
        obtain ⟨_, isRound, inside⟩ := holds
        cases isRound
        exact Or.inr ((exact'.outputs key).mpr ⟨member, inside⟩)
    complete := fun key member => by
      cases inv.complete key member with
      | inl old => exact Or.inl (mem_append_left _ old)
      | inr unsampled =>
        obtain ⟨round', isRound, inside⟩ := unsampled
        cases mem_cons.mp isRound with
        | inl here => exact Or.inl (mem_append_right _ ((exact'.outputs key).mpr ⟨member, here ▸ inside⟩))
        | inr future => exact Or.inr ⟨round', future, inside⟩
    returned := fun key member => by
      cases mem_append.mp member with
      | inl old =>
        obtain ⟨isWritten, past⟩ := inv.returned key old
        exact ⟨isWritten, fun round' future => past round' (mem_cons_of_mem _ future)⟩
      | inr new =>
        obtain ⟨isWritten, inside⟩ := (exact'.outputs key).mp new
        exact ⟨isWritten, fun round' future => later future inside⟩
    cleared := fun key member => mem_append_left _ (inv.cleared key member)
    sampled := fun round' held isPhase key member => by
      cases isPhase
      exact ⟨mem_append_right _ member, (exact'.fresh key member).2⟩
    clearing := nofun }

theorem clear {held keys : List Key} (isSampled : part.phase = .sampled round held) (inside : ∀ key ∈ keys, key ∈ held) :
    Inv { part with phase := .cleared round held keys, queue := erase part.queue keys, cleared := part.cleared ++ keys } ∧
      Grows part { part with phase := .cleared round held keys, queue := erase part.queue keys, cleared := part.cleared ++ keys } := by
  obtain ⟨rounds, phase, queue, buffer, tasks, written, returned, cleared⟩ := part
  cases isSampled
  have growth : Grows ⟨rounds, .sampled round held, queue, buffer, tasks, written, returned, cleared⟩
      ⟨rounds, .cleared round held keys, erase queue keys, buffer, tasks, written, returned, cleared ++ keys⟩ :=
    .of_same rfl rfl (fun _ member => mem_append_left _ member)
  have isOutput {key : Key} (member : key ∈ keys) (uid : String) : key ≠ .prompt uid :=
    inv.written_output (inv.returned key (inv.sampled round held rfl key (inside key member)).1).1 uid
  refine ⟨?_, growth⟩
  exact { inv with
    unraised := nofun
    queueDistinct := erase_distinct inv.queueDistinct keys
    queueEntries := fun key tag found => by
      rw [get_erase] at found
      split at found
      · cases found
      · exact growth.lists (inv.queueEntries key tag found)
    queueCleared := fun key member => by
      rw [get_erase]
      split
      · rfl
      · next kept => exact inv.queueCleared key ((mem_append.mp member).resolve_right kept)
    queueRecorded := fun uid known => by
      rw [get_erase, if_neg (fun member => isOutput member uid rfl)]
      exact inv.queueRecorded uid known
    queueWritten := fun key member => by
      rw [get_erase]
      split
      · next gone => exact Or.inl (mem_append_right _ gone)
      · exact (inv.queueWritten key member).imp_left (mem_append_left _)
    bufferEntries := fun key tag found => growth.buffers (inv.bufferEntries key tag found) (fun _ present => Or.inr present)
    left := nofun
    waiting := nofun
    dispatched := nofun
    accounted := fun key member => (inv.accounted key member).imp_left (mem_append_left _)
    cleared := fun key member => by
      cases mem_append.mp member with
      | inl old => exact inv.cleared key old
      | inr new => exact (inv.sampled round held rfl key (inside key new)).1
    sampled := nofun
    clearing := fun round' held' keys' isPhase => by
      cases isPhase
      refine ⟨?_, inside⟩
      intro key member
      obtain ⟨isReturned, uncleared⟩ := inv.sampled round held rfl key member
      refine ⟨isReturned, ?_⟩
      rw [mem_append]
      exact or_iff_right uncleared }

theorem remove {held keys : List Key} (isCleared : part.phase = .cleared round held keys) :
    Inv { part with
      phase := if ∀ key ∈ held, key ∈ keys then .idle else .sampled round (held.filter (fun key => decide (key ∉ keys)))
      buffer := ReplayBuffer.remove part.buffer keys } := by
  obtain ⟨rounds, phase, queue, buffer, tasks, written, returned, cleared⟩ := part
  cases isCleared
  obtain ⟨gone, inside⟩ := inv.clearing round held keys rfl
  have isOutput {key : Key} (member : key ∈ keys) (uid : String) : key ≠ .prompt uid :=
    inv.written_output (inv.returned key (gone key (inside key member)).1).1 uid
  generalize isPhase : (if ∀ key ∈ held, key ∈ keys then Phase.idle
    else Phase.sampled round (held.filter (fun key => decide (key ∉ keys)))) = phase
  have phases : (∀ key ∈ held, key ∈ keys) ∧ phase = .idle ∨ phase = .sampled round (held.filter (fun key => decide (key ∉ keys))) := by
    split at isPhase
    · next all => exact Or.inl ⟨all, isPhase.symm⟩
    · exact Or.inr isPhase.symm
  have growth : Grows ⟨rounds, .cleared round held keys, queue, buffer, tasks, written, returned, cleared⟩
      ⟨rounds, phase, queue, ReplayBuffer.remove buffer keys, tasks, written, returned, cleared⟩ :=
    .of_same rfl rfl (fun _ member => member)
  have found (key : Key) : get (ReplayBuffer.remove buffer keys) key = if key ∈ keys then none else get buffer key := get_erase _ _ _
  have prompts (uid : String) : get (ReplayBuffer.remove buffer keys) (.prompt uid) = get buffer (.prompt uid) := by
    rw [found, if_neg (fun member => isOutput member uid rfl)]
  have current : Part.current ⟨rounds, phase, queue, ReplayBuffer.remove buffer keys, tasks, written, returned, cleared⟩ = none := by
    rcases phases with ⟨-, rfl⟩ | rfl
    · rfl
    · rfl
  have unsampled : Part.unsampled ⟨rounds, phase, queue, ReplayBuffer.remove buffer keys, tasks, written, returned, cleared⟩ =
      Part.unsampled ⟨rounds, .cleared round held keys, queue, buffer, tasks, written, returned, cleared⟩ := by
    rw [Part.unsampled, current]
    rfl
  have left : Part.left ⟨rounds, phase, queue, ReplayBuffer.remove buffer keys, tasks, written, returned, cleared⟩ = [] := by
    rcases phases with ⟨-, rfl⟩ | rfl
    · rfl
    · rfl
  have holds {key : Key} (member : key ∈ held) (kept : key ∉ keys) :
      Part.Holds ⟨rounds, phase, queue, ReplayBuffer.remove buffer keys, tasks, written, returned, cleared⟩ key := by
    rcases phases with ⟨all, rfl⟩ | rfl
    · exact absurd (all key member) kept
    · exact mem_filter.mpr ⟨member, by simpa using kept⟩
  exact { inv with
    unraised := by rcases phases with ⟨-, rfl⟩ | rfl <;> exact nofun
    queueEntries := fun key tag present => growth.lists (inv.queueEntries key tag present)
    bufferDistinct := erase_distinct inv.bufferDistinct keys
    bufferEntries := fun key tag present => by
      rw [found] at present
      split at present
      · cases present
      · refine growth.buffers (inv.bufferEntries key tag present) ?_
        intro key present
        by_cases removed : key ∈ keys
        · exact Or.inl ((gone key (inside key removed)).2.mpr removed)
        · refine Or.inr ?_
          rw [found, if_neg removed]
          exact present
    bufferTask := fun uid steps known => by
      rw [prompts, unsampled]
      exact inv.bufferTask uid steps known
    bufferKnown := fun uid present => by
      rw [prompts] at present
      exact (inv.bufferKnown uid present).imp_right (fun member => (not_mem_nil member).elim)
    bufferFresh := fun key tag present isOutput round' member isSteps => by
      rw [found] at present
      rw [unsampled] at member
      split at present
      · cases present
      · next kept => exact holds (inv.bufferFresh key tag present isOutput round' member isSteps) kept
    uids := by
      rw [unsampled]
      exact inv.uids
    future := fun round' member uid isInside => by
      rw [prompts]
      exact inv.future round' member uid isInside
    left := fun round' isCurrent => by cases current.symm.trans isCurrent
    waiting := fun round' isCurrent => by cases current.symm.trans isCurrent
    dispatched := fun round' isCurrent => by cases current.symm.trans isCurrent
    accounted := fun key member => by
      cases inv.accounted key member with
      | inl old => exact Or.inl old
      | inr isHeld =>
        by_cases removed : key ∈ keys
        · exact Or.inl ((gone key isHeld).2.mpr removed)
        · exact Or.inr (holds isHeld removed)
    complete := fun key member => by
      rw [unsampled]
      exact inv.complete key member
    returned := fun key member => by
      rw [unsampled]
      exact inv.returned key member
    sampled := fun round' held' isSampled key member => by
      rcases phases with ⟨-, rfl⟩ | rfl
      · cases isSampled
      · cases isSampled
        obtain ⟨isHeld, kept⟩ := mem_filter.mp member
        refine ⟨(gone key isHeld).1, ?_⟩
        intro isCleared
        exact (by simpa using kept : key ∉ keys) ((gone key isHeld).2.mp isCleared)
    clearing := fun round' held' keys' isCleared => by
      rcases phases with ⟨-, rfl⟩ | rfl
      · cases isCleared
      · cases isCleared }

theorem apply {items : Items} (listed : Listed part items)
    (careful : ∀ key tag, (key, tag) ∈ items → key ∈ part.cleared → ∀ round ∈ part.unsampled, tag.globalSteps ≠ some round.globalSteps) :
    Inv { part with buffer := add part.buffer items } := by
  have growth : Grows part { part with buffer := add part.buffer items } := .of_same rfl rfl (fun _ member => member)
  have found := get_add listed.distinct part.buffer
  have kept (key : Key) (present : get part.buffer key ≠ none) : get (add part.buffer items) key ≠ none := by
    rw [found]
    cases get items key with
    | none => exact present
    | some tag => exact nofun
  -- a prompt of the snapshot has recorded, so that its task is known
  have prompts {uid : String} {tag : Tag} (isTag : get items (.prompt uid) = some tag) :
      ∃ steps status, (status = .finished ∨ status = .failure) ∧ part.steps uid = some steps ∧
        get (add part.buffer items) (.prompt uid) = some ⟨some steps, some status⟩ := by
    obtain ⟨isStatus, task, isTask, -⟩ := listed.entries _ _ isTag
    have known : part.steps uid = some task.globalSteps := by rw [Part.steps, isTask, Option.map_some]
    obtain ⟨old, isOld, -⟩ := inv.bufferTask uid _ known
    rw [found, isTag, isOld]
    cases isStatus with
    | inl finished => exact ⟨task.globalSteps, .finished, Or.inl rfl, known, by rw [finished]; rfl⟩
    | inr failure => exact ⟨task.globalSteps, .failure, Or.inr rfl, known, by rw [failure]; rfl⟩
  have unlisted {uid : String} (unknown : part.steps uid = none) : get (add part.buffer items) (.prompt uid) = get part.buffer (.prompt uid) := by
    cases isTag : get items (.prompt uid) with
    | none => rw [found, isTag, Option.elim_none]
    | some tag =>
      obtain ⟨steps, status, -, known, -⟩ := prompts isTag
      cases unknown.symm.trans known
  have outputs {key : Key} {tag : Tag} (isTag : get items key = some tag) (isOutput : ∀ uid, key ≠ .prompt uid) :
      part.Output key tag ∧ get (add part.buffer items) key = some tag := by
    have lists := listed.entries key tag isTag
    cases key with
    | prompt uid => exact absurd rfl (isOutput uid)
    | output uid session index =>
      obtain ⟨written, steps, known, rfl⟩ := lists
      refine ⟨⟨written, steps, known, rfl⟩, ?_⟩
      rw [found, isTag]
      rfl
  exact { inv with
    queueEntries := fun key tag present => growth.lists (inv.queueEntries key tag present)
    bufferDistinct := merge_distinct inv.bufferDistinct items
    bufferEntries := fun key tag present => by
      cases isTag : get items key with
      | none =>
        rw [found, isTag, Option.elim_none] at present
        exact growth.buffers (inv.bufferEntries key tag present) (fun key present => Or.inr (kept key present))
      | some new =>
        cases key with
        | prompt uid =>
          obtain ⟨steps, status, isStatus, known, isNew⟩ := prompts isTag
          cases isNew.symm.trans present
          refine ⟨steps, status, rfl, by rcases isStatus with rfl | rfl <;> exact nofun, ?_⟩
          intro _
          refine growth.settled (listed.settled uid (by rw [isTag]; exact nofun)) ?_
          intro key present
          refine Or.inr ?_
          obtain ⟨tag, isTag⟩ := Option.ne_none_iff_exists'.mp present
          rw [found, isTag]
          exact nofun
        | output uid session index =>
          obtain ⟨output, isNew⟩ := outputs isTag nofun
          cases isNew.symm.trans present
          exact growth.output output
    bufferTask := fun uid steps known => by
      cases isTag : get items (.prompt uid) with
      | none =>
        rw [found, isTag, Option.elim_none]
        exact inv.bufferTask uid steps known
      | some new =>
        obtain ⟨steps', status, isStatus, known', isNew⟩ := prompts isTag
        cases known'.symm.trans known
        exact ⟨status, isNew, fun _ => by rcases isStatus with rfl | rfl <;> exact nofun⟩
    bufferKnown := fun uid present => by
      cases known : part.steps uid with
      | none =>
        rw [unlisted known] at present
        exact inv.bufferKnown uid present
      | some steps => exact Or.inl (fun unknown => by cases known.symm.trans unknown)
    bufferFresh := fun key tag present isOutput round member isSteps => by
      cases isTag : get items key with
      | none =>
        rw [found, isTag, Option.elim_none] at present
        exact inv.bufferFresh key tag present isOutput round member isSteps
      | some new =>
        obtain ⟨output, isNew⟩ := outputs isTag isOutput
        cases isNew.symm.trans present
        -- what is not cleared is held
        cases inv.accounted key output.1 with
        | inl cleared => exact absurd isSteps (careful key _ (get_some_mem isTag) cleared round member)
        | inr holds => exact holds
    future := fun round member uid inside => by
      obtain ⟨unknown, unmarked⟩ := inv.future round member uid inside
      exact ⟨unknown, (unlisted unknown).trans unmarked⟩
    waiting := fun round isCurrent uid member => by
      obtain ⟨unknown, marked⟩ := inv.waiting round isCurrent uid member
      exact ⟨unknown, (unlisted unknown).trans marked⟩ }

end Inv

/-! ### Runs -/

theorem Inv.initial {rounds : List Round} (uids : (rounds.flatMap Round.uids).Nodup) : Inv (.initial rounds) where
  unraised := nofun
  quiet := nofun
  wrote := nofun
  queueDistinct := nodup_nil
  queueEntries := nofun
  queueCleared := nofun
  queueRecorded uid known := by
    obtain ⟨task, isTask, -⟩ := known
    cases isTask
  queueWritten := nofun
  bufferDistinct := nodup_nil
  bufferEntries := nofun
  bufferTask := nofun
  bufferKnown uid present := absurd rfl present
  bufferFresh := nofun
  uids := uids
  future round member uid inside := ⟨rfl, rfl⟩
  left := nofun
  waiting := nofun
  dispatched := nofun
  accounted := nofun
  complete := nofun
  returned := nofun
  cleared := nofun
  sampled := nofun
  clearing := nofun

theorem Inv.step {part next : Part} {event : PartEvent} (inv : Inv part) (taken : PartStep part event next)
    (careful : ∀ uid, event = .record uid → ∀ task, part.tasks uid = some task → task.Quiet) : Inv next ∧ Grows part next := by
  cases taken with
  | generate idle next => exact ⟨inv.generate idle next, .of_same rfl rfl (fun _ member => member)⟩
  | dispatch dispatching => exact inv.dispatch dispatching
  | dispatched dispatching => exact ⟨inv.allDispatched dispatching, .of_same rfl rfl (fun _ member => member)⟩
  | write isTask running => exact inv.write isTask running
  | finish isTask => exact inv.ended isTask nofun
  | fail isTask => exact inv.ended isTask nofun
  | record isTask _ known => exact inv.record isTask known (careful _ rfl _ isTask)
  | sample sampling found => exact ⟨inv.sample sampling found, .of_same rfl rfl (fun _ member => member)⟩
  | sampleRaises sampling raises =>
    cases sample_readable _ inv.readable with
    | inl waits => cases waits.1.symm.trans raises
    | inr returns => cases returns.1.symm.trans raises
  | clear sampled inside => exact inv.clear sampled inside
  | remove cleared => exact ⟨inv.remove cleared, .of_same rfl rfl (fun _ member => member)⟩

theorem Inv.sound {part : Part} (inv : Inv part) : Sound part where
  unraised := inv.unraised
  holds round sampling := by
    cases sample_readable round.globalSteps inv.readable with
    | inl waits => exact ⟨none, waits.1, fun keys isKeys => (Option.some_ne_none _ isKeys.symm).elim⟩
    | inr returns =>
      refine ⟨_, returns.1, ?_⟩
      intro keys isKeys
      cases isKeys
      exact (inv.sample_exact sampling returns.1).1
  complete := inv.complete
  returns round sampling recorded := by
    have later : Inv { part with buffer := add part.buffer part.queue } := by
      apply inv.apply inv.listed
      intro key tag member cleared
      have found := (mem_iff_get inv.queueDistinct).mp member
      cases (inv.queueCleared key cleared).symm.trans found
    cases sample_readable round.globalSteps later.readable with
    | inr returns => exact ⟨_, returns.1⟩
    | inl waits =>
      obtain ⟨-, ⟨key, tag⟩, member, isTag⟩ := waits
      cases isTag
      have found := (mem_iff_get later.bufferDistinct).mp member
      have buffers := later.bufferEntries _ _ found
      cases key with
      | output uid session index =>
        obtain ⟨-, steps, -, same⟩ := buffers
        cases same
      | prompt uid =>
        -- what is running after the snapshot is not listed, and so has not recorded
        have unlisted : get part.queue (.prompt uid) = none := by
          cases isTag : get part.queue (.prompt uid) with
          | none => rfl
          | some tag =>
            rw [get_add inv.queueDistinct, isTag, Option.elim_some] at found
            obtain ⟨rfl | rfl, -⟩ := inv.queueEntries _ _ isTag
            · simp [Tag.update] at found
            · simp [Tag.update] at found
        rw [get_add inv.queueDistinct, unlisted, Option.elim_none] at found
        have noLeft : uid ∉ part.left := by
          rw [Part.left, sampling]
          exact not_mem_nil
        have known := (inv.bufferKnown uid (by rw [found]; exact Option.some_ne_none _)).resolve_right noLeft
        obtain ⟨steps, known⟩ := Option.ne_none_iff_exists'.mp known
        obtain ⟨status, isStatus, past⟩ := inv.bufferTask uid steps known
        cases found.symm.trans isStatus
        refine absurd rfl (past ?_)
        intro round' member inside
        cases mem_append.mp member with
        | inl current =>
          rw [Part.current, sampling] at current
          cases Option.mem_toList.mp current
          exact inv.queueRecorded uid (recorded uid inside) unlisted
        | inr future => cases (inv.future round' future uid inside).1.symm.trans known

/-- Every partition keeps its invariant, and what waits to be added was listed of its partition. -/
structure Invariant (state : State) : Prop where
  parts : ∀ partition, Inv (state.parts partition)
  pending : ∀ partition items, (partition, items) ∈ state.pending → Listed (state.parts partition) items

theorem setPart_same (parts : Partition → Part) (partition : Partition) (part : Part) : setPart parts partition part partition = part :=
  if_pos rfl

theorem setPart_other (parts : Partition → Part) {partition other : Partition} (part : Part) (different : other ≠ partition) :
    setPart parts partition part other = parts other := if_neg different

theorem Invariant.set {state : State} (inv : Invariant state) {partition : Partition} {part : Part} (later : Inv part)
    (growth : Grows (state.parts partition) part) {pending : List (Partition × Items)} (fewer : pending ⊆ state.pending) :
    Invariant ⟨setPart state.parts partition part, pending⟩ where
  parts other := by
    show Inv (setPart state.parts partition part other)
    by_cases same : other = partition
    · rw [same, setPart_same]
      exact later
    · rw [setPart_other _ _ same]
      exact inv.parts other
  pending other items member := by
    show Listed (setPart state.parts partition part other) items
    by_cases same : other = partition
    · rw [same, setPart_same]
      exact growth.listed (inv.pending partition items (fewer (same ▸ member)))
    · rw [setPart_other _ _ same]
      exact inv.pending other items (fewer member)

theorem Invariant.step {state next : State} {event : Event} (inv : Invariant state) (taken : Step state event next)
    (careful : Careful state event) : Invariant next := by
  cases taken with
  | @part event part partition taken =>
    have quiet (uid : String) (isRecord : event = .record uid) (task : Task) (isTask : (state.parts partition).tasks uid = some task) :
        task.Quiet := by
      subst isRecord
      exact careful task isTask
    obtain ⟨later, growth⟩ := (inv.parts partition).step taken quiet
    exact inv.set later growth (List.Subset.refl _)
  | poll idle =>
    refine ⟨inv.parts, ?_⟩
    intro partition items member
    obtain ⟨other, -, same⟩ := mem_map.mp member
    cases same
    exact (inv.parts partition).listed
  | @apply partition items rest isPending =>
    have member : (partition, items) ∈ state.pending := isPending ▸ mem_cons_self
    apply inv.set
    · exact (inv.parts partition).apply (inv.pending partition items member) (careful partition items rest isPending)
    · exact .of_same rfl rfl (fun _ member => member)
    · exact isPending ▸ subset_cons_self _ _

/-- A step that is careful. -/
def CarefulStep (state : State) (event : Event) (next : State) : Prop := Step state event next ∧ Careful state event

/-- The batches of a partition have prompts with uids of their own. -/
def OwnUids (rounds : Partition → List Round) : Prop := ∀ partition, ((rounds partition).flatMap Round.uids).Nodup

theorem Invariant.run {rounds : Partition → List Round} (uids : OwnUids rounds) {events : List Event} {state : State}
    (run : Run CarefulStep (.initial rounds) events state) : Invariant state := by
  refine run.invariant (fun _ state => Invariant state) ⟨fun partition => .initial (uids partition), fun _ _ member => (not_mem_nil member).elim⟩ ?_
  intro _ before event after inv taken
  exact inv.step taken.1 taken.2

section
variable {rounds : Partition → List Round} {events : List Event} {part next : Part} {items : Items}

def validating (rounds : Partition → List Round) (part : Part) : Partition → Part := setPart (State.initial rounds).parts .val part

/-- Behind some run validation has come to a part, with a snapshot of its queue waiting. -/
def Reaches (rounds : Partition → List Round) (part : Part) (pending : List Items) : Prop :=
  ∃ events, Run Step (.initial rounds) events ⟨validating rounds part, pending.map (fun items => (.val, items))⟩

theorem setPart_validating (rounds : Partition → List Round) (part next : Part) :
    setPart (validating rounds part) .val next = validating rounds next := by
  funext other
  by_cases same : other = .val
  · rw [same, setPart_same, validating, setPart_same]
  · rw [setPart_other _ _ same, validating, setPart_other _ _ same, validating, setPart_other _ _ same]

theorem Reaches.initial (rounds : Partition → List Round) : Reaches rounds (.initial (rounds .val)) [] := by
  have same : validating rounds (.initial (rounds .val)) = (State.initial rounds).parts := by
    funext partition
    cases partition with
    | train => rfl
    | val => rfl
  exact ⟨[], by rw [same]; exact .start⟩

theorem Reaches.step {pending : List Items} (reached : Reaches rounds part pending) (event : PartEvent)
    (taken : PartStep part event next) : Reaches rounds next pending := by
  obtain ⟨events, run⟩ := reached
  refine ⟨events ++ [.part .val event], ?_⟩
  rw [← setPart_validating rounds part next]
  exact .step run (.part .val taken)

theorem Reaches.poll (reached : Reaches rounds part []) : Reaches rounds part [part.queue] := by
  obtain ⟨events, run⟩ := reached
  refine ⟨events ++ [.poll] ++ [.apply], ?_⟩
  have unchanged : setPart (validating rounds part) .train
      { validating rounds part .train with buffer := add (validating rounds part .train).buffer [] } = validating rounds part := by
    funext other
    cases other with
    | train => rfl
    | val => rfl
  have listed : kvList (validating rounds part) = (.train, []) :: [(.val, part.queue)] := rfl
  have applied := Run.step (.step run (.poll rfl)) (.apply listed)
  exact unchanged ▸ applied

theorem Reaches.apply (reached : Reaches rounds part [items]) : Reaches rounds { part with buffer := add part.buffer items } [] := by
  obtain ⟨events, run⟩ := reached
  refine ⟨events ++ [.apply], ?_⟩
  rw [← setPart_validating rounds part]
  exact .step run (.apply rfl)

end

/-- A snapshot from before `kv_clear` is added behind `remove`, and the next batch has the same global step. -/
theorem snapshot_unsound : ∃ rounds, OwnUids rounds ∧
    ∃ events state, Run Step (.initial rounds) events state ∧ ¬ Sound (state.parts .val) := by
  refine ⟨fun _ => [⟨0, [("a", 1)]⟩, ⟨0, [("b", 1)]⟩], fun _ => by simp [Round.uids], ?_⟩
  have dispatched := (((Reaches.initial (fun _ => [⟨0, [("a", 1)]⟩, ⟨0, [("b", 1)]⟩])).step .generate (.generate rfl rfl)).step
    .dispatch (.dispatch rfl)).step .dispatched (.dispatched rfl)
  have ended := ((dispatched.step (.write "a" 0 1) (.write rfl rfl Nat.one_pos)).step (.finish "a" 0)
    (.finish rfl (Or.inr rfl))).step (.record "a") (.record rfl rfl rfl)
  have sampled := ended.poll.apply.step .sample (.sample rfl rfl)
  have stale := ((sampled.poll.step (.clear [.output "a" 0 0]) (.clear rfl (by simp))).step .remove (.remove rfl)).apply
  have again := ((stale.step .generate (.generate rfl rfl)).step .dispatch (.dispatch rfl)).step .dispatched (.dispatched rfl)
  obtain ⟨events, run⟩ := ((again.step (.finish "b" 0) (.finish rfl (Or.inl rfl))).step (.record "b") (.record rfl rfl rfl)).poll.apply
  refine ⟨events, _, run, ?_⟩
  intro sound
  obtain ⟨result, found, isExact⟩ := sound.holds ⟨0, [("b", 1)]⟩ rfl
  cases found
  exact ((isExact [.output "a" 0 0] rfl).fresh _ mem_cons_self).2 mem_cons_self

end LLMFusion.ReplayBuffer
