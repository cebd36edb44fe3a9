import LLMFusion.AsyncTokenBucket

/-! The rate that a token bucket allows. What was debited is at most the capacity and
what was refilled, less the balance; a request that is debited over the balance is granted
only when the refill has made up for it. -/

namespace LLMFusion.AsyncTokenBucket
open Runs List

variable {K : Type} [Field K] [LinearOrder K]

/-! ### Sums over calls -/

def Task.size : Task K → K
  | .asking numTokens | .resting numTokens _ | .paying numTokens _ | .granted numTokens _ => numTokens

def Task.debited : Task K → K
  | .granted numTokens _ | .paying numTokens _ => numTokens
  | .asking _ | .resting _ _ => 0

def Task.Due (time : K) : Task K → Prop
  | .granted _ due | .paying _ due => due ≤ time
  | .asking _ | .resting _ _ => False

def Task.dueBy (time : K) : Task K → K
  | .granted numTokens due | .paying numTokens due => if due ≤ time then numTokens else 0
  | .asking _ | .resting _ _ => 0

variable {task : Task K}

theorem Task.dueBy_le (time : K) (positive : 0 < task.size) : task.dueBy time ≤ task.debited := by
  cases task with
  | asking => exact le_refl _
  | resting => exact le_refl _
  | paying numTokens due =>
    simp only [dueBy, debited]
    split
    · exact le_refl _
    · exact le_of_lt positive
  | granted numTokens due =>
    simp only [dueBy, debited]
    split
    · exact le_refl _
    · exact le_of_lt positive

theorem Task.grantedBy_le (time : K) (positive : 0 < task.size) : task.grantedBy time ≤ task.dueBy time := by
  cases task with
  | asking => exact le_refl _
  | resting => exact le_refl _
  | granted => exact le_refl _
  | paying numTokens due =>
    simp only [grantedBy, dueBy]
    split
    · exact le_of_lt positive
    · exact le_refl _

theorem Task.dueBy_eq_zero {time : K} (notDue : ¬task.Due time) : task.dueBy time = 0 := by
  cases task with
  | asking => rfl
  | resting => rfl
  | paying numTokens due => exact if_neg notDue
  | granted numTokens due => exact if_neg notDue

theorem Task.due_of_grantedBy {time : K} (something : task.grantedBy time ≠ 0) : task.Due time := by
  cases task with
  | granted numTokens due =>
    by_contra notDue
    exact something (if_neg notDue)
  | asking => exact absurd rfl something
  | resting => exact absurd rfl something
  | paying => exact absurd rfl something

def debited (tasks : List (Task K)) : K := (tasks.map Task.debited).sum

def dueBy (time : K) (tasks : List (Task K)) : K := (tasks.map (Task.dueBy time)).sum

omit [LinearOrder K] in
theorem sum_replace (value : Task K → K) (before after : List (Task K)) (task new : Task K) :
    ((before ++ new :: after).map value).sum = ((before ++ task :: after).map value).sum - value task + value new := by
  simp only [map_append, map_cons, sum_append, sum_cons]
  ring

/-! ### The bucket -/

theorem Bucket.refill_tokens_le (bucket : Bucket K) (now : K) : (bucket.refill now).tokens ≤ bucket.maxTokens :=
  min_le_left _ _

theorem Bucket.refill_gain (bucket : Bucket K) (now : K) :
    (bucket.refill now).tokens ≤ bucket.tokens + (now - bucket.lastUpdate.getD now) * bucket.rateLimit :=
  min_le_right _ _

/-! ### The invariant -/

/-- What was debited was in the bucket first or refilled since the first call, and what is
due by a time is within the rate. -/
structure Metered (rateLimit capacity : K) (state : State K) : Prop where
  sameRate : state.bucket.rateLimit = rateLimit
  sameCapacity : state.bucket.maxTokens = capacity
  tokens_le : state.bucket.tokens ≤ capacity
  positive : ∀ task ∈ state.tasks, 0 < task.size
  large : ∀ numTokens wakeTime, .paying numTokens wakeTime ∈ state.tasks → capacity < numTokens
  begun : state.started.isSome = state.bucket.lastUpdate.isSome
  updated : state.bucket.lastUpdate.getD state.now ≤ state.now
  spent : debited state.tasks + state.bucket.tokens ≤
    capacity + rateLimit * (state.bucket.lastUpdate.getD state.now - state.started.getD state.now)
  due : ∀ time, (∃ task ∈ state.tasks, task.Due time) →
    ∃ first, state.started = some first ∧ dueBy time state.tasks ≤ capacity + rateLimit * (time - first)

theorem Metered.initial (rateLimit : K) (maxTokens : Option K) (now : K) :
    Metered rateLimit (Bucket.create rateLimit maxTokens).maxTokens (State.initial rateLimit maxTokens now) where
  sameRate := rfl
  sameCapacity := rfl
  tokens_le := le_refl _
  positive := fun task isTask => absurd isTask not_mem_nil
  large := fun numTokens wakeTime isTask => absurd isTask not_mem_nil
  begun := rfl
  updated := le_refl _
  spent := by simp [State.initial, Bucket.create, debited]
  due := fun time someDue => by
    obtain ⟨task, isTask, _⟩ := someDue
    exact absurd isTask not_mem_nil

variable {state : State K}

theorem Metered.tick {rateLimit capacity time : K} (metered : Metered rateLimit capacity state)
    (later : state.now ≤ time) : Metered rateLimit capacity { state with now := time } := by
  refine ⟨metered.sameRate, metered.sameCapacity, metered.tokens_le, metered.positive, metered.large, metered.begun, ?_, ?_, metered.due⟩
  · cases isLast : state.bucket.lastUpdate with
    | none => exact le_refl _
    | some last =>
      have before := metered.updated
      rw [isLast] at before
      exact le_trans before later
  · have spent := metered.spent
    have begun := metered.begun
    cases isFirst : state.started with
    | none =>
      cases isLast : state.bucket.lastUpdate with
      | none =>
        rw [isFirst, isLast] at spent
        simpa using spent
      | some last =>
        rw [isFirst, isLast] at begun
        cases begun
    | some first =>
      cases isLast : state.bucket.lastUpdate with
      | none =>
        rw [isFirst, isLast] at begun
        cases begun
      | some last =>
        rw [isFirst, isLast] at spent
        exact spent

theorem Metered.call {rateLimit capacity numTokens : K} (metered : Metered rateLimit capacity state)
    (positive : 0 < numTokens) : Metered rateLimit capacity { state with tasks := state.tasks ++ [.asking numTokens] } := by
  have sumSame : ∀ value : Task K → K, value (.asking numTokens) = 0 →
      ((state.tasks ++ [Task.asking numTokens]).map value).sum = (state.tasks.map value).sum := by
    intro value zero
    simp [zero]
  refine ⟨metered.sameRate, metered.sameCapacity, metered.tokens_le, ?_, ?_, metered.begun, metered.updated, ?_, ?_⟩
  · intro task isTask
    rcases mem_append.mp isTask with isOld | isNew
    · exact metered.positive task isOld
    · rw [mem_singleton.mp isNew]
      exact positive
  · intro size wakeTime isTask
    rcases mem_append.mp isTask with isOld | isNew
    · exact metered.large size wakeTime isOld
    · cases mem_singleton.mp isNew
  · rw [debited, sumSame Task.debited rfl]
    exact metered.spent
  · rintro time ⟨task, isTask, isDue⟩
    rw [dueBy, sumSame (Task.dueBy time) rfl]
    rcases mem_append.mp isTask with isOld | isNew
    · exact metered.due time ⟨task, isOld, isDue⟩
    · rw [mem_singleton.mp isNew] at isDue
      exact isDue.elim

variable [IsStrictOrderedRing K]

/-! ### The locked part -/

/-- What the locked part does. -/
inductive Acquired (bucket : Bucket K) (now numTokens : K) : Bucket K → Outcome K → Prop where
  | pays (large : bucket.maxTokens < numTokens) :
      Acquired bucket now numTokens { bucket.refill now with tokens := (bucket.refill now).tokens - numTokens }
        (.pays ((numTokens - (bucket.refill now).tokens) / bucket.rateLimit))
  | granted (small : numTokens ≤ bucket.maxTokens) (enough : numTokens ≤ (bucket.refill now).tokens) :
      Acquired bucket now numTokens { bucket.refill now with tokens := (bucket.refill now).tokens - numTokens } .granted
  | retries (small : numTokens ≤ bucket.maxTokens) (short : (bucket.refill now).tokens < numTokens) :
      Acquired bucket now numTokens (bucket.refill now)
        (.retries ((numTokens - (bucket.refill now).tokens) / bucket.rateLimit))

theorem Bucket.acquire_cases (bucket : Bucket K) (now numTokens : K) :
    Acquired bucket now numTokens (bucket.acquire now numTokens).1 (bucket.acquire now numTokens).2 := by
  rw [acquire]
  by_cases large : bucket.maxTokens < numTokens
  · have needed : 0 < numTokens - (bucket.refill now).tokens :=
      sub_pos.mpr (lt_of_le_of_lt (bucket.refill_tokens_le now) large)
    simp only [large, if_true, needed]
    exact .pays large
  · by_cases enough : numTokens ≤ (bucket.refill now).tokens
    · simp only [large, if_false, enough, if_true]
      exact .granted (not_lt.mp large) enough
    · simp only [large, if_false, enough]
      exact .retries (not_lt.mp large) (not_le.mp enough)

variable {rateLimit capacity : K}

theorem Metered.refilled (metered : Metered rateLimit capacity state) :
    debited state.tasks + (state.bucket.refill state.now).tokens ≤
      capacity + rateLimit * (state.now - state.started.getD state.now) := by
  have spent := metered.spent
  have gain := state.bucket.refill_gain state.now
  rw [metered.sameRate] at gain
  calc debited state.tasks + (state.bucket.refill state.now).tokens
    _ ≤ debited state.tasks + state.bucket.tokens + (state.now - state.bucket.lastUpdate.getD state.now) * rateLimit := by
      linarith
    _ ≤ capacity + rateLimit * (state.bucket.lastUpdate.getD state.now - state.started.getD state.now) +
        (state.now - state.bucket.lastUpdate.getD state.now) * rateLimit := by linarith
    _ = capacity + rateLimit * (state.now - state.started.getD state.now) := by ring

variable {before after : List (Task K)}

theorem Metered.charge (metered : Metered rateLimit capacity state) {task new : Task K} {bucket : Bucket K}
    (isTask : state.tasks = before ++ task :: after) (free : task.debited = 0) (idle : ∀ time, ¬task.Due time)
    (sameRate : bucket.rateLimit = rateLimit) (sameCapacity : bucket.maxTokens = capacity)
    (updated : bucket.lastUpdate = some state.now) (positive : 0 < new.size)
    (large : ∀ numTokens wakeTime, new = .paying numTokens wakeTime → capacity < numTokens)
    (balance : bucket.tokens + new.debited = (state.bucket.refill state.now).tokens)
    (covered : ∀ time, new.Due time → 0 ≤ bucket.tokens + rateLimit * (time - state.now)) : Metered rateLimit capacity
      ⟨bucket, state.now, before ++ new :: after, some (state.started.getD state.now)⟩ := by
  have members : ∀ other ∈ before ++ new :: after, other = new ∨ other ∈ state.tasks := by
    intro other isOther
    rw [isTask]
    simp only [mem_append, mem_cons] at isOther ⊢
    tauto
  have allPositive : ∀ other ∈ before ++ new :: after, 0 < other.size := by
    intro other isOther
    rcases members other isOther with rfl | isOld
    · exact positive
    · exact metered.positive other isOld
  have spent : debited (before ++ new :: after) + bucket.tokens ≤
      capacity + rateLimit * (state.now - state.started.getD state.now) := by
    have sum := sum_replace Task.debited before after task new
    rw [← isTask, free, sub_zero] at sum
    calc debited (before ++ new :: after) + bucket.tokens
      _ = debited state.tasks + (bucket.tokens + new.debited) := by rw [debited, sum, debited]; ring
      _ ≤ _ := by rw [balance]; exact metered.refilled
  refine ⟨sameRate, sameCapacity, ?_, allPositive, ?_, ?_, ?_, ?_, ?_⟩
  · have full := state.bucket.refill_tokens_le state.now
    have nonneg : 0 ≤ new.debited := by
      cases new with
      | asking => exact le_refl _
      | resting => exact le_refl _
      | paying => exact le_of_lt positive
      | granted => exact le_of_lt positive
    rw [metered.sameCapacity] at full
    linarith
  · intro numTokens wakeTime isOther
    rcases members _ isOther with isNew | isOld
    · exact large numTokens wakeTime isNew.symm
    · exact metered.large numTokens wakeTime isOld
  · rw [updated]
    rfl
  · rw [updated]
    exact le_refl _
  · rw [updated]
    exact spent
  · rintro time ⟨other, isOther, otherDue⟩
    refine ⟨_, rfl, ?_⟩
    by_cases newDue : new.Due time
    · have within : dueBy time (before ++ new :: after) ≤ debited (before ++ new :: after) :=
        sum_le_sum fun call isCall => call.dueBy_le time (allPositive call isCall)
      have enough := covered time newDue
      calc dueBy time (before ++ new :: after)
        _ ≤ capacity + rateLimit * (state.now - state.started.getD state.now) - bucket.tokens := by linarith
        _ ≤ capacity + rateLimit * (state.now - state.started.getD state.now) + rateLimit * (time - state.now) := by
          linarith
        _ = capacity + rateLimit * (time - state.started.getD state.now) := by ring
    · have isOld : other ∈ state.tasks := by
        rcases members other isOther with rfl | isOld
        · exact absurd otherDue newDue
        · exact isOld
      obtain ⟨first, isFirst, within⟩ := metered.due time ⟨other, isOld, otherDue⟩
      have sum := sum_replace (Task.dueBy time) before after task new
      rw [← isTask, Task.dueBy_eq_zero (idle time), Task.dueBy_eq_zero newDue, sub_zero, add_zero] at sum
      rw [dueBy, sum, isFirst]
      exact within

theorem Metered.enter {rateLimit capacity numTokens : K} (metered : Metered rateLimit capacity state)
    (isPositive : 0 < rateLimit) (isTask : state.tasks = before ++ task :: after) (sameSize : task.size = numTokens)
    (free : task.debited = 0) (idle : ∀ time, ¬task.Due time) :
    Metered rateLimit capacity (state.enter before numTokens after) := by
  have positive : 0 < numTokens := by
    rw [← sameSize]
    exact metered.positive task (by rw [isTask]; exact mem_append_right _ mem_cons_self)
  rw [State.enter]
  have acquired := state.bucket.acquire_cases state.now numTokens
  generalize (state.bucket.acquire state.now numTokens).1 = bucket at acquired ⊢
  generalize (state.bucket.acquire state.now numTokens).2 = outcome at acquired ⊢
  cases acquired with
  | pays large =>
    refine metered.charge isTask free idle metered.sameRate metered.sameCapacity rfl positive ?_ (sub_add_cancel _ _) ?_
    · rintro size wakeTime isSize
      cases isSize
      rwa [metered.sameCapacity] at large
    · intro time isDue
      -- the sleep lasts until the balance is refilled
      have wait : (numTokens - (state.bucket.refill state.now).tokens) / rateLimit ≤ time - state.now := by
        rw [← metered.sameRate]
        exact le_sub_iff_add_le'.mpr isDue
      have refilled := (div_le_iff₀ isPositive).mp wait
      simp only
      linarith
  | granted small enough =>
    refine metered.charge isTask free idle metered.sameRate metered.sameCapacity rfl positive ?_ (sub_add_cancel _ _) ?_
    · rintro size wakeTime isSize
      cases isSize
    · intro time isDue
      have refilled : 0 ≤ rateLimit * (time - state.now) := mul_nonneg isPositive.le (sub_nonneg.mpr isDue)
      exact add_nonneg (sub_nonneg.mpr enough) refilled
  | retries small short =>
    refine metered.charge isTask free idle metered.sameRate metered.sameCapacity rfl positive ?_ (add_zero _) ?_
    · rintro size wakeTime isSize
      cases isSize
    · exact fun time isDue => isDue.elim

theorem Metered.wake {rateLimit capacity numTokens wakeTime : K} (metered : Metered rateLimit capacity state)
    (isTask : state.tasks = before ++ .paying numTokens wakeTime :: after) (rested : wakeTime ≤ state.now) :
    Metered rateLimit capacity { state with tasks := before ++ .granted numTokens state.now :: after } := by
  have members : ∀ other ∈ before ++ .granted numTokens state.now :: after,
      other = .granted numTokens state.now ∨ other ∈ state.tasks := by
    intro other isOther
    rw [isTask]
    simp only [mem_append, mem_cons] at isOther ⊢
    tauto
  have isPaying : .paying numTokens wakeTime ∈ state.tasks := by
    rw [isTask]
    exact mem_append_right _ mem_cons_self
  have positive : 0 < numTokens := metered.positive _ isPaying
  refine ⟨metered.sameRate, metered.sameCapacity, metered.tokens_le, ?_, ?_, metered.begun, metered.updated, ?_, ?_⟩
  · intro other isOther
    rcases members other isOther with rfl | isOld
    · exact positive
    · exact metered.positive other isOld
  · intro size time isOther
    rcases members _ isOther with isNew | isOld
    · cases isNew
    · exact metered.large size time isOld
  · have sum := sum_replace Task.debited before after (.paying numTokens wakeTime) (.granted numTokens state.now)
    rw [← isTask] at sum
    rw [debited, sum]
    simpa [Task.debited, debited] using metered.spent
  · rintro time ⟨other, isOther, otherDue⟩
    have someDue : ∃ task ∈ state.tasks, task.Due time := by
      rcases members other isOther with rfl | isOld
      · exact ⟨_, isPaying, le_trans rested otherDue⟩
      · exact ⟨other, isOld, otherDue⟩
    obtain ⟨first, isFirst, within⟩ := metered.due time someDue
    refine ⟨first, isFirst, le_trans ?_ within⟩
    have sum := sum_replace (Task.dueBy time) before after (.paying numTokens wakeTime) (.granted numTokens state.now)
    rw [← isTask] at sum
    -- granted later than it was due
    have later : (Task.granted numTokens state.now).dueBy time ≤ (Task.paying numTokens wakeTime).dueBy time := by
      simp only [Task.dueBy]
      split_ifs with isDue wasDue
      · exact le_refl _
      · exact absurd (le_trans rested isDue) wasDue
      · exact positive.le
      · exact le_refl _
    rw [dueBy, sum, dueBy]
    linarith

theorem Metered.step {state next : State K} {event : Event K}
    (metered : Metered rateLimit capacity state) (isPositive : 0 < rateLimit) (taken : Step state event next) :
    Metered rateLimit capacity next := by
  cases taken with
  | tick later => exact metered.tick later
  | call positive => exact metered.call positive
  | ask isTask => exact metered.enter isPositive isTask rfl rfl fun _ => id
  | retry isTask rested => exact metered.enter isPositive isTask rfl rfl fun _ => id
  | wake isTask rested => exact metered.wake isTask rested

theorem getElem?_replaced {α : Type} {before after : List α} {task new call : α} {i : Nat}
    (isCall : (before ++ new :: after)[i]? = some call) (other : (before ++ task :: after)[i]? ≠ some call) : call = new := by
  rcases Nat.lt_trichotomy i before.length with inside | rfl | behind
  · rw [getElem?_append_left inside] at isCall other
    exact absurd isCall other
  · rw [getElem?_append_right (le_refl _), Nat.sub_self] at isCall
    exact (Option.some.inj isCall).symm
  · obtain ⟨k, rfl⟩ := Nat.exists_eq_add_of_lt behind
    have same : ∀ first : α, (before ++ first :: after)[before.length + k + 1]? = after[k]? := by
      intro first
      rw [getElem?_append_right (by omega), show before.length + k + 1 - before.length = k + 1 by omega]
      exact getElem?_cons_succ
    rw [same] at isCall other
    exact absurd isCall other

/-! ### Every run -/

theorem Metered.grants {state next : State K} {event : Event K}
    (metered : Metered rateLimit capacity state) (taken : Step state event next) {i : Nat} {numTokens time : K}
    (isGranted : next.tasks[i]? = some (.granted numTokens time))
    (wasNot : state.tasks[i]? ≠ some (.granted numTokens time)) (small : numTokens ≤ capacity) :
    numTokens ≤ (state.bucket.refill state.now).tokens ∧
      next.bucket.tokens = (state.bucket.refill state.now).tokens - numTokens ∧ 0 ≤ next.bucket.tokens := by
  have entered : ∀ {before after : List (Task K)} {task : Task K} {size : K}, state.tasks = before ++ task :: after →
      next = state.enter before size after → numTokens ≤ (state.bucket.refill state.now).tokens ∧
        next.bucket.tokens = (state.bucket.refill state.now).tokens - numTokens ∧ 0 ≤ next.bucket.tokens := by
    rintro before after task size isTask rfl
    rw [State.enter] at isGranted ⊢
    rw [isTask] at wasNot
    have isNew := getElem?_replaced isGranted wasNot
    have acquired := state.bucket.acquire_cases state.now size
    generalize (state.bucket.acquire state.now size).1 = bucket at acquired isNew ⊢
    generalize (state.bucket.acquire state.now size).2 = outcome at acquired isNew ⊢
    cases acquired with
    | pays => cases isNew
    | retries => cases isNew
    | granted fits enough =>
      cases isNew
      exact ⟨enough, rfl, sub_nonneg.mpr enough⟩
  cases taken with
  | tick => exact absurd isGranted wasNot
  | call =>
    rcases Nat.lt_or_ge i state.tasks.length with inside | behind
    · exact absurd (getElem?_append_left inside ▸ isGranted) wasNot
    · rw [getElem?_append_right behind] at isGranted
      cases mem_singleton.mp (mem_of_getElem? isGranted)
  | ask isTask => exact entered isTask rfl
  | retry isTask => exact entered isTask rfl
  | @wake before after size wakeTime isTask rested =>
    rw [isTask] at wasNot
    cases getElem?_replaced isGranted wasNot
    have isPaying : .paying numTokens wakeTime ∈ state.tasks := by
      rw [isTask]
      exact mem_append_right _ mem_cons_self
    exact absurd (metered.large _ _ isPaying) (not_lt.mpr small)

/-- The bucket is never over its capacity, what is granted by a time is within the rate,
and a request that fits the bucket is granted from its balance. -/
theorem rate_limited {rateLimit start : K} {maxTokens : Option K} {events : List (Event K)} {state : State K}
    (isPositive : 0 < rateLimit) (run : Run Step (State.initial rateLimit maxTokens start) events state) :
    state.bucket.tokens ≤ state.bucket.maxTokens ∧
    (∀ first time, state.started = some first → first ≤ time → 0 ≤ state.bucket.maxTokens ∨ 0 < state.grantedBy time →
      state.grantedBy time ≤ state.bucket.maxTokens + rateLimit * (time - first)) ∧
    ∀ event next, Step state event next → ∀ (i : Nat) numTokens time,
      next.tasks[i]? = some (.granted numTokens time) → state.tasks[i]? ≠ some (.granted numTokens time) →
      numTokens ≤ state.bucket.maxTokens →
        numTokens ≤ (state.bucket.refill state.now).tokens ∧
        next.bucket.tokens = (state.bucket.refill state.now).tokens - numTokens ∧ 0 ≤ next.bucket.tokens := by
  have metered := run.invariant (fun _ => Metered rateLimit (Bucket.create rateLimit maxTokens).maxTokens)
    (.initial rateLimit maxTokens start) fun _ _ _ _ metered taken => metered.step isPositive taken
  rw [metered.sameCapacity]
  refine ⟨metered.tokens_le, ?_, fun event next taken i numTokens time isGranted wasNot small =>
    metered.grants taken isGranted wasNot small⟩
  intro first time isFirst later spends
  have within : state.grantedBy time ≤ dueBy time state.tasks :=
    List.sum_le_sum fun task isTask => task.grantedBy_le time (metered.positive task isTask)
  by_cases someDue : ∃ task ∈ state.tasks, task.Due time
  · obtain ⟨other, isOther, bound⟩ := metered.due time someDue
    cases isFirst.symm.trans isOther
    exact le_trans within bound
  · have nothing : state.grantedBy time = 0 := by
      refine List.sum_eq_zero fun value isValue => ?_
      obtain ⟨task, isTask, rfl⟩ := List.mem_map.mp isValue
      by_contra something
      exact someDue ⟨task, isTask, task.due_of_grantedBy something⟩
    rw [nothing] at spends ⊢
    have refilled : 0 ≤ rateLimit * (time - first) := mul_nonneg isPositive.le (sub_nonneg.mpr later)
    exact add_nonneg (spends.resolve_right (lt_irrefl 0)) refilled

/-- A request that fits the bucket and one that does not, up to the rate. -/
theorem rate_limited_tight : ∃ (events : List (Event ℚ)) (state : State ℚ),
    Run Step (State.initial 1 (some 2) 0) events state ∧ state.bucket.tokens ≤ state.bucket.maxTokens ∧
      state.grantedBy 2 = 2 + 1 * (2 - 0) := by
  have run : Run Step (State.initial (1 : ℚ) (some 2) 0) [.call 1, .enter 1, .call 3, .enter 3, .tick, .wake 3]
      ⟨⟨1, 2, -2, some 0⟩, 2, [.granted 1 0, .granted 3 2], some 0⟩ := by
    have first := Run.single (@Step.call ℚ _ _ (State.initial 1 (some 2) 0) 1 one_pos)
    have second := first.step (@Step.ask ℚ _ _ _ [] [] 1 rfl)
    have third := second.step (@Step.call ℚ _ _ _ 3 three_pos)
    norm_num [State.enter, State.initial, Bucket.acquire, Bucket.refill, Bucket.create, Outcome.task] at third
    have fourth := third.step (@Step.ask ℚ _ _ _ [.granted 1 0] [] 3 rfl)
    norm_num [State.enter, Bucket.acquire, Bucket.refill, Outcome.task] at fourth
    have fifth := fourth.step (@Step.tick ℚ _ _ _ 2 two_pos.le)
    exact fifth.step (@Step.wake ℚ _ _ _ [.granted 1 0] [] 3 2 rfl (le_refl _))
  have limited := rate_limited one_pos run
  have granted := limited.2.1 0 2 rfl two_pos.le (.inl two_pos.le)
  refine ⟨_, _, run, limited.1, le_antisymm granted ?_⟩
  norm_num [State.grantedBy, Task.grantedBy]

end LLMFusion.AsyncTokenBucket
