import LLMFusion.Lib.Runs
import LLMFusion.MessageQueue

/-! What goes into the queue comes out in order, is dropped, or is still there. -/

namespace LLMFusion.MessageQueue
open Runs List

variable {σ : Type}

/-- The samples that were put, in order. -/
def produced (events : List (Event σ)) : List σ := events.filterMap Event.produced

def delivered (events : List (Event σ)) : List σ := events.filterMap Event.delivered

theorem putSample_cases {messageQueue next : MessageQueue σ} {sample : σ} {success : Bool}
    (stored : messageQueue.putSample sample = some (next, success)) :
    (success = true ∧ messageQueue.queue.length < messageQueue.maxQueueSize ∧ next = { messageQueue with
        queue := messageQueue.queue ++ [sample]
        totalProduced := messageQueue.totalProduced + 1 }) ∨
    ∃ oldest rest, success = false ∧ messageQueue.queue = oldest :: rest ∧
      next = { messageQueue with
        queue := rest ++ [sample]
        totalProduced := messageQueue.totalProduced + 1
        droppedSamples := messageQueue.droppedSamples + 1 } := by
  rw [putSample] at stored
  by_cases full : messageQueue.maxQueueSize ≤ messageQueue.queue.length
  · rw [if_pos full] at stored
    cases isQueue : messageQueue.queue with
    | nil =>
      rw [isQueue] at stored
      cases stored
    | cons oldest rest =>
      rw [isQueue] at stored
      cases stored
      exact Or.inr ⟨oldest, rest, rfl, rfl, rfl⟩
  · rw [if_neg full] at stored
    cases stored
    exact Or.inl ⟨rfl, Nat.lt_of_not_le full, rfl⟩

theorem getSample_cases {messageQueue next : MessageQueue σ} {result : Option (σ × Nat)}
    (received : messageQueue.getSample = some (result, next)) :
    (∃ data rest, messageQueue.queue = data :: rest ∧ result = some (data, rest.length) ∧
      next = { messageQueue with queue := rest, totalConsumed := messageQueue.totalConsumed + 1 }) ∨
    (messageQueue.queue = [] ∧ messageQueue.running = false ∧ result = none ∧ next = messageQueue) := by
  rw [getSample] at received
  cases isQueue : messageQueue.queue with
  | nil =>
    rw [isQueue] at received
    cases isRunning : messageQueue.running with
    | true =>
      rw [isRunning] at received
      cases received
    | false =>
      rw [isRunning] at received
      cases received
      exact Or.inr ⟨rfl, rfl, rfl, rfl⟩
  | cons data rest =>
    rw [isQueue] at received
    cases received
    exact Or.inl ⟨data, rest, rfl, rfl, rfl⟩

/-! ### Every run -/

def Event.evicts : Event σ → Bool
  | .put _ success => !success
  | _ => false

/-- What was taken from the queue was delivered or dropped, oldest first. -/
structure Conserved (maxQueueSize : Nat) (events : List (Event σ)) (state : State σ) : Prop where
  places : state.messageQueue.maxQueueSize = maxQueueSize
  bounded : state.messageQueue.queue.length ≤ maxQueueSize
  totalProduced : state.messageQueue.totalProduced = (produced events).length
  totalConsumed : state.messageQueue.totalConsumed = (delivered events).length
  droppedSamples : state.messageQueue.droppedSamples = events.countP Event.evicts
  ordered : ∃ taken, produced events = taken ++ state.messageQueue.queue ∧ (delivered events).Sublist taken ∧
    taken.length = state.messageQueue.totalConsumed + state.messageQueue.droppedSamples

def State.initial (maxQueueSize : Nat) : State σ := ⟨.create maxQueueSize, []⟩

theorem Conserved.initial (maxQueueSize : Nat) : Conserved maxQueueSize [] (State.initial maxQueueSize : State σ) where
  places := rfl
  bounded := Nat.zero_le _
  totalProduced := rfl
  totalConsumed := rfl
  droppedSamples := rfl
  ordered := ⟨[], rfl, nil_sublist [], rfl⟩

variable {state next : State σ} {events : List (Event σ)} {maxQueueSize : Nat}

theorem Conserved.same {event : Event σ}
    (conserved : Conserved maxQueueSize events state) (queue : next.messageQueue.queue = state.messageQueue.queue)
    (places : next.messageQueue.maxQueueSize = state.messageQueue.maxQueueSize)
    (totalProduced : next.messageQueue.totalProduced = state.messageQueue.totalProduced)
    (totalConsumed : next.messageQueue.totalConsumed = state.messageQueue.totalConsumed)
    (droppedSamples : next.messageQueue.droppedSamples = state.messageQueue.droppedSamples)
    (nothing : event.produced = none) (nothing' : event.delivered = none) (keeps : event.evicts = false) :
    Conserved maxQueueSize (events ++ [event]) next := by
  have sameProduced : produced (events ++ [event]) = produced events := by simp [produced, nothing]
  have sameDelivered : delivered (events ++ [event]) = delivered events := by simp [delivered, nothing']
  refine ⟨places.trans conserved.places, ?_, ?_, ?_, ?_, ?_⟩
  · rw [queue]
    exact conserved.bounded
  · rw [sameProduced, totalProduced]
    exact conserved.totalProduced
  · rw [sameDelivered, totalConsumed]
    exact conserved.totalConsumed
  · rw [droppedSamples, conserved.droppedSamples]
    simp [keeps]
  · rw [sameProduced, sameDelivered, queue, totalConsumed, droppedSamples]
    exact conserved.ordered

variable {messageQueue : MessageQueue σ}

theorem Conserved.put {state : State σ} {sample : σ} {success : Bool}
    {consumers : List (Consumer σ)} (conserved : Conserved maxQueueSize events state)
    (stored : state.messageQueue.putSample sample = some (messageQueue, success)) :
    Conserved maxQueueSize (events ++ [.put sample success]) ⟨messageQueue, consumers⟩ := by
  have more : produced (events ++ [.put sample success]) = produced events ++ [sample] := by
    simp [produced, Event.produced]
  have same : delivered (events ++ [.put sample success]) = delivered events := by simp [delivered, Event.delivered]
  obtain ⟨taken, isProduced, isDelivered, length⟩ := conserved.ordered
  have bounded := conserved.bounded
  have totalProduced : state.messageQueue.totalProduced + 1 = (produced events ++ [sample]).length := by
    rw [conserved.totalProduced, length_append, length_singleton]
  rcases putSample_cases stored with ⟨rfl, place, rfl⟩ | ⟨oldest, rest, rfl, isQueue, rfl⟩
  · refine ⟨conserved.places, ?_, ?_, ?_, ?_, taken, ?_, ?_, length⟩
    · rw [length_append, length_singleton, ← conserved.places]
      exact place
    · rw [more]
      exact totalProduced
    · rw [same]
      exact conserved.totalConsumed
    · simp [Event.evicts, conserved.droppedSamples]
    · rw [more, isProduced, append_assoc]
    · rwa [same]
  · rw [isQueue] at isProduced bounded
    refine ⟨conserved.places, ?_, ?_, ?_, ?_, taken ++ [oldest], ?_, ?_, ?_⟩
    · rwa [length_append, length_singleton, ← length_cons]
    · rw [more]
      exact totalProduced
    · rw [same]
      exact conserved.totalConsumed
    · simp [Event.evicts, conserved.droppedSamples]
    · rw [more, isProduced]
      simp
    · rw [same]
      exact isDelivered.trans (sublist_append_left taken [oldest])
    · rw [length_append, length_singleton, length]
      rfl

theorem Conserved.get {state : State σ} {result : Option (σ × Nat)}
    {consumers : List (Consumer σ)} (conserved : Conserved maxQueueSize events state)
    (received : state.messageQueue.getSample = some (result, messageQueue)) :
    Conserved maxQueueSize (events ++ [.get result]) ⟨messageQueue, consumers⟩ := by
  rcases getSample_cases received with ⟨data, rest, isQueue, rfl, rfl⟩ | ⟨isQueue, isClosed, rfl, rfl⟩
  · have same : produced (events ++ [.get (some (data, rest.length))]) = produced events := by
      simp [produced, Event.produced]
    have more : delivered (events ++ [.get (some (data, rest.length))]) = delivered events ++ [data] := by
      simp [delivered, Event.delivered]
    obtain ⟨taken, isProduced, isDelivered, length⟩ := conserved.ordered
    have bounded := conserved.bounded
    rw [isQueue] at isProduced bounded
    refine ⟨conserved.places, ?_, ?_, ?_, ?_, taken ++ [data], ?_, ?_, ?_⟩
    · exact Nat.le_trans (Nat.le_succ _) bounded
    · rw [same]
      exact conserved.totalProduced
    · rw [more, length_append, length_singleton, conserved.totalConsumed]
    · simp [Event.evicts, conserved.droppedSamples]
    · rw [same, isProduced]
      simp
    · rw [more]
      exact isDelivered.append (List.Sublist.refl [data])
    · rw [length_append, length_singleton, length]
      exact Nat.add_right_comm _ _ _
  · exact conserved.same rfl rfl rfl rfl rfl rfl rfl rfl

theorem Conserved.step {event : Event σ}
    (conserved : Conserved maxQueueSize events state) (taken : Step state event next) :
    Conserved maxQueueSize (events ++ [event]) next := by
  cases taken with
  | put stored => exact conserved.put stored
  | call => exact conserved.same rfl rfl rfl rfl rfl rfl rfl rfl
  | wait => exact conserved.same rfl rfl rfl rfl rfl rfl rfl rfl
  | get isConsumer received => exact conserved.get received
  | shutdown => exact conserved.same rfl rfl rfl rfl rfl rfl rfl rfl

theorem putSample_evicts (positive : 0 < messageQueue.maxQueueSize) (sample : σ) :
    ∃ next success, messageQueue.putSample sample = some (next, success) ∧
      (success = false ↔ ∃ oldest rest, messageQueue.queue = oldest :: rest ∧ next.queue = rest ++ [sample]) := by
  by_cases full : messageQueue.maxQueueSize ≤ messageQueue.queue.length
  · cases isQueue : messageQueue.queue with
    | nil =>
      rw [isQueue] at full
      exact absurd positive (Nat.not_lt.mpr full)
    | cons oldest rest =>
      refine ⟨_, _, by rw [putSample, if_pos full, isQueue], ?_⟩
      exact ⟨fun _ => ⟨oldest, rest, rfl, rfl⟩, fun _ => rfl⟩
  · refine ⟨_, _, by rw [putSample, if_neg full], ?_⟩
    refine ⟨nofun, ?_⟩
    rintro ⟨oldest, rest, isQueue, same⟩
    have lengths := congrArg length same
    simp [isQueue] at lengths

/-- A check of a call finds a sample or a queue that is not shut down. -/
def State.Open (state : State σ) : Event σ → Prop
  | .get _ => state.messageQueue.queue = [] → state.messageQueue.running = true
  | _ => True

def State.Unpacks (state : State σ) : Prop :=
  ∀ result, .returned result ∈ state.consumers → ∃ data, unpack result = .ok data

theorem State.Unpacks.notify (unpacks : state.Unpacks)
    (consumers : next.consumers = state.consumers.map Consumer.notify) : next.Unpacks := by
  intro result isConsumer
  rw [consumers] at isConsumer
  obtain ⟨consumer, isOld, isResult⟩ := mem_map.mp isConsumer
  cases consumer with
  | checking => cases isResult
  | waiting => cases isResult
  | returned result =>
    cases isResult
    exact unpacks _ isOld

theorem State.Unpacks.replace (unpacks : state.Unpacks) {before after : List (Consumer σ)}
    {consumer new : Consumer σ} (isConsumer : state.consumers = before ++ consumer :: after)
    (consumers : next.consumers = before ++ new :: after)
    (returns : ∀ result, new = .returned result → ∃ data, unpack result = .ok data) : next.Unpacks := by
  intro result isResult
  rw [consumers, mem_append, mem_cons] at isResult
  rcases isResult with isBefore | isNew | isAfter
  · exact unpacks result (by rw [isConsumer]; exact mem_append_left _ isBefore)
  · exact returns result isNew.symm
  · exact unpacks result (by rw [isConsumer]; exact mem_append_right _ (mem_cons_of_mem _ isAfter))

theorem State.Unpacks.step {event : Event σ} (unpacks : state.Unpacks)
    (taken : Step state event next) (isOpen : state.Open event) : next.Unpacks := by
  cases taken with
  | put => exact unpacks.notify rfl
  | call =>
    intro result isConsumer
    rcases mem_append.mp isConsumer with isOld | isNew
    · exact unpacks result isOld
    · cases mem_singleton.mp isNew
  | wait isConsumer => exact unpacks.replace isConsumer rfl nofun
  | get isConsumer received =>
    refine unpacks.replace isConsumer rfl ?_
    rintro result ⟨⟩
    rcases getSample_cases received with ⟨data, rest, isQueue, rfl, _⟩ | ⟨isQueue, isClosed, _⟩
    · exact ⟨_, rfl⟩
    · exact absurd (isOpen isQueue) (by simp [isClosed])
  | shutdown => exact unpacks.notify rfl

/-- Every run of a queue with at least one place. Its results can be unpacked when no call
finds the queue empty and shut down. -/
theorem messageQueue_contract {maxQueueSize : Nat} (positive : 0 < maxQueueSize) {events : List (Event σ)} {state : State σ}
    (run : Run Step (State.initial maxQueueSize) events state) :
    (delivered events).Sublist (produced events) ∧
    ((produced events).Nodup → (delivered events).Nodup) ∧
    state.messageQueue.totalProduced =
      state.messageQueue.totalConsumed + state.messageQueue.droppedSamples + state.messageQueue.queue.length ∧
    state.messageQueue.queue.length ≤ maxQueueSize ∧
    (∀ sample, ∃ next success, state.messageQueue.putSample sample = some (next, success) ∧
      (success = false ↔ ∃ oldest rest, state.messageQueue.queue = oldest :: rest ∧ next.queue = rest ++ [sample])) ∧
    (Run (fun state event next => Step state event next ∧ state.Open event) (State.initial maxQueueSize) events state →
      ∀ result, .returned result ∈ state.consumers → ∃ data, unpack result = .ok data) := by
  have conserved := run.invariant (Conserved maxQueueSize) (.initial maxQueueSize)
    fun _ _ _ _ conserved taken => conserved.step taken
  obtain ⟨taken, isProduced, isDelivered, length⟩ := conserved.ordered
  have ordered : (delivered events).Sublist (produced events) := by
    rw [isProduced]
    exact isDelivered.trans (List.sublist_append_left taken _)
  refine ⟨ordered, fun distinct => distinct.sublist ordered, ?_, conserved.bounded, ?_, ?_⟩
  · rw [conserved.totalProduced, isProduced, List.length_append, length]
  · apply putSample_evicts
    rwa [conserved.places]
  · intro opened
    exact opened.invariant (fun _ state => state.Unpacks) nofun fun _ _ _ _ unpacks taken => unpacks.step taken.1 taken.2

/-- One place, three samples and two calls; the second sample takes the place of the first. -/
theorem messageQueue_contract_evicting : ∃ (events : List (Event Nat)) (state : State Nat),
    (delivered events).Sublist (produced events) ∧ produced events = [7, 8, 9] ∧ delivered events = [8, 9] ∧
      state.messageQueue.droppedSamples = 1 ∧ state.messageQueue.queue.length ≤ 1 ∧
      ∀ result, .returned result ∈ state.consumers → ∃ data, unpack result = .ok data := by
  have initial : Run (fun state event next => Step state event next ∧ state.Open event)
    (State.initial 1 : State Nat) [] (State.initial 1) := .start
  have waiting := (initial.step ⟨.call, trivial⟩).step ⟨@Step.wait _ _ [] [] rfl rfl, trivial⟩
  have evicting := ((waiting.step ⟨@Step.put _ _ 7 _ _ rfl, trivial⟩).step ⟨@Step.put _ _ 8 _ _ rfl, trivial⟩)
  have first := evicting.step ⟨@Step.get _ _ [] [] _ _ rfl rfl, nofun⟩
  have second := (first.step ⟨@Step.put _ _ 9 _ _ rfl, trivial⟩).step ⟨.call, trivial⟩
  have last := second.step ⟨@Step.get _ _ [.returned (some (8, 0))] [] _ _ rfl rfl, nofun⟩
  have contract := messageQueue_contract Nat.one_pos (last.mono fun _ _ _ taken => taken.1)
  exact ⟨_, _, contract.1, rfl, rfl, rfl, contract.2.2.2.1, contract.2.2.2.2.2 last⟩

/-- A call that waits when the queue is shut down returns what the trainer cannot unpack. -/
theorem closed_result_not_unpacked : ∃ (events : List (Event Nat)) (state : State Nat),
    Run Step (State.initial 1) events state ∧ .returned none ∈ state.consumers ∧
      unpack (none : Option (Nat × Nat)) = .error .typeError ∧
      collectSamples 1 ([] : List Nat) [none] = .error .typeError := by
  have initial : Run Step (State.initial 1 : State Nat) [] (State.initial 1) := .start
  have waiting := (initial.step .call).step (@Step.wait _ _ [] [] rfl rfl)
  have closed := (waiting.step .shutdown).step (@Step.get _ _ [] [] _ _ rfl rfl)
  exact ⟨_, _, closed, List.mem_cons_self, rfl, rfl⟩

end LLMFusion.MessageQueue
