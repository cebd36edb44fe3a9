import LLMFusion.Proofs.SharedBuffer
import Mathlib.Algebra.GroupWithZero.Nat

/-! Every run of a transfer through the shared buffer delivers the weights in order, ends, and stops
the receiver behind the one request that is marked as the last. -/

namespace LLMFusion.BucketedWeightTransfer
open CheckpointEngine Runs List

variable {bucketSize : Nat} {useShm : Bool} {weights : List Weight} {start state next : State} {events : List Event} {event : Event}

/-! ### The events of a run -/

def Event.sent : Event → Option Metadata
  | .send (.bucket metadata) => some metadata
  | _ => none

def Event.answered : Event → Option Metadata
  | .answer metadata => some metadata
  | _ => none

/-- The buckets that the sender sent. -/
def sent (events : List Event) : List Metadata := events.filterMap Event.sent

/-- The buckets that the receiver answered. -/
def answered (events : List Event) : List Metadata := events.filterMap Event.answered

def Event.opens (pending : Bool) : Event → Bool
  | .send _ => true
  | .acknowledged => false
  | _ => pending

def pending (events : List Event) : Bool := events.foldl Event.opens false

theorem sent_concat (events : List Event) (event : Event) : sent (events ++ [event]) = sent events ++ event.sent.toList := by
  rw [sent, filterMap_append, filterMap_cons]
  cases event.sent <;> rfl

theorem answered_concat (events : List Event) (event : Event) :
    answered (events ++ [event]) = answered events ++ event.answered.toList := by
  rw [answered, filterMap_append, filterMap_cons]
  cases event.answered <;> rfl

theorem pending_concat (events : List Event) (event : Event) : pending (events ++ [event]) = event.opens (pending events) := by
  rw [pending, foldl_append]
  rfl

theorem pending_until {middle : List Event} (unacknowledged : Event.acknowledged ∉ middle) (before : List Event) (request : Request) :
    pending (before ++ .send request :: middle) = true := by
  induction middle using reverseRecOn with
  | nil => exact pending_concat before _
  | append_singleton middle event ih =>
    rw [← cons_append, ← append_assoc, pending_concat, ih (fun member => unacknowledged (mem_append_left _ member))]
    cases event with
    | acknowledged => exact absurd (mem_append_right _ mem_cons_self) unacknowledged
    | send | write | receive | read | callback | answer | opened | fail => rfl

/-! ### Requests and answers -/

def Request.metadata : Request → Option Metadata
  | .commMetadata => none
  | .bucket metadata => some metadata

def ReceiverPhase.metadata : ReceiverPhase → Option Metadata
  | .reading metadata _ _ | .called metadata => some metadata
  | _ => none

def State.unanswered (state : State) : List Metadata := state.receiver.metadata.toList ++ state.requests.filterMap Request.metadata

def SenderPhase.closing : SenderPhase → Bool
  | .awaiting _ .finished | .done => true
  | _ => false

def SenderPhase.awaits : SenderPhase → Bool
  | .awaiting _ _ => true
  | _ => false

structure State.Logged (bucketSize : Nat) (events : List Event) (state : State) : Prop where
  order : sent events = answered events ++ state.unanswered
  marks : ∃ count, (sent events).map Metadata.isLast = List.replicate count false ++ if state.sender.closing then [true] else []
  stops : state.receiver = .left ↔ ∃ metadata ∈ answered events, metadata.isLast = true
  awaits : pending events = state.sender.awaits
  inside : ∀ start stop, .write start stop ∈ events → start ≤ stop ∧ stop ≤ bucketSize

section Log
variable (logged : state.Logged bucketSize events)
include logged

theorem State.Logged.other (isSent : event.sent = none) (isAnswered : event.answered = none)
    (same : next.unanswered = state.unanswered) (closing : next.sender.closing = state.sender.closing)
    (stop : next.receiver = .left ↔ state.receiver = .left) (awaits : event.opens state.sender.awaits = next.sender.awaits)
    (inside : ∀ start stop, event = .write start stop → start ≤ stop ∧ stop ≤ bucketSize) :
    next.Logged bucketSize (events ++ [event]) where
  order := by
    rw [sent_concat, answered_concat, isSent, isAnswered, same]
    simpa using logged.order
  marks := by
    rw [sent_concat, isSent, closing]
    simpa using logged.marks
  stops := by
    rw [answered_concat, isAnswered, stop]
    simpa using logged.stops
  awaits := by
    rw [pending_concat, logged.awaits]
    exact awaits
  inside := by
    intro start stop member
    cases mem_append.mp member with
    | inl old => exact logged.inside start stop old
    | inr new => exact inside start stop (mem_singleton.mp new).symm

theorem State.Logged.send {metadata : Metadata} {behind : Behind} (before : state.sender.closing = false)
    (last : metadata.isLast = (state.send (.bucket metadata) behind).sender.closing) :
    (state.send (.bucket metadata) behind).Logged bucketSize (events ++ [.send (.bucket metadata)]) := by
  refine ⟨?_, ?_, ?_, pending_concat events _, ?_⟩
  · rw [sent_concat, answered_concat, logged.order]
    simp [State.unanswered, State.send, Event.sent, Event.answered, Request.metadata]
  · obtain ⟨count, marks⟩ := logged.marks
    rw [before, if_neg Bool.false_ne_true, append_nil] at marks
    rw [sent_concat, map_append, marks, ← last]
    simp only [Event.sent, Option.toList_some, map_singleton]
    cases metadata.isLast with
    | false =>
      refine ⟨count + 1, ?_⟩
      rw [if_neg Bool.false_ne_true, append_nil, replicate_succ']
    | true => exact ⟨count, by rw [if_pos rfl]⟩
  · rw [answered_concat]
    simp only [Event.answered, Option.toList_none, append_nil]
    exact logged.stops
  · intro start stop member
    cases mem_append.mp member with
    | inl old => exact logged.inside start stop old
    | inr new => cases mem_singleton.mp new

theorem State.Logged.answer {metadata : Metadata} (called : state.receiver = .called metadata) :
    State.Logged bucketSize (events ++ [.answer metadata])
      { state with answers := state.answers + 1, receiver := if metadata.isLast then .left else .waiting } := by
  have unstopped : ¬ ∃ metadata ∈ answered events, metadata.isLast = true := by
    rw [← logged.stops, called]
    exact ReceiverPhase.noConfusion
  refine ⟨?_, ?_, ?_, ?_, ?_⟩
  · have order := logged.order
    rw [State.unanswered, called] at order
    rw [sent_concat, answered_concat, State.unanswered]
    simp only [Event.sent, Event.answered, Option.toList_none, Option.toList_some, append_nil, append_assoc]
    rw [order]
    split <;> rfl
  · rw [sent_concat]
    simp only [Event.sent, Option.toList_none, append_nil]
    exact logged.marks
  · rw [answered_concat]
    simp only [Event.answered, Option.toList_some, mem_append, mem_singleton, or_and_right, exists_or, exists_eq_left]
    cases metadata.isLast with
    | false => simpa using unstopped
    | true => simp
  · exact (pending_concat events _).trans logged.awaits
  · intro start stop member
    cases mem_append.mp member with
    | inl old => exact logged.inside start stop old
    | inr new => cases mem_singleton.mp new

end Log

theorem State.Logged.step (logged : state.Logged bucketSize events) (sound : state.Sound bucketSize useShm)
    (taken : Step bucketSize useShm state event next) : next.Logged bucketSize (events ++ [event]) := by
  cases taken with
  | initBuffer starting =>
    apply logged.other rfl rfl
    · simp [State.unanswered, State.send, Request.metadata]
    · rw [starting]
      rfl
    · exact Iff.rfl
    · rfl
    · intro _ _ impossible
      cases impossible
  | @acknowledged request behind answers awaiting answered =>
    have receiver : ({ state with answers := answers }.resume behind).receiver = state.receiver := by cases behind <;> rfl
    have requests : ({ state with answers := answers }.resume behind).requests = state.requests := by cases behind <;> rfl
    apply logged.other rfl rfl
    · rw [State.unanswered, receiver, requests, State.unanswered]
    · rw [awaiting]
      cases behind <;> rfl
    · rw [receiver]
    · cases behind <;> rfl
    · intro _ _ impossible
      cases impossible
  | flush filling =>
    apply logged.send
    · rw [filling]
      rfl
    · rfl
  | @place weight rest bucket isNext ready put =>
    have packed := sound.packed
    rw [isNext] at packed
    have open' : state.sender.closing = false ∧ state.sender.awaits = false := by
      rcases ready with placing | ⟨filling, _⟩
      · rw [placing]
        exact ⟨rfl, rfl⟩
      · rw [filling]
        exact ⟨rfl, rfl⟩
    apply logged.other rfl rfl
    · rfl
    · exact open'.1.symm
    · exact Iff.rfl
    · exact open'.2
    · intro start stop written
      cases written
      exact ⟨Nat.le_add_right _ _, (packed.place put).2.2⟩
  | @sendDirectly weight rest bucket message isNext ready put =>
    have packed := sound.packed
    rw [isNext] at packed
    obtain ⟨_, rfl⟩ := packed.sendDirectly put
    apply logged.send
    · rcases ready with placing | ⟨filling, _⟩
      · rw [placing]
        rfl
      · rw [filling]
        rfl
    · rfl
  | refuse isNext ready put =>
    have packed := sound.packed
    rw [isNext] at packed
    exact absurd put (packed.not_refused (sound.room ready) _ _)
  | finish filling =>
    apply logged.send
    · rw [filling]
      rfl
    · rfl
  | receiveBuffer starting first =>
    apply logged.other rfl rfl
    · rw [State.unanswered, State.unanswered, starting, first]
      rfl
    · rfl
    · simp [starting]
    · rfl
    · intro _ _ impossible
      cases impossible
  | answerBuffer opened =>
    apply logged.other rfl rfl
    · rw [State.unanswered, State.unanswered, opened]
      rfl
    · rfl
    · simp [opened]
    · rfl
    · intro _ _ impossible
      cases impossible
  | receive waiting first =>
    apply logged.other rfl rfl
    · rw [State.unanswered, State.unanswered, waiting, first]
      rfl
    · rfl
    · simp [waiting]
    · rfl
    · intro _ _ impossible
      cases impossible
  | read reading =>
    apply logged.other rfl rfl
    · rw [State.unanswered, State.unanswered, reading]
      rfl
    · rfl
    · simp [reading]
    · rfl
    · intro _ _ impossible
      cases impossible
  | readFails reading received =>
    obtain ⟨_, found⟩ := sound.read_ok reading
    rw [receiveEntry_fails received] at found
    cases found
  | callback reading =>
    apply logged.other rfl rfl
    · rw [State.unanswered, State.unanswered, reading]
      rfl
    · rfl
    · simp [reading]
    · rfl
    · intro _ _ impossible
      cases impossible
  | answer called => exact logged.answer called

/-! ### Progress -/

section Progress
variable (sound : state.Sound bucketSize useShm)
include sound

private theorem puts {weight : Weight} {rest : List Weight} (isNext : state.weights = weight :: rest)
    (ready : state.sender = .placing ∨ state.sender = .filling ∧ ¬ state.bucket.Full bucketSize weight) :
    ∃ event next, Step bucketSize useShm state event next := by
  have packed := sound.packed
  rw [isNext] at packed
  rcases putWeight_cases useShm packed.sound weight packed.fresh with ⟨_, bucket, put, _⟩ | ⟨full, put⟩
  · exact ⟨_, _, .place isNext ready put⟩
  · by_cases isShm : useShm = true
    · rw [if_pos isShm] at put
      exact absurd put (packed.not_refused (sound.room ready) _ _)
    · rw [if_neg isShm] at put
      exact ⟨_, _, .sendDirectly isNext ready put⟩

private theorem reads {metadata : Metadata} {unread : List (String × TensorMetadata)} {weights : List (String × Held)}
    (reading : state.receiver = .reading metadata unread weights) : ∃ event next, Step bucketSize useShm state event next := by
  cases unread with
  | nil =>
    obtain ⟨tensors, found, _⟩ := Fallible.mapM_ok (readHeld state.bucket.buffer) (fun _ _ => True) (fun held member => by
      obtain ⟨received, found⟩ := sound.holds _ _ _ reading held member
      exact ⟨received, found, trivial⟩)
    exact ⟨_, _, .callback reading found⟩
  | cons entry unread =>
    obtain ⟨received, found⟩ := sound.read_ok reading
    have read : receiveEntry useShm state.bucket.buffer entry =
        .ok (received.1, if useShm || entry.2.handle.isSome then .own received.2 else .view entry.2) := by
      rw [receiveEntry, found, Fallible.ok_bind]
    exact ⟨_, _, .read reading read⟩

theorem State.Sound.goes_on :
    state.sender = .done ∧ state.receiver = .left ∨ ∃ event next, Step bucketSize useShm state event next := by
  have turn := sound.turn
  generalize isSender : state.sender = sender at turn
  generalize isRequests : state.requests = requests at turn
  generalize isAnswers : state.answers = answers at turn
  generalize isReceiver : state.receiver = receiver at turn
  cases turn with
  | done => exact Or.inl ⟨rfl, rfl⟩
  | starting => exact Or.inr ⟨_, _, .initBuffer isSender⟩
  | filling =>
    right
    cases isNext : state.weights with
    | nil => exact ⟨_, _, .finish isSender isNext⟩
    | cons weight rest =>
      by_cases full : state.bucket.Full bucketSize weight
      · exact ⟨_, _, .flush isSender isNext full⟩
      · exact puts sound isNext (Or.inr ⟨isSender, full⟩)
  | placing =>
    right
    obtain ⟨weight, rest, isNext⟩ := exists_cons_of_ne_nil (sound.placing isSender).2
    exact puts sound isNext (Or.inl isSender)
  | opening => exact Or.inr ⟨_, _, .receiveBuffer isReceiver isRequests⟩
  | opened => exact Or.inr ⟨_, _, .answerBuffer isReceiver⟩
  | openAnswered => exact Or.inr ⟨_, _, .acknowledged isSender isAnswers⟩
  | sent => exact Or.inr ⟨_, _, .receive isReceiver isRequests⟩
  | reading => exact Or.inr (reads sound isReceiver)
  | called => exact Or.inr ⟨_, _, .answer isReceiver⟩
  | answered => exact Or.inr ⟨_, _, .acknowledged isSender isAnswers⟩

end Progress

/-! ### Termination -/

/-- The most steps that the sender takes and causes before its end. A weight may cause a bucket to be
sent and be sent itself. -/
def senderSteps (bucket : Bucket) (weights : List Weight) : SenderPhase → Nat
  | .starting => 14 * weights.length + bucket.bucketMeta.length + 9
  | .filling | .awaiting _ .opened => 14 * weights.length + bucket.bucketMeta.length + 5
  | .placing | .awaiting _ .flushed => 14 * weights.tail.length + 11
  | .awaiting _ .sentDirectly => 14 * weights.tail.length + 5
  | .awaiting _ .finished | .done | .failed => 0

def Request.steps : Request → Nat
  | .commMetadata => 3
  | .bucket metadata => metadata.bucketMeta.length + 4

def receiverSteps : ReceiverPhase → Nat
  | .reading _ unread _ => unread.length + 3
  | .opened | .called _ => 2
  | .starting | .waiting | .left | .failed => 0

def State.steps (state : State) : Nat :=
  senderSteps state.bucket state.weights state.sender + (state.requests.map Request.steps).sum + state.answers +
    receiverSteps state.receiver

theorem State.steps_send (request : Request) (behind : Behind)
    (less : senderSteps state.bucket state.weights (.awaiting request behind) + request.steps <
      senderSteps state.bucket state.weights state.sender) : (state.send request behind).steps < state.steps := by
  simp only [State.steps, State.send, map_append, sum_append, map_singleton, sum_singleton]
  omega

theorem State.Sound.steps_step (sound : state.Sound bucketSize useShm) (taken : Step bucketSize useShm state event next) :
    next.steps < state.steps := by
  cases taken with
  | initBuffer starting =>
    apply State.steps_send
    simp only [starting, senderSteps, Request.steps]
    omega
  | @acknowledged request behind answers awaiting answered =>
    have asks := sound.asks request behind awaiting
    rw [State.steps, State.steps, awaiting, answered]
    cases behind with
    | opened | flushed | finished =>
      simp only [State.resume, senderSteps, Bucket.reset]
      omega
    | sentDirectly =>
      simp only [State.resume, senderSteps, asks.1, length_nil]
      omega
  | flush filling isNext full =>
    apply State.steps_send
    simp only [filling, isNext, senderSteps, Request.steps, length_cons, tail_cons]
    omega
  | @place weight rest bucket isNext ready put =>
    have packed := sound.packed
    rw [isNext] at packed
    have longer : bucket.bucketMeta.length = state.bucket.bucketMeta.length + 1 := by
      rcases putWeight_cases useShm packed.sound weight packed.fresh with ⟨_, next, put', _, _, isMeta, _⟩ | ⟨_, put'⟩
      · rw [put'] at put
        cases put
        rw [isMeta, length_append, length_singleton]
      · rw [put'] at put
        split at put <;> cases put
    simp only [State.steps, isNext, senderSteps, longer]
    rcases ready with placing | ⟨filling, _⟩
    · simp only [placing, (sound.placing placing).1, tail_cons, length_nil]
      omega
    · simp only [filling, length_cons]
      omega
  | @sendDirectly weight rest bucket message isNext ready put =>
    have packed := sound.packed
    rw [isNext] at packed
    obtain ⟨_, rfl⟩ := packed.sendDirectly put
    apply State.steps_send
    rcases ready with placing | ⟨filling, _⟩
    · simp only [placing, isNext, senderSteps, Request.steps, directSendLargeWeight, tail_cons, length_singleton]
      omega
    · simp only [filling, isNext, senderSteps, Request.steps, directSendLargeWeight, tail_cons, length_cons,
        length_nil]
      omega
  | refuse isNext ready put =>
    have packed := sound.packed
    rw [isNext] at packed
    exact absurd put (packed.not_refused (sound.room ready) _ _)
  | finish filling isNext =>
    apply State.steps_send
    simp only [filling, isNext, senderSteps, Request.steps]
    omega
  | receiveBuffer starting first =>
    simp only [State.steps, starting, first, receiverSteps, map_cons, sum_cons, Request.steps]
    omega
  | answerBuffer opened =>
    simp only [State.steps, opened, receiverSteps]
    omega
  | receive waiting first =>
    simp only [State.steps, waiting, first, receiverSteps, map_cons, sum_cons, Request.steps]
    omega
  | read reading =>
    simp only [State.steps, reading, receiverSteps, length_cons]
    omega
  | readFails reading received =>
    obtain ⟨_, found⟩ := sound.read_ok reading
    rw [receiveEntry_fails received] at found
    cases found
  | callback reading =>
    simp only [State.steps, reading, receiverSteps]
    omega
  | answer called =>
    simp only [State.steps, called]
    split
    · simp only [receiverSteps]
      omega
    · simp only [receiverSteps]
      omega

/-! ### Transfers -/

/-- What is asked of the weights: distinct names, sizes that every item size in use divides, and no
weight larger than the bucket where there are no handles. -/
structure Transferable (bucketSize : Nat) (useShm : Bool) (weights : List Weight) : Prop where
  distinct : (weights.map Weight.name).Nodup
  divides : ∀ weight ∈ weights, ∀ other ∈ weights, weight.tensor.dtype.itemsize ∣ other.tensor.nbytes
  small : useShm = true → ∀ weight ∈ weights, weight.tensor.nbytes ≤ bucketSize

theorem Started.sound (started : Started bucketSize weights start) (transferable : Transferable bucketSize useShm weights) :
    start.Sound bucketSize useShm where
  turn := by
    rw [started.sender, started.requests, started.answers, started.receiver]
    exact .starting
  packed := by
    refine ⟨⟨started.buffer, ?_, fun _ => started.offset⟩, ?_, ?_, ?_, ?_, ?_, ?_⟩
    · rw [started.offset]
      exact Nat.zero_le _
    · rw [started.bucketMeta, started.weights]
      exact transferable.distinct
    · rw [started.bucketMeta]
      exact fun _ impossible => nomatch impossible
    · rw [started.bucketMeta]
      exact fun _ impossible => nomatch impossible
    · rw [started.offset]
      exact fun _ _ => Nat.dvd_zero _
    · rw [started.weights]
      exact transferable.divides
    · rw [started.weights]
      exact transferable.small
  placing := by
    rw [started.sender]
    exact fun impossible => nomatch impossible
  asks := by
    rw [started.sender]
    exact fun _ _ impossible => nomatch impossible
  holds := by
    rw [started.receiver]
    exact fun _ _ _ impossible => nomatch impossible

theorem Started.stream (started : Started bucketSize weights start) : start.stream = items weights := by
  simp only [State.stream, started.delivered, started.receiver, started.requests, started.sender, started.weights, unsent,
    started.bucketMeta]
  rfl

theorem Started.logged (started : Started bucketSize weights start) : start.Logged bucketSize [] where
  order := by
    rw [State.unanswered, started.receiver, started.requests]
    rfl
  marks := by
    rw [started.sender]
    exact ⟨0, rfl⟩
  stops := by
    rw [started.receiver]
    simp [answered]
  awaits := by
    rw [started.sender]
    rfl
  inside := fun _ _ impossible => nomatch impossible

structure Kept (bucketSize : Nat) (useShm : Bool) (weights : List Weight) (events : List Event) (state : State) : Prop where
  sound : state.Sound bucketSize useShm
  stream : state.stream = items weights
  logged : state.Logged bucketSize events
  bounded : events.length + state.steps ≤ 14 * weights.length + 9

theorem run_kept (transferable : Transferable bucketSize useShm weights) (started : Started bucketSize weights start)
    (run : Run (Step bucketSize useShm) start events state) : Kept bucketSize useShm weights events state := by
  refine Run.invariant (Kept bucketSize useShm weights) ?_ ?_ run
  · refine ⟨started.sound transferable, started.stream, started.logged, ?_⟩
    simp [State.steps, started.sender, started.weights, started.bucketMeta, started.requests, started.answers, started.receiver,
      senderSteps, receiverSteps]
  · intro events state event next kept taken
    refine ⟨kept.sound.step taken, (kept.sound.stream_step taken).trans kept.stream, kept.logged.step kept.sound taken, ?_⟩
    have fewer := kept.sound.steps_step taken
    have bounded := kept.bounded
    rw [length_append, length_singleton]
    omega

/-- What holds at any time of a transfer. -/
structure Transfers (bucketSize : Nat) (useShm : Bool) (weights : List Weight) (events : List Event) (state : State) : Prop where
  asserts : state.sender ≠ .failed ∧ state.receiver ≠ .failed
  inOrder : state.delivered.flatten <+: items weights
  quiet : ∀ before request middle start stop after,
    events = before ++ .send request :: middle ++ .write start stop :: after → .acknowledged ∈ middle
  inside : ∀ start stop, .write start stop ∈ events → start ≤ stop ∧ stop ≤ bucketSize
  answers : answered events <+: sent events
  lastOne : ∀ before metadata after, sent events = before ++ metadata :: after → metadata.isLast = true → after = []
  stops : state.receiver = .left ↔ ∃ metadata ∈ answered events, metadata.isLast = true
  complete : state.receiver = .left → state.delivered.flatten = items weights
  goesOn : state.sender = .done ∧ state.receiver = .left ∨ ∃ event next, Step bucketSize useShm state event next
  bounded : events.length ≤ 14 * weights.length + 9

theorem write_own {first stop : Nat} (taken : Step bucketSize useShm state (.write first stop) next) :
    state.sender.awaits = false := by
  cases taken with
  | place isNext ready =>
    rcases ready with placing | ⟨filling, _⟩
    · rw [placing]
      rfl
    · rw [filling]
      rfl

theorem State.Sound.all_sent (sound : state.Sound bucketSize useShm) (stopped : state.receiver = .left) :
    state.stream = state.delivered.flatten := by
  have turn := sound.turn
  have asks := sound.asks
  have ended : state.requests = [] ∧ unsent state.bucket state.weights state.sender = [] := by
    generalize isSender : state.sender = sender at turn
    generalize isRequests : state.requests = requests at turn
    generalize isAnswers : state.answers = answers at turn
    generalize isReceiver : state.receiver = receiver at turn
    cases turn with
    | done => exact ⟨rfl, rfl⟩
    | @answered metadata behind =>
      refine ⟨rfl, ?_⟩
      have request := asks _ _ isSender
      have isLast : metadata.isLast = true := by
        rw [stopped] at isReceiver
        split at isReceiver
        · assumption
        · cases isReceiver
      cases behind with
      | finished => rfl
      | opened => cases request
      | flushed =>
        cases request.1
        cases isLast
      | sentDirectly =>
        obtain ⟨_, _, _, _, isRequest⟩ := request
        cases isRequest
        cases isLast
    | starting | filling | placing | opening | opened | openAnswered | sent | reading | called =>
      cases stopped.symm.trans isReceiver
  simp only [State.stream, stopped, ended.1, ended.2, ReceiverPhase.obtained, flatMap_nil, append_nil]

theorem State.Logged.last_one (logged : state.Logged bucketSize events) {before after : List Metadata} {metadata : Metadata}
    (isSent : sent events = before ++ metadata :: after) (last : metadata.isLast = true) : after = [] := by
  obtain ⟨count, marks⟩ := logged.marks
  rw [isSent, map_append, map_cons, last] at marks
  rcases eq_nil_or_concat' after with nothing | ⟨init, final, rfl⟩
  · exact nothing
  · -- the mark before the last one is not set
    have unmarked : true ∈ replicate count false := by
      cases closing : state.sender.closing with
      | true =>
        rw [closing, if_pos rfl, map_append, map_singleton, ← cons_append, ← append_assoc] at marks
        rw [← (append_inj' marks rfl).1]
        simp
      | false =>
        rw [closing, if_neg Bool.false_ne_true, append_nil] at marks
        rw [← marks]
        simp
    simp at unmarked

/-- Whatever the order of the steps of both sides, the weights are delivered once and in order. -/
theorem transfers (transferable : Transferable bucketSize useShm weights) (started : Started bucketSize weights start)
    (run : Run (Step bucketSize useShm) start events state) : Transfers bucketSize useShm weights events state := by
  have kept := run_kept transferable started run
  refine ⟨?_, ?_, ?_, kept.logged.inside, ?_, fun _ _ _ isSent last => kept.logged.last_one isSent last, kept.logged.stops, ?_,
    kept.sound.goes_on, Nat.le_of_add_right_le kept.bounded⟩
  · have turn := kept.sound.turn
    constructor
    · intro failed
      rw [failed] at turn
      generalize state.requests = requests, state.answers = answers, state.receiver = receiver at turn
      cases turn
    · intro failed
      rw [failed] at turn
      generalize isReceiver : ReceiverPhase.failed = receiver at turn
      generalize state.requests = requests, state.answers = answers, state.sender = sender at turn
      cases turn with
      | answered => split at isReceiver <;> cases isReceiver
      | starting | filling | placing | done | opening | opened | openAnswered | sent | reading | called => cases isReceiver
  · rw [← kept.stream, State.stream]
    exact List.prefix_append _ _
  · intro before request middle first stop after isRun
    subst isRun
    obtain ⟨writing, _, earlier, write, _⟩ := run.at_event
    by_contra unacknowledged
    have open' := pending_until unacknowledged before request
    rw [(run_kept transferable started earlier).logged.awaits, write_own write] at open'
    cases open'
  · rw [kept.logged.order]
    exact List.prefix_append _ _
  · intro stopped
    rw [← kept.sound.all_sent stopped, kept.stream]

private def uint8 : DType := ⟨"uint8", 1, Nat.one_pos⟩

private theorem scale_sized : [(7 : UInt8)].length = [1].prod * uint8.itemsize := rfl

private theorem table_sized : [(1 : UInt8), 2, 3].length = [3].prod * uint8.itemsize := rfl

private def scale : Weight := ⟨"scale", ⟨[1], uint8, [7], scale_sized⟩, 0⟩

private def table : Weight := ⟨"table", ⟨[3], uint8, [1, 2, 3], table_sized⟩, 0⟩

private def tableStart : State := ⟨⟨[0, 0], [], 0⟩, [scale, table], .starting, [], 0, .starting, []⟩

private theorem tableStart_started : Started 2 [scale, table] tableStart := ⟨rfl, rfl, rfl, rfl, rfl, rfl, rfl, rfl, rfl⟩

/-- A weight in the bucket, one that is larger than the bucket, and an empty last bucket. -/
theorem transfers_table : ∃ events state, state.receiver = .left ∧ state.delivered.map (List.map Prod.fst) = [["scale"], ["table"], []] ∧
    Transfers 2 false [scale, table] events state := by
  have opened : Run (Step 2 false) tableStart _ _ := .single (.initBuffer rfl)
  have begun := Run.step (Run.step (Run.step opened (.receiveBuffer rfl rfl)) (.answerBuffer rfl)) (.acknowledged rfl rfl)
  have placed := Run.step begun (.place rfl (Or.inr ⟨rfl, fun full => full.2 rfl⟩) rfl)
  have flushed := Run.step placed (.flush rfl rfl ⟨by decide, by decide⟩)
  have read := Run.step (Run.step flushed (.receive rfl rfl)) (.read rfl rfl)
  have answered := Run.step (Run.step (Run.step read (.callback rfl rfl)) (.answer rfl)) (.acknowledged rfl rfl)
  have direct := Run.step answered (.sendDirectly rfl (Or.inl rfl) rfl)
  have read := Run.step (Run.step direct (.receive rfl rfl)) (.read rfl rfl)
  have answered := Run.step (Run.step (Run.step read (.callback rfl rfl)) (.answer rfl)) (.acknowledged rfl rfl)
  have closed := Run.step answered (.finish rfl rfl)
  have final := Run.step (Run.step (Run.step closed (.receive rfl rfl)) (.callback rfl rfl)) (.answer rfl)
  refine ⟨_, _, rfl, rfl, transfers ⟨by decide, by decide, by decide⟩ tableStart_started final⟩

end LLMFusion.BucketedWeightTransfer
