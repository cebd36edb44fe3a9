import LLMFusion.Proofs.NixlRelay
import LLMFusion.Proofs.NcclTransfer
import Mathlib.Algebra.Order.BigOperators.Group.Finset

/-! A chain over NIXL relays all chunks to every receiver, in a bounded number of steps, and no buffer is written
while its bytes are needed. -/

namespace LLMFusion.NixlCheckpointEngine
open CheckpointEngine Runs List
open NcclCheckpointEngine (Buffer Metadata Sender contents placed unplaced sent placed_sent split_sized split_apart)

variable {buckets : List Bucket} {bucketSize receivers : Nat} {turns turns' : Nat → Nat} {state next : State} {event : Event}

/-! ### Termination -/

/-- The steps that the sender takes at most, with `announced` buckets of `total`. -/
def senderRemaining (total announced : Nat) (sender : Sender) : Nat :=
  sender.chunks.length + 2 * (total - announced) + (if sender.broadcast.isSome then 1 else 0) +
    (if sender.phase = .done then 0 else 1)

/-- The steps that a receiver takes at most, of `chunks` to be yielded. A bucket takes five, and some of them are
behind it when it has begun a read or has one that is complete. -/
def receiverRemaining (total chunks turns : Nat) (receiver : Receiver) : Nat :=
  (chunks - receiver.yielded.length) + (5 * (total - turns) - (receiver.begun turns - turns) - (receiver.completed turns - turns)) +
    (if receiver.readable.isSome then 1 else 0) +
    (if receiver.phase = .finished then 0 else 1)

def remaining (buckets : List Bucket) (receivers : Nat) (turns : Nat → Nat) (state : State) : Nat :=
  senderRemaining buckets.length (state.operations 0) state.sender +
    ∑ index ∈ Finset.range receivers,
      receiverRemaining buckets.length buckets.flatten.length (turns index) (state.receivers index)

theorem remaining_sender (same : next.receivers = state.receivers)
    (less : senderRemaining buckets.length (next.operations 0) next.sender <
      senderRemaining buckets.length (state.operations 0) state.sender) :
    remaining buckets receivers turns next < remaining buckets receivers turns state := by
  rw [remaining, remaining, same]
  exact Nat.add_lt_add_right less _

theorem remaining_receiver {index : Nat} (inside : index < receivers) (sender : next.sender = state.sender)
    (operations : next.operations 0 = state.operations 0)
    (others : ∀ other, other ≠ index → next.receivers other = state.receivers other ∧ turns' other = turns other)
    (less : receiverRemaining buckets.length buckets.flatten.length (turns' index) (next.receivers index) <
      receiverRemaining buckets.length buckets.flatten.length (turns index) (state.receivers index)) :
    remaining buckets receivers turns' next < remaining buckets receivers turns state := by
  rw [remaining, remaining, sender, operations]
  apply Nat.add_lt_add_left
  apply Finset.sum_lt_sum
  · intro other _
    by_cases same : other = index
    · subst same
      exact less.le
    · rw [(others other same).1, (others other same).2]
  · exact ⟨index, Finset.mem_range.mpr inside, less⟩

section Receiver
variable {total chunks turn : Nat} {receiver : Receiver} {read : Read}

theorem remaining_begin (waits : receiver.phase = .starting ∨ receiver.phase = .waiting) (idle : receiver.read = none)
    (more : turn < total) (message : Message) :
    receiverRemaining total chunks turn (receiver.begin message) < receiverRemaining total chunks turn receiver := by
  have before : receiver.phase ≠ .finished := by
    rcases waits with starting | waiting
    · simp [starting]
    · simp [waiting]
  have after : (receiver.begin message).phase ≠ .finished := by
    rcases waits with starting | waiting
    · simp [Receiver.begin, starting]
    · simp [Receiver.begin, waiting]
  have begun : (receiver.begin message).begun turn = turn + 1 := rfl
  have completed : (receiver.begin message).completed turn = turn := rfl
  have none_completed : receiver.completed turn = turn := by
    rw [Receiver.completed, idle]
    rfl
  have same : (receiver.begin message).yielded = receiver.yielded ∧ (receiver.begin message).readable = receiver.readable :=
    ⟨rfl, rfl⟩
  rw [receiverRemaining, receiverRemaining, if_neg before, if_neg after, begun, completed, none_completed,
    begun_of_idle turn idle, same.1, same.2]
  omega

theorem remaining_complete (begun : receiver.read = some read) (running : read.done = false) (more : turn < total)
    (bytes : List UInt8) :
    receiverRemaining total chunks turn (receiver.complete read bytes) < receiverRemaining total chunks turn receiver := by
  have begun' : (receiver.complete read bytes).begun turn = turn + 1 := rfl
  have completed' : (receiver.complete read bytes).completed turn = turn + 1 := rfl
  have none_completed := completed_of_read turn begun
  rw [running, if_neg Bool.false_ne_true] at none_completed
  have same : (receiver.complete read bytes).yielded = receiver.yielded ∧
      (receiver.complete read bytes).readable = receiver.readable ∧ (receiver.complete read bytes).phase = receiver.phase :=
    ⟨rfl, rfl, rfl⟩
  rw [receiverRemaining, receiverRemaining, begun', completed', none_completed, begun_of_read turn begun, same.1, same.2.1,
    same.2.2]
  omega

theorem remaining_turn (ready : receiver.phase = .first ∨ receiver.phase = .yielding []) (free : receiver.readable = none)
    (begun : receiver.read = some read) (done : read.done = true) (more : turn < total) (isNext : Bool) :
    receiverRemaining total chunks (turn + 1) (receiver.turn read.metadata isNext) < receiverRemaining total chunks turn receiver := by
  have before : receiver.phase ≠ .finished := by
    rcases ready with first | yielded
    · simp [first]
    · simp [yielded]
  have begun' : (receiver.turn read.metadata isNext).begun (turn + 1) = turn + 1 := rfl
  have completed' : (receiver.turn read.metadata isNext).completed (turn + 1) = turn + 1 := rfl
  have all := completed_of_read turn begun
  rw [done, if_pos rfl] at all
  have one : (if (receiver.turn read.metadata isNext).readable.isSome then 1 else 0) ≤ 1 := by
    split <;> omega
  have some : (if (receiver.turn read.metadata isNext).phase = .finished then 0 else 1) ≤ 1 := by
    split <;> omega
  rw [receiverRemaining, receiverRemaining, if_neg before, free, begun', completed', all, begun_of_read turn begun]
  have yielded : (receiver.turn read.metadata isNext).yielded = receiver.yielded := rfl
  rw [yielded]
  simp only [Option.isSome_none, Bool.false_eq_true, if_false]
  omega

theorem remaining_yield {tensorMeta : TensorMeta} {phase : Phase} (before : receiver.phase ≠ .finished) (left : receiver.yielded.length < chunks) :
    receiverRemaining total chunks turn (receiver.yield tensorMeta phase) < receiverRemaining total chunks turn receiver := by
  have some : (if (receiver.yield tensorMeta phase).phase = .finished then 0 else 1) ≤ 1 := by
    split <;> omega
  have begun : (receiver.yield tensorMeta phase).begun turn = receiver.begun turn := rfl
  have completed : (receiver.yield tensorMeta phase).completed turn = receiver.completed turn := rfl
  have longer : (receiver.yield tensorMeta phase).yielded.length = receiver.yielded.length + 1 := length_append
  have readable : (receiver.yield tensorMeta phase).readable = receiver.readable := rfl
  rw [receiverRemaining, receiverRemaining, if_neg before, begun, completed, longer, readable]
  omega

theorem remaining_notified {buffer : Buffer} (pending : receiver.readable = some buffer) :
    receiverRemaining total chunks turn (receiver.notified true) < receiverRemaining total chunks turn receiver := by
  have begun : (receiver.notified true).begun turn = receiver.begun turn := rfl
  have completed : (receiver.notified true).completed turn = receiver.completed turn := rfl
  rw [receiverRemaining, receiverRemaining, begun, completed, pending]
  simp only [Receiver.notified, if_true, Option.isSome_none, Option.isSome_some, Bool.false_eq_true, if_false]
  omega

theorem remaining_stop (drained : receiver.phase = .draining []) :
    receiverRemaining total chunks turn { receiver with phase := .finished } < receiverRemaining total chunks turn receiver := by
  have before : receiver.phase ≠ .finished := by simp [drained]
  have begun : Receiver.begun { receiver with phase := .finished } turn = receiver.begun turn := rfl
  have completed : Receiver.completed { receiver with phase := .finished } turn = receiver.completed turn := rfl
  rw [receiverRemaining, receiverRemaining, if_neg before, begun, completed]
  simp only [if_true]
  omega

end Receiver

section Sender
variable {sender : Sender} {announced : Nat}

theorem remaining_place (here : SenderAt buckets bucketSize announced sender) {tensorMeta : TensorMeta} {chunk : Chunk}
    {rest : List (TensorMeta × Chunk)} (isNext : sender.chunks = (tensorMeta, chunk) :: rest)
    (ready : sender.phase = .placing ∨ sender.phase = .filling ∧ sender.offset + tensorMeta.chunkSize ≤ bucketSize) :
    senderRemaining buckets.length announced (sender.place bucketSize tensorMeta chunk rest) <
      senderRemaining buckets.length announced sender := by
  have before : sender.phase ≠ .done := by
    rcases ready with placing | ⟨filling, _⟩
    · simp [placing]
    · simp [filling]
  have notFailed := (here.named.place here.sound isNext ready).notFailed
  have many := congrArg length isNext
  rw [length_cons] at many
  obtain ⟨_, ⟨_, failed⟩ | ⟨bytes, _, _, _, written⟩⟩ := Sender.place_cases here.sound isNext ready
  · rw [failed] at notFailed
    exact absurd rfl notFailed
  · rw [written, senderRemaining, senderRemaining, if_neg before, many]
    simp only [reduceCtorEq, if_false]
    omega

theorem remaining_announce {following : Sender} (more : announced < buckets.length) (before : sender.phase ≠ .done)
    (free : sender.broadcast = none) (chunks : following.chunks = sender.chunks) :
    senderRemaining buckets.length (announced + 1) following < senderRemaining buckets.length announced sender := by
  have one : (if following.broadcast.isSome then 1 else 0) ≤ 1 := by
    split <;> omega
  have some : (if following.phase = .done then 0 else 1) ≤ 1 := by
    split <;> omega
  rw [senderRemaining, senderRemaining, if_neg before, free, chunks]
  simp only [Option.isSome_none, Bool.false_eq_true, if_false]
  omega

theorem remaining_sent (last : sender.phase = .last) :
    senderRemaining buckets.length announced { sender with phase := .done } < senderRemaining buckets.length announced sender := by
  have before : sender.phase ≠ .done := by simp [last]
  rw [senderRemaining, senderRemaining, if_neg before, if_pos rfl]
  exact Nat.lt_succ_self _

theorem remaining_waited {operation : Buffer × Metadata} (pending : sender.broadcast = some operation) :
    senderRemaining buckets.length announced (senderNotified sender true) < senderRemaining buckets.length announced sender := by
  rw [senderRemaining, senderRemaining, pending]
  simp only [senderNotified, if_true, Option.isSome_none, Option.isSome_some, Bool.false_eq_true, if_false]
  omega

end Sender

theorem flatten_split (buckets : List Bucket) (turn : Nat) :
    buckets.flatten = (buckets.take turn).flatten ++ (buckets.drop turn).flatten := by
  rw [← flatten_append, take_append_drop]

theorem yielded_less {next : Prop} {turn : Nat} {receiver : Receiver} (here : ReceiverAt buckets next turn receiver)
    {tensorMeta : TensorMeta} {left : List TensorMeta} (some : receiver.left = tensorMeta :: left) :
    receiver.yielded.length < buckets.flatten.length := by
  have yielded := congrArg length here.yielded
  rw [some, length_append, contents, map_cons, length_cons] at yielded
  rw [flatten_split buckets turn, length_append]
  omega

theorem remaining_step (some : 0 < receivers) (holds : At buckets bucketSize receivers turns state)
    (taken : Step bucketSize receivers state event next) :
    remaining buckets receivers (event.advance turns) next < remaining buckets receivers turns state := by
  cases taken with
  | place isNext ready => exact remaining_sender rfl (remaining_place holds.sender isNext ready)
  | flush isNext filling full free =>
    have more := (holds.sender.flush isNext filling full).1.bound
    refine remaining_sender rfl ?_
    simp only [State.announce, Function.update_self]
    exact remaining_announce more (by simp [filling]) free rfl
  | finish isNext filling free =>
    have more := (holds.sender.finish isNext filling).1.bound
    refine remaining_sender rfl ?_
    simp only [State.announce, Function.update_self]
    exact remaining_announce more (by simp [filling]) free rfl
  | sent last free => exact remaining_sender rfl (remaining_sent last)
  | waited awaits pending first =>
    have same := ((holds.link 0 some).notified first).1
    refine remaining_sender rfl ?_
    rw [same, beq_self_eq_true]
    exact remaining_waited pending
  | @message index message messages inside waits first =>
    have idle := (holds.receiver index inside).idle waits
    have turned := ((holds.link index inside).message first idle).1
    have bound := holds.announced_bound inside
    have more : turns index < buckets.length := by omega
    refine remaining_receiver inside rfl rfl (fun other different => ⟨Function.update_of_ne different _ _, rfl⟩) ?_
    simp only [State.setReceiver, Function.update_self]
    exact remaining_begin waits idle more message
  | @copy index read inside begun running =>
    have more := ((holds.receiver index inside).reading read begun).1
    refine remaining_receiver inside rfl rfl (fun other different => ⟨Function.update_of_ne different _ _, rfl⟩) ?_
    simp only [State.setReceiver, Function.update_self]
    exact remaining_complete begun running more _
  | @turn index read inside ready free begun done =>
    have bound := Nat.lt_of_succ_lt inside
    have more := ((holds.receiver index bound).reading read begun).1
    have operations : Function.update state.operations (index + 1) (state.operations (index + 1) + 1) 0 = state.operations 0 :=
      Function.update_of_ne (Nat.succ_ne_zero index).symm _ _
    refine remaining_receiver bound rfl operations
      (fun other different => ⟨Function.update_of_ne different _ _, Function.update_of_ne different _ _⟩) ?_
    simp only [Event.advance, State.announce, State.setReceiver, Function.update_self]
    exact remaining_turn ready free begun done more true
  | @turnLast index read last ready free begun done =>
    have bound : index < receivers := last ▸ Nat.lt_succ_self index
    have more := ((holds.receiver index bound).reading read begun).1
    refine remaining_receiver bound rfl rfl
      (fun other different => ⟨Function.update_of_ne different _ _, Function.update_of_ne different _ _⟩) ?_
    simp only [Event.advance, State.setReceiver, Function.update_self]
    exact remaining_turn ready free begun done more false
  | @yield index tensorMeta left inside yielding =>
    have rest : (state.receivers index).left = tensorMeta :: left := by rw [Receiver.left, yielding]
    refine remaining_receiver inside rfl rfl (fun other different => ⟨Function.update_of_ne different _ _, rfl⟩) ?_
    simp only [State.setReceiver, Function.update_self]
    exact remaining_yield (by simp [yielding]) (yielded_less (holds.receiver index inside) rest)
  | @drain index tensorMeta left inside draining =>
    have rest : (state.receivers index).left = tensorMeta :: left := by rw [Receiver.left, draining]
    refine remaining_receiver inside rfl rfl (fun other different => ⟨Function.update_of_ne different _ _, rfl⟩) ?_
    simp only [State.setReceiver, Function.update_self]
    exact remaining_yield (by simp [draining]) (yielded_less (holds.receiver index inside) rest)
  | @notified index buffer key notifications inside yielded pending first =>
    have bound := ((holds.receiver index inside).offered buffer pending).1
    have same := ((holds.behind bound).notified first).1
    refine remaining_receiver inside rfl rfl (fun other different => ⟨Function.update_of_ne different _ _, rfl⟩) ?_
    simp only [State.setReceiver, Function.update_self, same, beq_self_eq_true]
    exact remaining_notified pending
  | @stop index inside drained free =>
    refine remaining_receiver inside rfl rfl (fun other different => ⟨Function.update_of_ne different _ _, rfl⟩) ?_
    simp only [State.setReceiver, Function.update_self]
    exact remaining_stop drained

/-! ### Writes -/

/-- The next agent may still read a buffer of an agent: a message about it is on its way or its transfer runs. -/
def MayRead (receivers : Nat) (state : State) (agent : Nat) (buffer : Buffer) : Prop :=
  agent < receivers ∧ ((∃ message ∈ state.messages agent, message.remoteDescs = buffer) ∨
    ∃ read, (state.receivers agent).read = some read ∧ read.done = false ∧ read.remoteDescs = buffer)

/-- The chunks that are still to be yielded from a buffer. -/
def Receiver.holds (receiver : Receiver) (buffer : Buffer) : List TensorMeta :=
  if buffer = receiver.sendBuf then receiver.left
  else
    match receiver.read with
    | some read => if read.done then read.metadata.bucketMeta else []
    | none => []

theorem At.may_read (holds : At buckets bucketSize receivers turns state) {agent : Nat} {buffer : Buffer}
    (reads : MayRead receivers state agent buffer) : state.readable agent = some buffer := by
  obtain ⟨inside, ⟨message, member, remote⟩ | ⟨read, begun, running, remote⟩⟩ := reads
  · cases holds.link agent inside with
    | idle _ noMessage =>
      rw [noMessage] at member
      cases member
    | announced offered isMessage =>
      rw [isMessage, mem_singleton] at member
      subst member
      rw [offered, ← remote]
    | reading _ noMessage =>
      rw [noMessage] at member
      cases member
    | copied _ noMessage =>
      rw [noMessage] at member
      cases member
  · rw [← remote]
    exact ((holds.link agent inside).copy begun running).1

theorem memory_kept {index : Nat} {receiver : Receiver} (sender : next.sender = state.sender)
    (changed : next.receivers = Function.update state.receivers index receiver)
    (memory : receiver.memory = (state.receivers index).memory) {agent : Nat} {buffer : Buffer} :
    next.memory agent buffer = state.memory agent buffer := by
  cases agent with
  | zero => rw [State.memory, State.memory, sender]
  | succ other =>
    rw [State.memory, State.memory, changed]
    by_cases same : other = index
    · rw [same, Function.update_self, memory]
    · rw [Function.update_of_ne same]

section
variable (holds : At buckets bucketSize receivers turns state)
  (taken : Step bucketSize receivers state event next)
include holds taken

theorem step_writes (agent : Nat) {buffer : Buffer} (written : next.memory agent buffer ≠ state.memory agent buffer) :
    (agent = 0 ∧ state.readable 0 ≠ some buffer) ∨
      ∃ index read, agent = index + 1 ∧ index < receivers ∧ (state.receivers index).read = some read ∧ read.done = false ∧
        buffer = read.localDescs := by
  cases taken with
  | place isNext ready =>
    cases agent with
    | zero =>
      refine .inl ⟨rfl, fun offered => ?_⟩
      exact written ((holds.sender.place_keeps isNext ready).2 buffer offered)
    | succ index => exact absurd rfl written
  | flush => cases agent <;> exact absurd rfl written
  | finish => cases agent <;> exact absurd rfl written
  | sent => cases agent <;> exact absurd rfl written
  | @waited operation key notifications awaits pending first =>
    refine absurd ?_ written
    cases agent with
    | zero =>
      simp only [State.memory, senderNotified]
      split <;> rfl
    | succ index => rfl
  | message inside waits first =>
    refine (written ?_).elim
    apply memory_kept <;> rfl
  | @copy index read inside begun running =>
    right
    cases agent with
    | zero => exact absurd rfl written
    | succ other =>
      by_cases same : other = index
      · subst same
        refine ⟨other, read, rfl, inside, begun, running, ?_⟩
        by_contra different
        refine written ?_
        simp only [State.memory, State.setReceiver, Function.update_self, Receiver.complete, Function.update_of_ne different]
      · refine absurd ?_ written
        simp only [State.memory, State.setReceiver, Function.update_of_ne same]
  | turn inside ready free begun done =>
    refine (written ?_).elim
    apply memory_kept <;> rfl
  | turnLast last ready free begun done =>
    refine (written ?_).elim
    apply memory_kept <;> rfl
  | yield inside yielding =>
    refine (written ?_).elim
    apply memory_kept <;> rfl
  | drain inside draining =>
    refine (written ?_).elim
    apply memory_kept <;> rfl
  | notified inside yielded pending first =>
    refine (written ?_).elim
    apply memory_kept
    · rfl
    · rfl
    · rw [Receiver.notified]
      split <;> rfl
  | stop inside drained free =>
    refine (written ?_).elim
    apply memory_kept <;> rfl

theorem write_unread {agent : Nat} {buffer : Buffer} (written : next.memory agent buffer ≠ state.memory agent buffer) :
    ¬ MayRead receivers state agent buffer := by
  intro reads
  have offered := holds.may_read reads
  rcases step_writes holds taken _ written with ⟨rfl, other⟩ | ⟨index, read, rfl, inside, begun, running, rfl⟩
  · exact other offered
  · have here := holds.receiver index inside
    have isSend := (here.offered _ offered).2.1
    rw [(here.reading read begun).2.1] at isSend
    exact (state.receivers index).sendBuf.other_ne isSend

theorem write_unheld {index : Nat} {buffer : Buffer} (written : (next.receivers index).memory buffer ≠ (state.receivers index).memory buffer) :
    (state.receivers index).holds buffer = [] := by
  rcases step_writes holds taken (index + 1) written with ⟨none, _⟩ | ⟨other, read, same, inside, begun, running, rfl⟩
  · cases none
  · cases same
    have into := ((holds.receiver index inside).reading read begun).2.1
    have different : read.localDescs ≠ (state.receivers index).sendBuf := by
      rw [into]
      exact (state.receivers index).sendBuf.other_ne
    rw [Receiver.holds, if_neg different, begun]
    simp only [running, Bool.false_eq_true, if_false]

end

/-! ### Runs -/

def Event.turned (index : Nat) : Event → Option Metadata
  | .turn other metadata => if other = index then some metadata else none
  | _ => none

/-- The buckets that a receiver has turned to. -/
def turned (index : Nat) (events : List Event) : List Metadata := events.filterMap (Event.turned index)

def turnsOf (events : List Event) (index : Nat) : Nat := (turned index events).length

theorem turned_append (index : Nat) (events : List Event) (event : Event) :
    turned index (events ++ [event]) = turned index events ++ (event.turned index).toList := by
  rw [turned, filterMap_append, turned]
  cases turn : event.turned index with
  | none => simp [turn]
  | some metadata => simp [turn]

theorem turnsOf_append (events : List Event) (event : Event) : turnsOf (events ++ [event]) = event.advance (turnsOf events) := by
  funext index
  rw [turnsOf, turned_append, length_append]
  cases event with
  | turn other metadata =>
    by_cases same : other = index
    · subst same
      simp [Event.turned, Event.advance, turnsOf]
    · simp [Event.turned, Event.advance, turnsOf, same, Function.update_of_ne (Ne.symm same)]
  | _ => rfl

theorem step_turned (holds : At buckets bucketSize receivers turns state) (taken : Step bucketSize receivers state event next)
    {index : Nat} {metadata : Metadata} (turn : event.turned index = some metadata) : metadata = metadataAt buckets (turns index) := by
  have of_turn {other : Nat} {read : Read} (inside : other < receivers) (begun : (state.receivers other).read = some read)
      (known : Event.turned index (.turn other read.metadata) = some metadata) : metadata = metadataAt buckets (turns index) := by
    rw [Event.turned] at known
    split at known
    · next same =>
      cases known
      rw [← same]
      exact ((holds.receiver other inside).reading read begun).2.2.1
    · cases known
  cases taken with
  | turn inside ready free begun done => exact of_turn (Nat.lt_of_succ_lt inside) begun turn
  | turnLast last ready free begun done => exact of_turn (last ▸ Nat.lt_succ_self _) begun turn
  | _ => cases turn

variable {weights : List Weight} {start : State} {events : List Event}

/-- The buckets of a transfer. -/
def bucketsOf (bucketSize : Nat) (weights : List Weight) : List Bucket :=
  packed bucketSize 0 [] (splitWeightChunks weights bucketSize)

theorem Started.at (positive : 0 < bucketSize) (distinct : (weights.map Weight.name).Nodup)
    (started : Started bucketSize receivers weights start) :
    At (bucketsOf bucketSize weights) bucketSize receivers (fun _ => 0) start := by
  refine ⟨?_, ?_, fun index _ => started.operations (index + 1), ?_⟩
  · refine ⟨⟨started.sendMemory, ?_, ?_, ?_, ?_, ?_, ?_, ?_⟩, ⟨?_, ?_, ?_⟩, ?_, ?_, ?_, ?_⟩
    · simp [started.offset]
    · simp [started.bucketMeta]
    · simp [started.broadcast]
    · simp [started.filling]
    · simp [started.filling]
    · simp [started.broadcast]
    · rw [started.chunks]
      exact split_sized positive weights
    · simp [started.filling]
    · simp [started.bucketMeta]
    · rw [started.chunks]
      exact split_apart positive distinct
    · rw [started.operations]
      exact Nat.zero_le _
    · intro _
      rw [started.operations, started.offset, started.bucketMeta, started.chunks]
      rfl
    · simp [started.filling]
    · simp [started.broadcast]
  · intro index inside
    refine ⟨Nat.zero_le _, ?_, ?_, fun some => absurd some (Nat.lt_irrefl 0), ?_, ?_⟩
    · rw [PhaseAt, started.starting index inside]
      exact ⟨rfl, started.read index inside, started.readable index inside⟩
    · simp [started.read index inside]
    · rw [started.yielded index inside, Receiver.left, started.starting index inside]
      rfl
    · simp [started.readable index inside]
  · intro index inside
    have free : start.readable index = none := by
      cases index with
      | zero => rw [State.readable, started.broadcast, Option.map_none]
      | succ index => exact started.readable index (Nat.lt_of_succ_lt inside)
    have idle := started.read index inside
    have completed : (start.receivers index).completed 0 = 0 := by
      rw [Receiver.completed, idle]
      rfl
    rw [started.messages, started.notifications, started.operations]
    exact .idle free rfl rfl (begun_of_idle 0 idle) completed

theorem run_at (some : 0 < receivers) (positive : 0 < bucketSize) (distinct : (weights.map Weight.name).Nodup)
    (started : Started bucketSize receivers weights start) (run : Run (Step bucketSize receivers) start events state) :
    At (bucketsOf bucketSize weights) bucketSize receivers (turnsOf events) state ∧
      (∀ index, turned index events = (range (turnsOf events index)).map (metadataAt (bucketsOf bucketSize weights))) ∧
      events.length + remaining (bucketsOf bucketSize weights) receivers (turnsOf events) state ≤
        remaining (bucketsOf bucketSize weights) receivers (fun _ => 0) start := by
  refine Run.invariant (fun events state =>
    At (bucketsOf bucketSize weights) bucketSize receivers (turnsOf events) state ∧
      (∀ index, turned index events = (range (turnsOf events index)).map (metadataAt (bucketsOf bucketSize weights))) ∧
      events.length + remaining (bucketsOf bucketSize weights) receivers (turnsOf events) state ≤
        remaining (bucketsOf bucketSize weights) receivers (fun _ => 0) start) ?_ ?_ run
  · exact ⟨started.at positive distinct, fun _ => rfl, (Nat.zero_add _).le⟩
  · intro events state event next held taken
    obtain ⟨holds, listed, bounded⟩ := held
    have less := remaining_step some holds taken
    rw [turnsOf_append]
    refine ⟨holds.step some taken, ?_, ?_⟩
    · intro index
      have more : event.advance (turnsOf events) index = turnsOf (events ++ [event]) index := by rw [turnsOf_append]
      rw [more, turned_append, turnsOf, turned_append]
      cases turn : event.turned index with
      | none =>
        rw [Option.toList_none, append_nil]
        exact listed index
      | some metadata =>
        rw [Option.toList_some, length_append, length_singleton, range_succ, map_append, map_singleton,
          step_turned holds taken turn]
        exact congrArg (· ++ _) (listed index)
    · rw [length_append, length_singleton]
      omega

/-! ### Transfers -/

/-- Whether a receiver is behind its loop. -/
def Receiver.stopped (receiver : Receiver) : Bool :=
  match receiver.phase with
  | .draining _ | .finished => true
  | _ => false

/-- The most steps of a chain, by its receivers, its buckets and its chunks. -/
def mostSteps (receivers buckets chunks : Nat) : Nat := chunks + 2 * buckets + 1 + receivers * (chunks + 5 * buckets + 1)

/-- What holds at any time of a transfer. -/
structure Relays (bucketSize receivers : Nat) (weights : List Weight) (events : List Event) (state : State) : Prop where
  asserts : state.sender.phase ≠ .failed ∧ ∀ index < receivers, (state.receivers index).phase ≠ .failed
  inOrder : ∀ index < receivers, (state.receivers index).yielded.map unplaced <+: sent bucketSize weights
  complete : ∀ index < receivers, (state.receivers index).phase = .finished →
    (state.receivers index).yielded.map unplaced = sent bucketSize weights
  unread : ∀ event next agent buffer, Step bucketSize receivers state event next →
    next.memory agent buffer ≠ state.memory agent buffer → ¬ MayRead receivers state agent buffer
  unheld : ∀ event next index buffer, Step bucketSize receivers state event next →
    (next.receivers index).memory buffer ≠ (state.receivers index).memory buffer → (state.receivers index).holds buffer = []
  stops : ∀ index < receivers, (state.receivers index).stopped = true ↔ ∃ metadata ∈ turned index events, metadata.isLast = true
  lastOne : ∀ index < receivers, ∀ before metadata after, turned index events = before ++ metadata :: after → metadata.isLast = true → after = []
  senderStops : state.sender.phase = .last ∨ state.sender.phase = .done → ∀ event next,
    Step bucketSize receivers state event next → next.operations 0 = state.operations 0
  goesOn : (state.sender.phase = .done ∧ ∀ index < receivers, (state.receivers index).phase = .finished) ∨
    ∃ event next, Step bucketSize receivers state event next
  bounded : events.length ≤ mostSteps receivers (bucketsOf bucketSize weights).length (sent bucketSize weights).length

theorem bucketsOf_flatten (bucketSize : Nat) (weights : List Weight) :
    (bucketsOf bucketSize weights).flatten.map unplaced = sent bucketSize weights := by
  rw [bucketsOf, packed_flatten, nil_append]
  exact placed_sent bucketSize weights

theorem Started.remaining (started : Started bucketSize receivers weights start) :
    remaining (bucketsOf bucketSize weights) receivers (fun _ => 0) start =
      mostSteps receivers (bucketsOf bucketSize weights).length (sent bucketSize weights).length := by
  have chunks : start.sender.chunks.length = (sent bucketSize weights).length := by
    rw [started.chunks, sent, length_map]
  have yielded : (bucketsOf bucketSize weights).flatten.length = (sent bucketSize weights).length := by
    rw [← bucketsOf_flatten, length_map]
  have each : ∀ index ∈ Finset.range receivers,
      receiverRemaining (bucketsOf bucketSize weights).length (bucketsOf bucketSize weights).flatten.length 0 (start.receivers index) =
        (sent bucketSize weights).length + 5 * (bucketsOf bucketSize weights).length + 1 := by
    intro index member
    have inside := Finset.mem_range.mp member
    have idle := started.read index inside
    rw [receiverRemaining, started.yielded index inside, started.readable index inside, started.starting index inside,
      begun_of_idle 0 idle, Receiver.completed, idle, yielded]
    simp
  rw [NixlCheckpointEngine.remaining, Finset.sum_const_nat each, Finset.card_range, senderRemaining, started.operations, started.broadcast, started.filling, chunks, mostSteps]
  simp

theorem stopped_iff {total turn : Nat} {next : Prop} {receiver : Receiver} (here : ReceiverAt buckets next turn receiver)
    (same : buckets.length = total) (some : 0 < total) : receiver.stopped = true ↔ turn = total := by
  have isAt := here.phase
  rw [PhaseAt, same] at isAt
  cases phase : receiver.phase with
  | starting =>
    rw [phase] at isAt
    exact iff_of_false (by simp [Receiver.stopped, phase]) (by omega)
  | first =>
    rw [phase] at isAt
    exact iff_of_false (by simp [Receiver.stopped, phase]) (by omega)
  | waiting =>
    rw [phase] at isAt
    exact iff_of_false (by simp [Receiver.stopped, phase]) (by omega)
  | yielding left =>
    rw [phase] at isAt
    obtain ⟨read, begun⟩ := Option.ne_none_iff_exists'.mp isAt.2
    have more := (here.reading read begun).1
    exact iff_of_false (by simp [Receiver.stopped, phase]) (by omega)
  | draining left =>
    rw [phase] at isAt
    exact iff_of_true (by simp [Receiver.stopped, phase]) isAt.2.1
  | finished =>
    rw [phase] at isAt
    exact iff_of_true (by simp [Receiver.stopped, phase]) isAt.2.1
  | failed =>
    rw [phase] at isAt
    exact isAt.elim

theorem marked_iff {number : Nat} : (metadataAt buckets number).isLast = true ↔ number + 1 = buckets.length := decide_eq_true_iff

theorem sender_stops (ended : state.sender.phase = .last ∨ state.sender.phase = .done) (event : Event) (next : State)
    (taken : Step bucketSize receivers state event next) : next.operations 0 = state.operations 0 := by
  have notFilling : state.sender.phase ≠ .filling := by
    rcases ended with last | done
    · simp [last]
    · simp [done]
  cases taken with
  | flush isNext filling full free => exact absurd filling notFilling
  | finish isNext filling free => exact absurd filling notFilling
  | @turn index read inside ready free begun done =>
    have same : Function.update state.operations (index + 1) (state.operations (index + 1) + 1) 0 = state.operations 0 :=
      Function.update_of_ne (Nat.succ_ne_zero index).symm _ _
    exact same
  | _ => rfl

/-- A chain of a sender and receivers relays the weights, whatever the order of the steps of the agents and of the
transfers. -/
theorem chain_relays (some : 0 < receivers) (positive : 0 < bucketSize) (distinct : (weights.map Weight.name).Nodup)
    (started : Started bucketSize receivers weights start) (run : Run (Step bucketSize receivers) start events state) :
    Relays bucketSize receivers weights events state := by
  obtain ⟨holds, listed, bounded⟩ := run_at some positive distinct started run
  have nonempty : bucketsOf bucketSize weights ≠ [] := packed_ne_nil _ _ _ _
  have total : 0 < (bucketsOf bucketSize weights).length := List.length_pos_iff.mpr nonempty
  refine ⟨⟨holds.sender.named.notFailed, ?_⟩, ?_, ?_, fun event next agent buffer taken written => write_unread holds taken written,
    fun event next index buffer taken written => write_unheld holds taken written, ?_, ?_, ?_, holds.goes_on some nonempty, ?_⟩
  · intro index inside failed
    have isAt := (holds.receiver index inside).phase
    rw [PhaseAt, failed] at isAt
    exact isAt
  · intro index inside
    have yielded : (state.receivers index).yielded <+: ((bucketsOf bucketSize weights).take (turnsOf events index)).flatten := by
      rw [← (holds.receiver index inside).yielded]
      exact List.prefix_append _ _
    have taken : ((bucketsOf bucketSize weights).take (turnsOf events index)).flatten <+: (bucketsOf bucketSize weights).flatten := by
      rw [flatten_split (bucketsOf bucketSize weights) (turnsOf events index)]
      exact List.prefix_append _ _
    rw [← bucketsOf_flatten]
    exact (yielded.trans taken).map unplaced
  · intro index inside finished
    have all := (holds.finished_turns inside finished).1
    have yielded := (holds.receiver index inside).yielded
    rw [Receiver.left, finished, all, List.take_length] at yielded
    have exact_yielded : (state.receivers index).yielded = (bucketsOf bucketSize weights).flatten :=
      (List.append_nil _).symm.trans yielded
    rw [exact_yielded, bucketsOf_flatten]
  · intro index inside
    have here := holds.receiver index inside
    rw [stopped_iff here rfl total, listed index]
    constructor
    · intro all
      refine ⟨_, List.mem_map_of_mem (List.mem_range.mpr (Nat.sub_lt (all ▸ total) Nat.one_pos)), marked_iff.mpr ?_⟩
      omega
    · intro marked
      obtain ⟨metadata, member, last⟩ := marked
      obtain ⟨number, below, rfl⟩ := List.mem_map.mp member
      have number_last := marked_iff.mp last
      have bound := here.bound
      have below := List.mem_range.mp below
      omega
  · intro index inside before metadata after split last
    rw [listed index] at split
    have size := congrArg List.length split
    rw [List.length_map, List.length_range, List.length_append, List.length_cons] at size
    have here := (holds.receiver index inside).bound
    have found : ((List.range (turnsOf events index)).map (metadataAt (bucketsOf bucketSize weights)))[before.length]? =
        Option.some metadata := by
      rw [split, List.getElem?_append_right (Nat.le_refl _), Nat.sub_self]
      rfl
    rw [List.getElem?_map, List.getElem?_range (by omega), Option.map_some] at found
    cases found
    have number_last := marked_iff.mp last
    exact List.length_eq_zero_iff.mp (by omega)
  · exact sender_stops
  · rw [started.remaining] at bounded
    omega

private def byte : Weight := ⟨"byte", ⟨[1], ⟨"uint8", 1, Nat.one_pos⟩, [8], rfl⟩, 0⟩

private def byteStart : State where
  sender := ⟨fun _ => [0, 0], .send, none, [], 0, splitWeightChunks [byte] 2, .filling⟩
  receivers := fun _ => ⟨fun _ => [0, 0], .send, none, none, ⟨[], false⟩, .starting, []⟩
  messages := fun _ => []
  notifications := fun _ => []
  operations := fun _ => 0

private theorem byteStart_started : Started 2 2 [byte] byteStart :=
  ⟨fun _ => rfl, rfl, rfl, rfl, rfl, rfl, rfl, fun _ _ _ => rfl, fun _ _ => rfl, fun _ _ => rfl, fun _ _ => rfl, fun _ _ => rfl,
    fun _ _ => rfl, fun _ => rfl, fun _ => rfl, fun _ => rfl⟩

theorem chain_relays_byte : ∃ events state,
    (state.receivers 1).phase = .finished ∧ (state.receivers 1).yielded.map Prod.snd = [[8]] ∧ Relays 2 2 [byte] events state := by
  have placed : Run (Step 2 2) byteStart _ _ := .single (.place rfl (Or.inr ⟨rfl, by decide⟩))
  have announced := Run.step (Run.step placed (.finish rfl rfl rfl)) (.message Nat.zero_lt_two (Or.inl rfl) rfl)
  have turned := Run.step (Run.step announced (.copy Nat.zero_lt_two rfl rfl)) (.turn Nat.one_lt_two (Or.inl rfl) rfl rfl rfl)
  have relayed := Run.step (Run.step turned (.message Nat.one_lt_two (Or.inl rfl) rfl)) (.copy Nat.one_lt_two rfl rfl)
  have last := Run.step relayed (.turnLast rfl (Or.inl rfl) rfl rfl rfl)
  have run := Run.step (Run.step last (.drain Nat.one_lt_two rfl)) (.stop Nat.one_lt_two rfl rfl)
  exact ⟨_, _, rfl, rfl, chain_relays (by decide) (by decide) (by decide) byteStart_started run⟩

end LLMFusion.NixlCheckpointEngine
