import LLMFusion.Proofs.NixlCheckpointEngine

/-! What every step of a chain over NIXL keeps, and that a chain goes on until all agents are done: the last receiver
waits for none behind it, so no agent waits for a notification forever; and the sender waits for none before it. -/

namespace LLMFusion.NixlCheckpointEngine
open CheckpointEngine
open NcclCheckpointEngine (Buffer Metadata Sender)

/-! ### The chain -/

def Event.advance (event : Event) (turns : Nat → Nat) : Nat → Nat :=
  match event with
  | .turn index _ => Function.update turns index (turns index + 1)
  | _ => turns

structure At (buckets : List Bucket) (bucketSize receivers : Nat) (turns : Nat → Nat) (state : State) : Prop where
  sender : SenderAt buckets bucketSize (state.operations 0) state.sender
  receiver : ∀ index < receivers, ReceiverAt buckets (index + 1 < receivers) (turns index) (state.receivers index)
  operations : ∀ index, index + 1 < receivers → state.operations (index + 1) = turns index
  link : ∀ index < receivers, LinkAt buckets (state.memory index) (state.readable index) (state.operations index)
    (state.messages index) (state.notifications index) (turns index) (state.receivers index)

variable {buckets : List Bucket} {bucketSize receivers : Nat} {turns turns' : Nat → Nat} {state next : State} {event : Event}

section
variable (holds : At buckets bucketSize receivers turns state)
include holds

theorem At.sender_step (same : next.receivers = state.receivers)
    (others : ∀ agent, agent ≠ 0 → next.messages agent = state.messages agent ∧
      next.notifications agent = state.notifications agent ∧ next.operations agent = state.operations agent)
    (sender : SenderAt buckets bucketSize (next.operations 0) next.sender)
    (link : 0 < receivers → LinkAt buckets next.sender.memory (next.sender.broadcast.map Prod.fst) (next.operations 0)
      (next.messages 0) (next.notifications 0) (turns 0) (state.receivers 0)) :
    At buckets bucketSize receivers turns next := by
  refine ⟨sender, ?_, ?_, ?_⟩
  · intro index inside
    rw [same]
    exact holds.receiver index inside
  · intro index inside
    rw [(others (index + 1) (Nat.succ_ne_zero index)).2.2]
    exact holds.operations index inside
  · intro index inside
    cases index with
    | zero =>
      rw [same]
      exact link inside
    | succ index =>
      obtain ⟨messages, notifications, operations⟩ := others (index + 1) (Nat.succ_ne_zero index)
      rw [messages, notifications, operations, State.memory, State.readable, same]
      exact holds.link (index + 1) inside

theorem At.receiver_step {index : Nat} (inside : index < receivers)
    (sender : next.sender = state.sender) (others : ∀ other, other ≠ index → next.receivers other = state.receivers other)
    (turned : ∀ other, other ≠ index → turns' other = turns other)
    (links : ∀ agent, agent ≠ index → agent ≠ index + 1 → next.messages agent = state.messages agent ∧
      next.notifications agent = state.notifications agent)
    (operations : ∀ agent, agent ≠ index + 1 → next.operations agent = state.operations agent)
    (receiver : ReceiverAt buckets (index + 1 < receivers) (turns' index) (next.receivers index))
    (announced : index + 1 < receivers → next.operations (index + 1) = turns' index)
    (link : LinkAt buckets (state.memory index) (state.readable index) (state.operations index) (next.messages index)
      (next.notifications index) (turns' index) (next.receivers index))
    (behind : index + 1 < receivers → LinkAt buckets (next.receivers index).memory (next.receivers index).readable
      (next.operations (index + 1)) (next.messages (index + 1)) (next.notifications (index + 1)) (turns (index + 1))
      (state.receivers (index + 1))) : At buckets bucketSize receivers turns' next := by
  refine ⟨?_, ?_, ?_, ?_⟩
  · rw [sender, operations 0 (Nat.succ_ne_zero index).symm]
    exact holds.sender
  · intro other bound
    by_cases same : other = index
    · subst same
      exact receiver
    · rw [others other same, turned other same]
      exact holds.receiver other bound
  · intro other bound
    by_cases same : other = index
    · subst same
      exact announced bound
    · rw [operations (other + 1) (by omega), turned other same]
      exact holds.operations other bound
  · intro other bound
    by_cases same : other = index
    · subst same
      have memory : next.memory other = state.memory other := by
        cases other with
        | zero => rw [State.memory, State.memory, sender]
        | succ other => rw [State.memory, State.memory, others other (by omega)]
      have readable : next.readable other = state.readable other := by
        cases other with
        | zero => rw [State.readable, State.readable, sender]
        | succ other => rw [State.readable, State.readable, others other (by omega)]
      rw [memory, readable, operations other (by omega)]
      exact link
    · by_cases follows : other = index + 1
      · subst follows
        rw [State.memory, State.readable, others (index + 1) same, turned (index + 1) same]
        exact behind bound
      · obtain ⟨messages, notifications⟩ := links other same follows
        have linked := holds.link other bound
        rw [messages, notifications, operations other follows, others other same, turned other same]
        cases other with
        | zero =>
          rw [State.memory, State.readable, sender]
          exact linked
        | succ other =>
          rw [State.memory, State.readable, others other (by omega)]
          exact linked

theorem At.announced_bound {index : Nat} (inside : index < receivers) : state.operations index ≤ buckets.length := by
  cases index with
  | zero => exact holds.sender.bound
  | succ index =>
    rw [holds.operations index inside]
    exact (holds.receiver index (Nat.lt_of_succ_lt inside)).bound

theorem At.sender_announce {sender : Sender} {metadata : Metadata}
    (free : state.sender.broadcast = none) (isPending : sender.broadcast = some (state.sender.sendBuf, metadata))
    (here : SenderAt buckets bucketSize (state.operations 0 + 1) sender)
    (isMetadata : metadata = metadataAt buckets (state.operations 0))
    (bucket : Holds buckets sender.memory state.sender.sendBuf (state.operations 0)) :
    At buckets bucketSize receivers turns
      (State.announce { state with sender := sender } 0 state.sender.sendBuf metadata) := by
  refine holds.sender_step rfl ?_ ?_ ?_
  · intro agent other
    exact ⟨Function.update_of_ne other _ _, rfl, Function.update_of_ne other _ _⟩
  · rw [State.announce]
    simp only [Function.update_self]
    exact here
  · intro inside
    have linked := holds.link 0 inside
    rw [State.readable, free] at linked
    simp only [State.announce, Function.update_self, isPending, isMetadata]
    exact LinkAt.announce linked bucket

theorem At.behind {index : Nat} (inside : index + 1 < receivers) :
    LinkAt buckets (state.receivers index).memory (state.receivers index).readable (state.operations (index + 1))
      (state.messages (index + 1)) (state.notifications (index + 1)) (turns (index + 1)) (state.receivers (index + 1)) :=
  holds.link (index + 1) inside

theorem At.receiver_alone {index : Nat} (inside : index < receivers)
    {receiver : Receiver} (here : ReceiverAt buckets (index + 1 < receivers) (turns index) receiver)
    (read : receiver.read = (state.receivers index).read) (memory : receiver.memory = (state.receivers index).memory)
    (readable : receiver.readable = (state.receivers index).readable) :
    At buckets bucketSize receivers turns (state.setReceiver index receiver) := by
  have current : (state.setReceiver index receiver).receivers index = receiver := Function.update_self _ _ _
  refine holds.receiver_step inside rfl (fun other different => Function.update_of_ne different _ _) (fun _ _ => rfl)
    (fun _ _ _ => ⟨rfl, rfl⟩) (fun _ _ => rfl) ?_ (holds.operations index) ?_ ?_
  · rw [current]
    exact here
  · rw [current]
    exact (holds.link index inside).keep read
  · intro bound
    rw [current, memory, readable]
    exact holds.behind bound

theorem At.step_message {index : Nat} {message : Message} {messages : List Message} (inside : index < receivers)
    (waits : (state.receivers index).phase = .starting ∨ (state.receivers index).phase = .waiting)
    (first : state.messages index = message :: messages) : At buckets bucketSize receivers turns
      (State.setReceiver { state with messages := Function.update state.messages index messages } index
        ((state.receivers index).begin message)) := by
  have idle := (holds.receiver index inside).idle waits
  obtain ⟨turned, metadata, linked⟩ := (holds.link index inside).message first idle
  have more : turns index < buckets.length := by
    have bound := holds.announced_bound inside
    omega
  refine holds.receiver_step inside rfl (fun other different => Function.update_of_ne different _ _) (fun _ _ => rfl)
    ?_ (fun _ _ => rfl) ?_ (holds.operations index) ?_ ?_
  · exact fun agent different _ => ⟨Function.update_of_ne different _ _, rfl⟩
  · simp only [State.setReceiver, Function.update_self]
    exact (holds.receiver index inside).begin waits more metadata
  · simp only [State.setReceiver, Function.update_self]
    exact linked
  · intro bound
    simp only [State.setReceiver, Function.update_self, Function.update_of_ne (Nat.succ_ne_self index)]
    exact holds.behind bound

theorem At.step_copy {index : Nat} {read : Read} (inside : index < receivers)
    (begun : (state.receivers index).read = some read) (running : read.done = false) :
    At buckets bucketSize receivers turns (State.setReceiver { state with
          notifications := Function.update state.notifications index (state.notifications index ++ [read.notifyKey]) }
        index ((state.receivers index).complete read (state.memory index read.remoteDescs))) := by
  obtain ⟨_, bucket, linked⟩ := (holds.link index inside).copy begun running
  have here := holds.receiver index inside
  refine holds.receiver_step inside rfl (fun other different => Function.update_of_ne different _ _) (fun _ _ => rfl)
    ?_ (fun _ _ => rfl) ?_ (holds.operations index) ?_ ?_
  · exact fun agent different _ => ⟨rfl, Function.update_of_ne different _ _⟩
  · simp only [State.setReceiver, Function.update_self]
    exact here.complete begun bucket
  · simp only [State.setReceiver, Function.update_self]
    exact linked _
  · intro bound
    simp only [State.setReceiver, Function.update_self, Function.update_of_ne (Nat.succ_ne_self index)]
    refine (holds.behind bound).write ?_
    intro buffer offered
    have isSend := (here.offered buffer offered).2.1
    have into := (here.reading read begun).2.1
    have apart : buffer ≠ read.localDescs := by
      rw [isSend, into]
      exact (state.receivers index).sendBuf.other_ne.symm
    exact Function.update_of_ne apart _ _

theorem At.step_turn {index : Nat} {read : Read} (inside : index + 1 < receivers)
    (ready : (state.receivers index).phase = .first ∨ (state.receivers index).phase = .yielding [])
    (free : (state.receivers index).readable = none) (begun : (state.receivers index).read = some read)
    (done : read.done = true) : At buckets bucketSize receivers (Function.update turns index (turns index + 1))
      (State.announce (state.setReceiver index ((state.receivers index).turn read.metadata true)) (index + 1)
        (state.receivers index).sendBuf.other read.metadata) := by
  have bound := Nat.lt_of_succ_lt inside
  obtain ⟨here, metadata, bucket⟩ := (holds.receiver index bound).turn ready begun done (fun _ => inside)
  have announced := holds.operations index inside
  refine holds.receiver_step bound rfl (fun other different => Function.update_of_ne different _ _)
    (fun other different => Function.update_of_ne different _ _) ?_ ?_ ?_ ?_ ?_ ?_
  · exact fun agent _ different => ⟨Function.update_of_ne different _ _, rfl⟩
  · exact fun agent different => Function.update_of_ne different _ _
  · simp only [State.announce, State.setReceiver, Function.update_self]
    exact here
  · intro _
    simp only [State.announce, State.setReceiver, Function.update_self, announced]
  · simp only [State.announce, State.setReceiver, Function.update_self, Function.update_of_ne (Nat.succ_ne_self index).symm]
    exact (holds.link index bound).turn begun done _ _
  · intro _
    have linked := holds.behind inside
    rw [free] at linked
    simp only [State.announce, State.setReceiver, Function.update_self]
    rw [← announced] at bucket
    rw [metadata, ← announced]
    exact linked.announce bucket

theorem At.step_turn_last {index : Nat} {read : Read} (last : index + 1 = receivers)
    (ready : (state.receivers index).phase = .first ∨ (state.receivers index).phase = .yielding [])
    (begun : (state.receivers index).read = some read) (done : read.done = true) :
    At buckets bucketSize receivers (Function.update turns index (turns index + 1))
      (state.setReceiver index ((state.receivers index).turn read.metadata false)) := by
  have bound : index < receivers := last ▸ Nat.lt_succ_self index
  have here := ((holds.receiver index bound).turn ready begun done (fun isNext => (Bool.false_ne_true isNext).elim)).1
  refine holds.receiver_step bound rfl (fun other different => Function.update_of_ne different _ _)
    (fun other different => Function.update_of_ne different _ _) (fun _ _ _ => ⟨rfl, rfl⟩) (fun _ _ => rfl) ?_
    (fun inside => absurd last (Nat.ne_of_lt inside)) ?_ (fun inside => absurd last (Nat.ne_of_lt inside))
  · simp only [State.setReceiver, Function.update_self]
    exact here
  · simp only [State.setReceiver, Function.update_self]
    exact (holds.link index bound).turn begun done _ _

theorem At.step_notified {index key : Nat} {buffer : Buffer} {notifications : List Nat} (inside : index < receivers)
    (yielded : (state.receivers index).phase = .yielding [] ∨ (state.receivers index).phase = .draining [])
    (pending : (state.receivers index).readable = some buffer)
    (first : state.notifications (index + 1) = key :: notifications) : At buckets bucketSize receivers turns
      (State.setReceiver { state with notifications := Function.update state.notifications (index + 1) notifications }
        index ((state.receivers index).notified (state.operations (index + 1) == key))) := by
  have here := holds.receiver index inside
  have bound := (here.offered buffer pending).1
  obtain ⟨same, linked⟩ := (holds.behind bound).notified first
  rw [same, beq_self_eq_true]
  refine holds.receiver_step inside rfl (fun other different => Function.update_of_ne different _ _) (fun _ _ => rfl)
    ?_ (fun _ _ => rfl) ?_ (holds.operations index) ?_ ?_
  · exact fun agent _ different => ⟨rfl, Function.update_of_ne different _ _⟩
  · simp only [State.setReceiver, Function.update_self]
    exact here.notified yielded
  · simp only [State.setReceiver, Function.update_self, Function.update_of_ne (Nat.succ_ne_self index).symm]
    exact (holds.link index inside).keep rfl
  · intro _
    simp only [State.setReceiver, Function.update_self]
    exact linked

theorem At.step_waited {key : Nat} {notifications : List Nat}
    (some : 0 < receivers) (first : state.notifications 0 = key :: notifications) :
    At buckets bucketSize receivers turns { state with
      sender := senderNotified state.sender (state.operations 0 == key)
      notifications := Function.update state.notifications 0 notifications } := by
  obtain ⟨same, linked⟩ := (holds.link 0 some).notified first
  rw [same, beq_self_eq_true]
  refine holds.sender_step rfl ?_ holds.sender.waited ?_
  · exact fun agent different => ⟨rfl, Function.update_of_ne different _ _, rfl⟩
  · intro _
    simp only [Function.update_self]
    exact linked

end

theorem At.step (some : 0 < receivers) (holds : At buckets bucketSize receivers turns state)
    (taken : Step bucketSize receivers state event next) : At buckets bucketSize receivers (event.advance turns) next := by
  cases taken with
  | place isNext ready =>
    obtain ⟨kept, unwritten⟩ := holds.sender.place_keeps isNext ready
    refine holds.sender_step rfl (fun _ _ => ⟨rfl, rfl, rfl⟩) (holds.sender.place isNext ready) ?_
    intro inside
    rw [kept]
    exact (holds.link 0 inside).write unwritten
  | flush isNext filling full free =>
    obtain ⟨sender, metadata, bucket⟩ := holds.sender.flush isNext filling full
    exact holds.sender_announce free rfl sender metadata bucket
  | finish isNext filling free =>
    obtain ⟨sender, metadata, bucket⟩ := holds.sender.finish isNext filling
    exact holds.sender_announce free rfl sender metadata bucket
  | sent last free =>
    exact holds.sender_step rfl (fun _ _ => ⟨rfl, rfl, rfl⟩) (holds.sender.sent last free) (holds.link 0)
  | waited awaits pending first => exact holds.step_waited some first
  | message inside waits first => exact holds.step_message inside waits first
  | copy inside begun running => exact holds.step_copy inside begun running
  | turn inside ready free begun done => exact holds.step_turn inside ready free begun done
  | turnLast last ready free begun done => exact holds.step_turn_last last ready begun done
  | yield inside yielding =>
    exact holds.receiver_alone inside ((holds.receiver _ inside).yield (.inl ⟨yielding, rfl⟩)) rfl rfl rfl
  | drain inside draining =>
    exact holds.receiver_alone inside ((holds.receiver _ inside).yield (.inr ⟨draining, rfl⟩)) rfl rfl rfl
  | notified inside yielded pending first => exact holds.step_notified inside yielded pending first
  | stop inside drained free => exact holds.receiver_alone inside ((holds.receiver _ inside).stop drained free) rfl rfl rfl

/-! ### Progress -/

def Blocked (receivers : Nat) (state : State) (agent : Nat) : Prop :=
  agent < receivers ∧ (∃ buffer, state.readable agent = some buffer) ∧ state.notifications agent = []

section
variable (holds : At buckets bucketSize receivers turns state) {index : Nat} (inside : index < receivers)
include holds index inside

theorem At.receiver_goes_on : ((state.receivers index).phase = .starting ∨ (state.receivers index).phase = .waiting) ∨
      (state.receivers index).phase = .finished ∨ Blocked receivers state (index + 1) ∨
      ∃ event next, Step bucketSize receivers state event next := by
  have here := holds.receiver index inside
  have isAt := here.phase
  have turns_on (ready : (state.receivers index).phase = .first ∨ (state.receivers index).phase = .yielding [])
      (free : (state.receivers index).readable = none) (reads : (state.receivers index).read ≠ none) :
      ∃ event next, Step bucketSize receivers state event next := by
    obtain ⟨read, begun⟩ := Option.ne_none_iff_exists'.mp reads
    cases done : read.done with
    | false => exact ⟨_, _, .copy inside begun done⟩
    | true =>
      rcases Nat.lt_or_ge (index + 1) receivers with more | last
      · exact ⟨_, _, .turn more ready free begun done⟩
      · exact ⟨_, _, .turnLast (Nat.le_antisymm inside last) ready free begun done⟩
  have awaits (yielded : (state.receivers index).phase = .yielding [] ∨ (state.receivers index).phase = .draining [])
      {buffer : Buffer} (pending : (state.receivers index).readable = some buffer) :
      Blocked receivers state (index + 1) ∨ ∃ event next, Step bucketSize receivers state event next := by
    cases first : state.notifications (index + 1) with
    | nil => exact .inl ⟨(here.offered buffer pending).1, ⟨buffer, pending⟩, first⟩
    | cons key notifications => exact .inr ⟨_, _, .notified inside yielded pending first⟩
  rw [PhaseAt] at isAt
  cases phase : (state.receivers index).phase with
  | starting => exact .inl (.inl rfl)
  | waiting => exact .inl (.inr rfl)
  | finished => exact .inr (.inl rfl)
  | failed =>
    rw [phase] at isAt
    exact isAt.elim
  | first =>
    rw [phase] at isAt
    exact .inr (.inr (.inr (turns_on (.inl phase) isAt.2.2 isAt.2.1)))
  | yielding left =>
    rw [phase] at isAt
    cases left with
    | cons tensorMeta left => exact .inr (.inr (.inr ⟨_, _, .yield inside phase⟩))
    | nil =>
      cases pending : (state.receivers index).readable with
      | none => exact .inr (.inr (.inr (turns_on (.inr phase) pending isAt.2)))
      | some buffer => exact .inr (.inr (awaits (.inl phase) pending))
  | draining left =>
    cases left with
    | cons tensorMeta left => exact .inr (.inr (.inr ⟨_, _, .drain inside phase⟩))
    | nil =>
      cases pending : (state.receivers index).readable with
      | none => exact .inr (.inr (.inr ⟨_, _, .stop inside phase pending⟩))
      | some buffer => exact .inr (.inr (awaits (.inr phase) pending))

/-- A receiver that waits for a message gets it when the agent before has announced more buckets. -/
theorem At.message_goes_on (waits : (state.receivers index).phase = .starting ∨ (state.receivers index).phase = .waiting)
    (more : turns index < state.operations index) : ∃ event next, Step bucketSize receivers state event next := by
  have idle := (holds.receiver index inside).idle waits
  have none_begun := begun_of_idle (turns index) idle
  cases holds.link index inside with
  | idle _ _ _ begun => omega
  | announced _ first => exact ⟨_, _, .message inside waits first⟩
  | reading _ _ _ _ begun =>
    rw [idle] at begun
    cases begun
  | copied _ _ _ begun => omega

theorem At.finished_turns (finished : (state.receivers index).phase = .finished) :
    turns index = buckets.length ∧ (state.receivers index).read = none := by
  have isAt := (holds.receiver index inside).phase
  rw [PhaseAt, finished] at isAt
  exact ⟨isAt.2.1, isAt.2.2.1⟩

end

/-- The last receiver waits for none behind it, so that some agent behind a blocked one takes a step. -/
theorem At.blocked_goes_on (holds : At buckets bucketSize receivers turns state) {agent : Nat} (blocked : Blocked receivers state agent) :
    ∃ event next, Step bucketSize receivers state event next := by
  generalize rest : receivers - agent = behind
  induction behind generalizing agent with
  | zero =>
    have inside := blocked.1
    omega
  | succ behind ih =>
    obtain ⟨inside, ⟨buffer, offered⟩, waits⟩ := blocked
    cases holds.link agent inside with
    | idle free =>
      rw [offered] at free
      cases free
    | copied _ _ notification =>
      rw [waits] at notification
      cases notification
    | reading _ _ _ _ begun running => exact ⟨_, _, .copy inside begun running⟩
    | announced _ first _ _ begun =>
      rcases holds.receiver_goes_on inside with starts | finished | next | goes
      · exact ⟨_, _, .message inside starts first⟩
      · obtain ⟨all, idle⟩ := holds.finished_turns inside finished
        have none_begun := begun_of_idle (turns agent) idle
        have bound := holds.announced_bound inside
        omega
      · exact ih next (by omega)
      · exact goes

theorem At.sender_goes_on (some : 0 < receivers) (holds : At buckets bucketSize receivers turns state) :
    state.sender.phase = .done ∨ ∃ event next, Step bucketSize receivers state event next := by
  have here := holds.sender
  have waits (awaits : Awaits bucketSize state.sender) : state.sender.broadcast = none ∨
      ∃ event next, Step bucketSize receivers state event next := by
    cases pending : state.sender.broadcast with
    | none => exact .inl rfl
    | some operation =>
      right
      cases first : state.notifications 0 with
      | nil =>
        have offered : state.readable 0 = Option.some operation.1 := by
          rw [State.readable, pending, Option.map_some]
        exact holds.blocked_goes_on ⟨some, ⟨operation.1, offered⟩, first⟩
      | cons key notifications => exact ⟨_, _, .waited awaits pending first⟩
  cases phase : state.sender.phase with
  | failed => exact absurd phase here.named.notFailed
  | done => exact .inl rfl
  | last =>
    right
    rcases waits (.inl phase) with free | goes
    · exact ⟨_, _, .sent phase free⟩
    · exact goes
  | placing =>
    right
    cases next : state.sender.chunks with
    | nil => exact absurd next (here.sound.flushed phase).2.2
    | cons chunk rest => exact ⟨_, _, .place next (.inl phase)⟩
  | filling =>
    right
    cases next : state.sender.chunks with
    | nil =>
      have awaits : Awaits bucketSize state.sender := .inr ⟨phase, fun chunk rest more => by rw [next] at more; cases more⟩
      rcases waits awaits with free | goes
      · exact ⟨_, _, .finish next phase free⟩
      · exact goes
    | cons chunk rest =>
      by_cases fits : state.sender.offset + chunk.1.chunkSize ≤ bucketSize
      · exact ⟨_, _, .place next (.inr ⟨phase, fits⟩)⟩
      · have full := Nat.not_le.mp fits
        have awaits : Awaits bucketSize state.sender := by
          refine .inr ⟨phase, fun other others more => ?_⟩
          rw [next] at more
          cases more
          exact full
        rcases waits awaits with free | goes
        · exact ⟨_, _, .flush next phase full free⟩
        · exact goes

theorem At.goes_on (some : 0 < receivers) (nonempty : buckets ≠ []) (holds : At buckets bucketSize receivers turns state) :
    (state.sender.phase = .done ∧ ∀ index < receivers, (state.receivers index).phase = .finished) ∨
      ∃ event next, Step bucketSize receivers state event next := by
  by_contra stuck
  rw [not_or] at stuck
  obtain ⟨incomplete, stuck⟩ := stuck
  have done := (holds.sender_goes_on some).resolve_right stuck
  refine incomplete ⟨done, ?_⟩
  have all (index : Nat) (inside : index < receivers) (full : state.operations index = buckets.length) :
      (state.receivers index).phase = .finished := by
    rcases holds.receiver_goes_on inside with waits | finished | blocked | goes
    · have isAt := (holds.receiver index inside).phase
      have more : turns index < state.operations index := by
        rw [full]
        rw [PhaseAt] at isAt
        rcases waits with starting | waiting
        · rw [starting] at isAt
          rw [isAt.1]
          exact List.length_pos_iff.mpr nonempty
        · rw [waiting] at isAt
          exact isAt.2.1
      exact absurd (holds.message_goes_on inside waits more) stuck
    · exact finished
    · exact absurd (holds.blocked_goes_on blocked) stuck
    · exact absurd goes stuck
  intro index inside
  induction index with
  | zero => exact all 0 inside (holds.sender.ended (.inr done))
  | succ index ih =>
    have before := ih (Nat.lt_of_succ_lt inside)
    refine all (index + 1) inside ?_
    rw [holds.operations index inside]
    exact (holds.finished_turns (Nat.lt_of_succ_lt inside) before).1

end LLMFusion.NixlCheckpointEngine
