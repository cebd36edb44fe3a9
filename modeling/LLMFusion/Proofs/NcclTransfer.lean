import LLMFusion.Proofs.NcclCheckpointEngine

/-! A transfer over NCCL delivers all chunks: it always goes on until both sides are
done, and no buffer is written while its bytes are needed. -/

namespace LLMFusion.NcclCheckpointEngine
open CheckpointEngine Runs List

variable {bucketSize : Nat} {weights : List Weight} {start state next : State} {events : List Event} {event : Event}

/-! ### Runs -/

theorem Started.sound (started : Started bucketSize weights start) (positive : 0 < bucketSize) :
    start.Sound bucketSize := by
  refine ⟨⟨started.sendMemory, ?_, ?_, ?_, ?_, ?_, ?_, ?_⟩, ⟨?_, ?_, ?_, ?_⟩⟩
  · simp [started.offset]
  · simp [started.bucketMeta]
  · simp [started.broadcast]
  · simp [started.filling]
  · simp [started.filling]
  · simp [started.broadcast]
  · rw [started.chunks]
    exact split_sized positive weights
  · simp [started.incoming]
  · simp [started.incoming]
  · simp [started.starting]
  · simp [started.incoming]

theorem Started.named (started : Started bucketSize weights start) (positive : 0 < bucketSize)
    (distinct : (weights.map Weight.name).Nodup) : start.sender.Named bucketSize := by
  refine ⟨by simp [started.filling], by simp [started.bucketMeta], ?_⟩
  rw [started.chunks]
  exact split_apart positive distinct

theorem Started.stream (started : Started bucketSize weights start) :
    start.stream bucketSize = placed bucketSize 0 (splitWeightChunks weights bucketSize) := by
  have outgoing : start.sender.outgoing bucketSize = placed bucketSize 0 (splitWeightChunks weights bucketSize) := by
    simp [Sender.outgoing, Sender.pending, Sender.filled, started.broadcast, started.filling, started.bucketMeta,
      started.offset, started.chunks, contents]
  have obtained : start.receiver.obtained = [] := by
    simp [Receiver.obtained, Receiver.holds, started.incoming, started.starting, started.yielded, contents]
  rw [State.stream, outgoing, obtained, started.network]
  rfl

theorem Started.marked (started : Started bucketSize weights start) : start.Marked [] := by
  refine ⟨⟨0, ?_⟩, ?_⟩
  · simp [turned, State.between, State.marked, started.incoming, started.network, started.broadcast, started.filling]
  · simp [turned, State.stopped, started.starting]

theorem run_sound (positive : 0 < bucketSize) (started : Started bucketSize weights start)
    (run : Run (Step bucketSize) start events state) :
    state.Sound bucketSize ∧ state.stream bucketSize = placed bucketSize 0 (splitWeightChunks weights bucketSize) := by
  refine Run.invariant (fun _ state => state.Sound bucketSize ∧
    state.stream bucketSize = placed bucketSize 0 (splitWeightChunks weights bucketSize))
    ⟨started.sound positive, started.stream⟩ ?_ run
  intro events state event next held taken
  exact ⟨held.1.step taken, (State.stream_step held.1 taken).trans held.2⟩

theorem run_marked (positive : 0 < bucketSize) (started : Started bucketSize weights start)
    (run : Run (Step bucketSize) start events state) : state.Marked events := by
  have both : state.Sound bucketSize ∧ state.Marked events := by
    refine Run.invariant (fun events state => state.Sound bucketSize ∧ state.Marked events)
      ⟨started.sound positive, started.marked⟩ ?_ run
    intro events state event next held taken
    exact ⟨held.1.step taken, held.2.step held.1 taken⟩
  exact both.2

theorem run_named (positive : 0 < bucketSize) (distinct : (weights.map Weight.name).Nodup)
    (started : Started bucketSize weights start) (run : Run (Step bucketSize) start events state) :
    state.sender.Named bucketSize := by
  have both : state.Sound bucketSize ∧ state.sender.Named bucketSize := by
    refine Run.invariant (fun _ state => state.Sound bucketSize ∧ state.sender.Named bucketSize)
      ⟨started.sound positive, started.named positive distinct⟩ ?_ run
    intro events state event next held taken
    exact ⟨held.1.step taken, State.named_step held.1 held.2 taken⟩
  exact both.2

/-! ### Progress -/

private theorem free_or_send (state : State) :
    state.sender.broadcast = none ∨ ∃ event next, Step bucketSize state event next := by
  cases pending : state.sender.broadcast with
  | none => exact Or.inl rfl
  | some operation => exact Or.inr ⟨_, _, .send pending⟩

private theorem sender_goes_on (sound : state.sender.Sound bucketSize) (notFailed : state.sender.phase ≠ .failed) :
    state.sender.phase = .done ∨ ∃ event next, Step bucketSize state event next := by
  cases phase : state.sender.phase with
  | failed => exact absurd phase notFailed
  | done => exact Or.inl rfl
  | last =>
    right
    rcases free_or_send state with free | goes
    · exact ⟨_, _, .sent phase free⟩
    · exact goes
  | placing =>
    cases isNext : state.sender.chunks with
    | nil => exact absurd isNext (sound.flushed phase).2.2
    | cons chunk rest => exact Or.inr ⟨_, _, .place isNext (Or.inl phase)⟩
  | filling =>
    right
    rcases free_or_send state with free | goes
    · cases isNext : state.sender.chunks with
      | nil => exact ⟨_, _, .finish isNext phase free⟩
      | cons chunk rest =>
        by_cases fits : state.sender.offset + chunk.1.chunkSize ≤ bucketSize
        · exact ⟨_, _, .place isNext (Or.inr ⟨phase, fits⟩)⟩
        · exact ⟨_, _, .flush isNext phase (Nat.not_le.mp fits) free⟩
    · exact goes

private theorem receiver_waits (sound : state.Sound bucketSize) (marked : state.Marked events)
    (done : state.sender.phase = .done) (unstopped : state.stopped = false)
    (ready : state.receiver.phase = .first ∨ state.receiver.phase = .yielding []) :
    ∃ event next, Step bucketSize state event next := by
  cases incoming : state.receiver.incoming with
  | none =>
    refine absurd incoming (sound.receiver.waiting ?_)
    exact ready.imp_right (fun phase => ⟨[], phase⟩)
  | received metadata => exact ⟨_, _, .turn ready incoming⟩
  | receiving buffer =>
    cases first : state.network with
    | cons bucket network => exact ⟨_, _, .receive incoming first⟩
    | nil =>
      obtain ⟨count, marks⟩ := marked.marks
      have nothing : state.between = [] := by
        simp [State.between, incoming, first, sound.sender.complete done]
      rw [nothing, append_nil, State.marked, done, if_pos rfl] at marks
      have last : true ∈ (turned events).map Metadata.isLast := by simp [marks]
      have stops := marked.stops.mpr (mem_map.mp last)
      rw [unstopped] at stops
      cases stops

theorem goes_on (sound : state.Sound bucketSize) (notFailed : state.sender.phase ≠ .failed) (marked : state.Marked events) :
    state.sender.phase = .done ∧ state.receiver.phase = .finished ∨ ∃ event next, Step bucketSize state event next := by
  rcases sender_goes_on sound.sender notFailed with done | goes
  · cases phase : state.receiver.phase with
    | starting => exact Or.inr ⟨_, _, .start phase⟩
    | first => exact Or.inr (receiver_waits sound marked done (by simp [State.stopped, phase]) (Or.inl phase))
    | finished => exact Or.inl ⟨done, rfl⟩
    | yielding left =>
      cases left with
      | nil => exact Or.inr (receiver_waits sound marked done (by simp [State.stopped, phase]) (Or.inr phase))
      | cons tensorMeta left => exact Or.inr ⟨_, _, .yield phase⟩
    | draining left =>
      cases left with
      | nil => exact Or.inr ⟨_, _, .stop phase⟩
      | cons tensorMeta left => exact Or.inr ⟨_, _, .drain phase⟩
  · exact Or.inr goes

theorem transfer_ends (positive : 0 < bucketSize) (distinct : (weights.map Weight.name).Nodup)
    (started : Started bucketSize weights start) (run : Run (Step bucketSize) start events state) :
    state.receiver.phase = .finished ∨ ∃ event next, Step bucketSize state event next :=
  (goes_on (run_sound positive started run).1 (run_named positive distinct started run).notFailed
    (run_marked positive started run)).imp_left And.right

/-! ### Termination -/

/-- The most steps that a sender takes and causes. A bucket takes three, and each chunk in
it is yielded. -/
def Sender.remaining (sender : Sender) : Nat :=
  (match sender.phase with
    | .filling => 6 * sender.chunks.length + sender.bucketMeta.length + 5
    | .placing => 6 * sender.chunks.length + sender.bucketMeta.length + 1
    | .last => 1
    | .done | .failed => 0) +
  match sender.broadcast with
  | some operation => operation.2.bucketMeta.length + 3
  | none => 0

def Receiver.remaining (receiver : Receiver) : Nat :=
  (match receiver.phase with
    | .starting => 2
    | .first => 1
    | .yielding left | .draining left => left.length + 1
    | .finished => 0) +
  match receiver.incoming with
  | .received metadata => metadata.bucketMeta.length + 1
  | _ => 0

def State.remaining (state : State) : Nat :=
  state.sender.remaining + (2 * state.network.length + (state.network.flatMap (fun bucket => bucket.1.bucketMeta)).length) +
    state.receiver.remaining

theorem remaining_step (sound : state.Sound bucketSize) (taken : Step bucketSize state event next) :
    next.remaining < state.remaining := by
  cases taken with
  | place isNext ready =>
    have many := congrArg length isNext
    rw [length_cons] at many
    have before : 6 * state.sender.chunks.length + state.sender.bucketMeta.length + 1 +
        (match state.sender.broadcast with | some operation => operation.2.bucketMeta.length + 3 | none => 0) ≤
          state.sender.remaining := by
      rcases ready with phase | ⟨phase, _⟩
      · simp only [Sender.remaining, phase]
        omega
      · simp only [Sender.remaining, phase]
        omega
    simp only [State.remaining]
    rcases (Sender.place_cases sound.sender isNext ready).2 with ⟨_, failed⟩ | ⟨_, _, _, _, written⟩
    · rw [failed]
      simp only [Sender.remaining] at before ⊢
      omega
    · rw [written]
      simp only [Sender.remaining, length_append, length_singleton] at before ⊢
      omega
  | flush isNext filling full free =>
    simp only [State.remaining, Sender.remaining, Sender.flush, filling, free, length_nil]
    omega
  | finish isNext filling free =>
    simp only [State.remaining, Sender.remaining, Sender.finish, filling, free]
    omega
  | sent last free =>
    simp only [State.remaining, Sender.remaining, last]
    omega
  | send pending =>
    simp only [State.remaining, Sender.remaining, pending, length_append, flatMap_append, flatMap_cons,
      flatMap_nil, append_nil, length_singleton]
    omega
  | receive pending first =>
    simp only [State.remaining, Receiver.remaining, pending, first, flatMap_cons, length_append, length_cons]
    omega
  | start starting =>
    simp only [State.remaining, Receiver.remaining, Receiver.start, starting, sound.receiver.starting starting]
    omega
  | @turn metadata ready received =>
    have before : metadata.bucketMeta.length + 2 ≤ state.receiver.remaining := by
      rcases ready with phase | phase
      · simp only [Receiver.remaining, phase, received]
        omega
      · simp only [Receiver.remaining, phase, received]
        omega
    have after : (state.receiver.turn metadata).remaining = metadata.bucketMeta.length + 1 := by
      rw [Receiver.turn]
      split <;> rfl
    simp only [State.remaining, after]
    omega
  | yield yielding =>
    simp only [State.remaining, Receiver.remaining, Receiver.yield, yielding, length_cons]
    omega
  | drain draining =>
    simp only [State.remaining, Receiver.remaining, Receiver.yield, draining, length_cons]
    omega
  | stop drained =>
    simp only [State.remaining, Receiver.remaining, drained]
    omega

theorem run_bounded (positive : 0 < bucketSize) (started : Started bucketSize weights start)
    (run : Run (Step bucketSize) start events state) : events.length + state.remaining ≤ start.remaining := by
  have both : state.Sound bucketSize ∧ events.length + state.remaining ≤ start.remaining := by
    refine Run.invariant (fun events state => state.Sound bucketSize ∧ events.length + state.remaining ≤ start.remaining)
      ⟨started.sound positive, by simp⟩ ?_ run
    intro events state event next held taken
    have less := remaining_step held.1 taken
    refine ⟨held.1.step taken, ?_⟩
    have bounded := held.2
    rw [length_append, length_singleton]
    omega
  exact both.2

/-! ### Writes -/

theorem sender_write (sound : state.Sound bucketSize) (taken : Step bucketSize state event next) {buffer : Buffer}
    (written : next.sender.memory buffer ≠ state.sender.memory buffer) (metadata : Metadata) :
    state.sender.broadcast ≠ some (buffer, metadata) := by
  cases taken with
  | place isNext ready =>
    rcases (Sender.place_cases sound.sender isNext ready).2 with ⟨_, failed⟩ | ⟨_, _, _, _, placed⟩
    · rw [failed] at written
      exact absurd rfl written
    · intro pending
      have writing : state.sender.phase = .filling ∨ state.sender.phase = .placing := by
        rcases ready with placing | ⟨filling, _⟩
        · exact Or.inr placing
        · exact Or.inl filling
      have apart := sound.sender.apart writing buffer metadata pending
      rw [placed] at written
      exact written (Function.update_of_ne apart _ _)
  | flush => exact absurd rfl written
  | finish => exact absurd rfl written
  | sent => exact absurd rfl written
  | send => exact absurd rfl written
  | receive => exact absurd rfl written
  | start => exact absurd rfl written
  | turn => exact absurd rfl written
  | yield => exact absurd rfl written
  | drain => exact absurd rfl written
  | stop => exact absurd rfl written

theorem receiving_holds (sound : state.Sound bucketSize) {buffer : Buffer}
    (pending : state.receiver.incoming = .receiving buffer) : state.receiver.holds buffer = [] := by
  obtain rfl := sound.receiver.into buffer pending
  rw [Receiver.holds_recvBuf, pending]

theorem receiver_write (taken : Step bucketSize state event next) {buffer : Buffer}
    (written : next.receiver.memory buffer ≠ state.receiver.memory buffer) :
    state.receiver.incoming = .receiving buffer := by
  cases taken with
  | @receive into metadata bytes network pending first =>
    by_cases same : buffer = into
    · rw [pending, same]
    · exact absurd (Function.update_of_ne same _ _) written
  | turn ready received =>
    refine absurd ?_ written
    simp only [Receiver.turn]
    split <;> rfl
  | place => exact absurd rfl written
  | flush => exact absurd rfl written
  | finish => exact absurd rfl written
  | sent => exact absurd rfl written
  | send => exact absurd rfl written
  | start => exact absurd rfl written
  | yield => exact absurd rfl written
  | drain => exact absurd rfl written
  | stop => exact absurd rfl written

/-! ### Transfers -/

/-- A chunk as the sender got it, before it had a place in a bucket. -/
def unplaced (chunk : TensorMeta × List UInt8) : TensorMeta × List UInt8 := ({ chunk.1 with offset := none }, chunk.2)

/-- The chunks of the sender with their bytes. -/
def sent (bucketSize : Nat) (weights : List Weight) : List (TensorMeta × List UInt8) :=
  (splitWeightChunks weights bucketSize).map (fun chunk => (chunk.1, chunk.2.bytes))

private theorem splitLoop_unplaced (weight : Weight) {rounds chunkOffset : Nat} :
    ∀ chunk ∈ splitLoop bucketSize weight rounds chunkOffset, chunk.1.offset = none := by
  induction rounds generalizing chunkOffset with
  | zero => simp [splitLoop]
  | succ rounds ih =>
    intro chunk member
    rw [splitLoop] at member
    split at member
    · rcases mem_cons.mp member with rfl | later
      · rfl
      · exact ih chunk later
    · cases member

private theorem placed_unplaced {offset : Nat} {chunks : List (TensorMeta × Chunk)}
    (unset : ∀ chunk ∈ chunks, chunk.1.offset = none) :
    (placed bucketSize offset chunks).map unplaced = chunks.map (fun chunk => (chunk.1, chunk.2.bytes)) := by
  induction chunks generalizing offset with
  | nil => rfl
  | cons chunk chunks ih =>
    obtain ⟨tensorMeta, bytes⟩ := chunk
    have first : tensorMeta.offset = none := unset _ mem_cons_self
    have same : unplaced ({ tensorMeta with offset := some (if bucketSize < offset + tensorMeta.chunkSize then 0 else offset) },
        bytes.bytes) = (tensorMeta, bytes.bytes) := by
      rw [unplaced]
      cases tensorMeta
      simp_all
    rw [placed, map_cons, map_cons, ih (fun other member => unset other (mem_cons_of_mem _ member)), same]

theorem placed_sent (bucketSize : Nat) (weights : List Weight) :
    (placed bucketSize 0 (splitWeightChunks weights bucketSize)).map unplaced = sent bucketSize weights := by
  apply placed_unplaced
  intro chunk member
  obtain ⟨weight, _, isChunk⟩ := mem_flatMap.mp member
  exact splitLoop_unplaced weight chunk isChunk

/-- What holds at any time of a transfer. -/
structure Delivers (bucketSize : Nat) (weights : List Weight) (start : State) (events : List Event) (state : State) :
    Prop where
  asserts : state.sender.phase ≠ .failed
  inOrder : state.receiver.yielded.map unplaced <+: sent bucketSize weights
  notBroadcast : ∀ event next buffer, Step bucketSize state event next →
    next.sender.memory buffer ≠ state.sender.memory buffer → ∀ metadata, state.sender.broadcast ≠ some (buffer, metadata)
  received : ∀ event next buffer, Step bucketSize state event next →
    next.receiver.memory buffer ≠ state.receiver.memory buffer → state.receiver.incoming = .receiving buffer
  notHeld : ∀ buffer, state.receiver.incoming = .receiving buffer → state.receiver.holds buffer = []
  stops : state.stopped = true ↔ ∃ metadata ∈ turned events, metadata.isLast = true
  lastOne : ∀ before metadata after, turned events = before ++ metadata :: after → metadata.isLast = true → after = []
  complete : state.receiver.phase = .finished → state.receiver.yielded.map unplaced = sent bucketSize weights ∧
    state.network = [] ∧ state.sender.broadcast = none
  goesOn : state.sender.phase = .done ∧ state.receiver.phase = .finished ∨ ∃ event next, Step bucketSize state event next
  bounded : events.length + state.remaining ≤ start.remaining

theorem finished_empty (sound : state.Sound bucketSize) (marked : state.Marked events)
    (finished : state.receiver.phase = .finished) :
    state.between = [] ∧ state.stream bucketSize = state.receiver.yielded := by
  obtain ⟨metadata, member, last⟩ := marked.stops.mp (by simp [State.stopped, finished])
  obtain ⟨before, after, split⟩ := append_of_mem member
  obtain ⟨behind, isMarked⟩ := marked.nothing_behind (show turned events ++ state.between = before ++ metadata :: (after ++ state.between) by
    rw [split, append_assoc, cons_append]) last
  have nothing : state.between = [] := (append_eq_nil_iff.mp behind).2
  refine ⟨nothing, ?_⟩
  have incoming := sound.receiver.ended (Or.inr finished)
  simp only [State.between, incoming, nil_append, append_eq_nil_iff, map_eq_nil_iff] at nothing
  have free : state.sender.broadcast = none := by
    cases pending : state.sender.broadcast with
    | none => rfl
    | some operation => simp [pending] at nothing
  have obtained : state.receiver.obtained = state.receiver.yielded := by
    simp [Receiver.obtained, Receiver.holds_recvBuf, Receiver.holds_other, incoming, finished, contents]
  have outgoing : state.sender.outgoing bucketSize = [] := by
    cases phase : state.sender.phase with
    | last => simp [Sender.outgoing, Sender.pending, Sender.filled, free, phase, sound.sender.ended (Or.inl phase), placed]
    | done => simp [Sender.outgoing, Sender.pending, Sender.filled, free, phase, sound.sender.ended (Or.inr phase), placed]
    | filling => simp [State.marked, phase] at isMarked
    | placing => simp [State.marked, phase] at isMarked
    | failed => simp [State.marked, phase] at isMarked
  rw [State.stream, obtained, outgoing, nothing.1]
  simp

/-- A transfer of weights with distinct names delivers all chunks, whatever the order of
the steps of both sides and of the broadcasts. -/
theorem transfer_delivers (positive : 0 < bucketSize) (distinct : (weights.map Weight.name).Nodup)
    (started : Started bucketSize weights start) (run : Run (Step bucketSize) start events state) :
    Delivers bucketSize weights start events state := by
  obtain ⟨sound, stream⟩ := run_sound positive started run
  have marked := run_marked positive started run
  have named := run_named positive distinct started run
  have inOrder : state.receiver.yielded <+: state.stream bucketSize := by
    simp only [State.stream, Receiver.obtained, List.append_assoc]
    exact List.prefix_append _ _
  refine ⟨named.notFailed, ?_, fun event next buffer taken written metadata => sender_write sound taken written metadata,
    fun event next buffer taken written => receiver_write taken written, fun buffer pending => receiving_holds sound pending,
    marked.stops, ?_, ?_, goes_on sound named.notFailed marked, run_bounded positive started run⟩
  · rw [stream] at inOrder
    rw [← placed_sent]
    exact inOrder.map unplaced
  · intro before metadata after split last
    have behind := (marked.nothing_behind (show turned events ++ state.between = before ++ metadata :: (after ++ state.between) by
      rw [split, List.append_assoc, List.cons_append]) last).1
    exact (List.append_eq_nil_iff.mp behind).1
  · intro finished
    obtain ⟨nothing, all⟩ := finished_empty sound marked finished
    rw [stream] at all
    refine ⟨by rw [← all, placed_sent], ?_⟩
    simp only [State.between, List.append_eq_nil_iff, List.map_eq_nil_iff] at nothing
    refine ⟨nothing.1.2, ?_⟩
    cases pending : state.sender.broadcast with
    | none => rfl
    | some operation => simp [pending] at nothing

/-! ### Complete transfers -/

private theorem run_to_end (positive : 0 < bucketSize) (distinct : (weights.map Weight.name).Nodup)
    (started : Started bucketSize weights start) (bound : Nat) (run : Run (Step bucketSize) start events state)
    (within : state.remaining ≤ bound) :
    ∃ events final, Run (Step bucketSize) start events final ∧ final.receiver.phase = .finished := by
  induction bound generalizing events state with
  | zero =>
    rcases (transfer_ends positive distinct started run) with finished | ⟨event, next, taken⟩
    · exact ⟨events, state, run, finished⟩
    · have less := remaining_step (run_sound positive started run).1 taken
      omega
  | succ bound ih =>
    rcases (transfer_ends positive distinct started run) with finished | ⟨event, next, taken⟩
    · exact ⟨events, state, run, finished⟩
    · have less := remaining_step (run_sound positive started run).1 taken
      exact ih (run.step taken) (by omega)

theorem exists_complete (positive : 0 < bucketSize) (distinct : (weights.map Weight.name).Nodup)
    (started : Started bucketSize weights start) : ∃ events final, Run (Step bucketSize) start events final ∧
      final.receiver.yielded = placed bucketSize 0 (splitWeightChunks weights bucketSize) := by
  obtain ⟨events, final, run, finished⟩ := run_to_end positive distinct started start.remaining .start (Nat.le_refl _)
  obtain ⟨sound, stream⟩ := run_sound positive started run
  refine ⟨events, final, run, ?_⟩
  rw [← (finished_empty sound (run_marked positive started run) finished).2, stream]

private def byte : Weight := ⟨"byte", ⟨[1], ⟨"uint8", 1, Nat.one_pos⟩, [7], rfl⟩, 0⟩

private def byteStart : State :=
  ⟨⟨fun _ => [0, 0], .send, none, [], 0, splitWeightChunks [byte] 2, .filling⟩, [],
    ⟨fun _ => [0, 0], .recv, .none, .starting, []⟩⟩

private theorem byteStart_started : Started 2 [byte] byteStart :=
  ⟨fun _ => rfl, rfl, rfl, rfl, rfl, rfl, rfl, rfl, fun _ => rfl, rfl, rfl, rfl, rfl⟩

theorem transfer_delivers_byte : ∃ events state,
    state.receiver.phase = .finished ∧ state.receiver.yielded.map Prod.snd = [[7]] ∧
      Delivers 2 [byte] byteStart events state := by
  have placed : Run (Step 2) byteStart _ _ := .single (.place rfl (Or.inr ⟨rfl, by decide⟩))
  have started := Run.step (Run.step (Run.step placed (.finish rfl rfl rfl)) (.start rfl)) (.send rfl)
  have turned := Run.step (Run.step started (.receive rfl rfl)) (.turn (Or.inl rfl) rfl)
  have run := Run.step (Run.step turned (.drain rfl)) (.stop rfl)
  exact ⟨_, _, rfl, by decide, transfer_delivers (by decide) (by decide) byteStart_started run⟩

end LLMFusion.NcclCheckpointEngine
