import LLMFusion.NcclCheckpointEngine
import LLMFusion.Proofs.CheckpointEngine

/-! What every run of a transfer over NCCL keeps. The chunks that were yielded, those in
the buffers and on their way, and those to come are the chunks of the sender in order;
and no buffer is written while its bytes are needed. -/

namespace LLMFusion.NcclCheckpointEngine
open CheckpointEngine Runs

@[simp] theorem Buffer.other_ne (buffer : Buffer) : buffer.other ≠ buffer := by cases buffer <;> decide

@[simp] theorem Buffer.other_other (buffer : Buffer) : buffer.other.other = buffer := by cases buffer <;> rfl

/-! ### Chunks that can be packed -/

def Sized (bucketSize : Nat) (chunk : TensorMeta × Chunk) : Prop :=
  0 < chunk.1.chunkSize ∧ chunk.1.chunkSize ≤ bucketSize ∧ chunk.2.bytes.length = chunk.1.chunkSize

def Apart (bucketSize : Nat) (chunk later : TensorMeta × Chunk) : Prop :=
  chunk.1.name = later.1.name → chunk.1.chunkSize = bucketSize

private theorem splitLoop_sized {bucketSize : Nat} (positive : 0 < bucketSize) (weight : Weight) {rounds chunkOffset : Nat} :
    ∀ chunk ∈ splitLoop bucketSize weight rounds chunkOffset, chunk.1.name = weight.name ∧ Sized bucketSize chunk := by
  induction rounds generalizing chunkOffset with
  | zero => simp [splitLoop]
  | succ rounds ih =>
    intro chunk member
    rw [splitLoop] at member
    split at member
    · rename_i inside
      rcases List.mem_cons.mp member with rfl | later
      · have sized := weight.tensor.sized
        change weight.tensor.bytes.length = weight.tensor.nbytes at sized
        refine ⟨rfl, ?_, ?_, ?_⟩
        · simp only [Weight.chunkMeta]
          omega
        · exact Nat.min_le_left _ _
        · simp only [Chunk.slice, Weight.buffer, Weight.chunkMeta, Slices.slice_length, sized]
          omega
      · exact ih chunk later
    · cases member

private theorem splitLoop_apart {bucketSize : Nat} (weight : Weight) {rounds chunkOffset : Nat} :
    (splitLoop bucketSize weight rounds chunkOffset).Pairwise (Apart bucketSize) := by
  induction rounds generalizing chunkOffset with
  | zero => exact .nil
  | succ rounds ih =>
    rw [splitLoop]
    split
    · refine .cons ?_ ih
      intro later member _
      simp only [Weight.chunkMeta]
      by_cases ends : weight.tensor.nbytes ≤ chunkOffset + min bucketSize (weight.tensor.nbytes - chunkOffset)
      · rw [splitLoop_end bucketSize ends] at member
        cases member
      · omega
    · exact .nil

theorem split_sized {bucketSize : Nat} (positive : 0 < bucketSize) (weights : List Weight) :
    ∀ chunk ∈ splitWeightChunks weights bucketSize, Sized bucketSize chunk := by
  intro chunk member
  obtain ⟨weight, _, isChunk⟩ := List.mem_flatMap.mp member
  exact (splitLoop_sized positive weight chunk isChunk).2

theorem split_apart {bucketSize : Nat} (positive : 0 < bucketSize) {weights : List Weight}
    (distinct : (weights.map Weight.name).Nodup) :
    (splitWeightChunks weights bucketSize).Pairwise (Apart bucketSize) := by
  rw [splitWeightChunks, List.pairwise_flatMap]
  refine ⟨fun weight _ => splitLoop_apart weight, ?_⟩
  refine (List.pairwise_map.mp distinct).imp ?_
  intro weight other different chunk member later member' same
  have name := (splitLoop_sized positive weight chunk member).1
  have name' := (splitLoop_sized positive other later member').1
  exact absurd (name.symm.trans (same.trans name')) different

/-! ### The chunks in the order of the sender -/

/-- The chunks with their offsets in the buckets, from an offset in the first one. -/
def placed (bucketSize : Nat) : Nat → List (TensorMeta × Chunk) → List (TensorMeta × List UInt8)
  | _, [] => []
  | offset, (tensorMeta, chunk) :: rest =>
    let here := if bucketSize < offset + tensorMeta.chunkSize then 0 else offset
    ({ tensorMeta with offset := some here }, chunk.bytes) :: placed bucketSize (here + tensorMeta.chunkSize) rest

def contents (bytes : List UInt8) (bucketMeta : List TensorMeta) : List (TensorMeta × List UInt8) :=
  bucketMeta.map (readChunk bytes)

namespace Sender
open List

def pending (sender : Sender) : List (TensorMeta × List UInt8) :=
  match sender.broadcast with
  | some (buffer, metadata) => contents (sender.memory buffer) metadata.bucketMeta
  | none => []

def filled (sender : Sender) : List (TensorMeta × List UInt8) :=
  match sender.phase with
  | .filling | .placing | .failed => contents (sender.memory sender.sendBuf) sender.bucketMeta
  | .last | .done => []

def outgoing (bucketSize : Nat) (sender : Sender) : List (TensorMeta × List UInt8) :=
  sender.pending ++ sender.filled ++ placed bucketSize sender.offset sender.chunks

structure Sound (bucketSize : Nat) (sender : Sender) : Prop where
  memory : ∀ buffer, (sender.memory buffer).length = bucketSize
  bounded : sender.offset ≤ bucketSize
  inside : ∀ tensorMeta ∈ sender.bucketMeta, ∃ offset, tensorMeta.offset = some offset ∧
    offset + tensorMeta.chunkSize ≤ sender.offset
  apart : sender.phase = .filling ∨ sender.phase = .placing →
    ∀ buffer metadata, sender.broadcast = some (buffer, metadata) → buffer ≠ sender.sendBuf
  flushed : sender.phase = .placing → sender.offset = 0 ∧ sender.bucketMeta = [] ∧ sender.chunks ≠ []
  ended : sender.phase = .last ∨ sender.phase = .done → sender.chunks = []
  complete : sender.phase = .done → sender.broadcast = none
  sized : ∀ chunk ∈ sender.chunks, Sized bucketSize chunk

structure Named (bucketSize : Nat) (sender : Sender) : Prop where
  notFailed : sender.phase ≠ .failed
  full : ∀ tensorMeta ∈ sender.bucketMeta, ∀ chunk ∈ sender.chunks, tensorMeta.name = chunk.1.name →
    bucketSize ≤ sender.offset
  chunks : sender.chunks.Pairwise (Apart bucketSize)

section Place
variable {bucketSize : Nat} {sender : Sender} {tensorMeta : TensorMeta} {chunk : Chunk} {rest : List (TensorMeta × Chunk)}

section
variable (sound : sender.Sound bucketSize) (next : sender.chunks = (tensorMeta, chunk) :: rest)
  (ready : sender.phase = .placing ∨ sender.phase = .filling ∧ sender.offset + tensorMeta.chunkSize ≤ bucketSize)
include sound next ready

theorem place_cases : sender.offset + tensorMeta.chunkSize ≤ bucketSize ∧
    (tensorMeta.name ∈ sender.bucketMeta.map TensorMeta.name ∧
        sender.place bucketSize tensorMeta chunk rest = { sender with phase := .failed } ∨
      ∃ bytes : List UInt8, bytes.length = bucketSize ∧
        Slices.slice bytes sender.offset (sender.offset + tensorMeta.chunkSize) = chunk.bytes ∧
        (∀ first last, last ≤ sender.offset →
          Slices.slice bytes first last = Slices.slice (sender.memory sender.sendBuf) first last) ∧
        sender.place bucketSize tensorMeta chunk rest =
          { sender with
            memory := Function.update sender.memory sender.sendBuf bytes
            bucketMeta := sender.bucketMeta ++ [{ tensorMeta with offset := some sender.offset }]
            offset := sender.offset + tensorMeta.chunkSize
            chunks := rest
            phase := .filling }) := by
  obtain ⟨some, small, length⟩ := sound.sized (tensorMeta, chunk) (by simp [next])
  have fits : sender.offset + tensorMeta.chunkSize ≤ bucketSize := by
    rcases ready with placing | ⟨_, fits⟩
    · rw [(sound.flushed placing).1, Nat.zero_add]
      exact small
    · exact fits
  refine ⟨fits, ?_⟩
  by_cases named : tensorMeta.name ∈ sender.bucketMeta.map TensorMeta.name
  · refine Or.inl ⟨named, ?_⟩
    rw [place, if_neg (fun holds => holds.2 named)]
  · obtain ⟨bytes, written, size, here, before⟩ := Slices.assign_slices
      (Nat.le_add_right sender.offset tensorMeta.chunkSize)
      (Nat.le_trans fits (Nat.le_of_eq (sound.memory sender.sendBuf).symm)) (show chunk.bytes.length = _ by
        rw [Nat.add_sub_cancel_left]
        exact length)
    refine Or.inr ⟨bytes, size.trans (sound.memory sender.sendBuf), here, before, ?_⟩
    rw [place, if_pos ⟨fits, named⟩, written]

theorem Sound.place : (sender.place bucketSize tensorMeta chunk rest).Sound bucketSize := by
  obtain ⟨fits, ⟨_, failed⟩ | ⟨bytes, size, _, _, written⟩⟩ := place_cases sound next ready
  · rw [failed]
    exact ⟨sound.memory, sound.bounded, sound.inside, by simp, by simp, by simp, by simp, sound.sized⟩
  · have writing : sender.phase = .filling ∨ sender.phase = .placing := by
      rcases ready with placing | ⟨filling, _⟩
      · exact Or.inr placing
      · exact Or.inl filling
    rw [written]
    refine ⟨?_, fits, ?_, fun _ => sound.apart writing, by simp, by simp, by simp, ?_⟩
    · intro buffer
      by_cases same : buffer = sender.sendBuf
      · subst same
        simp [size]
      · simp [same, sound.memory]
    · intro other member
      rcases mem_append.mp member with before | isNew
      · obtain ⟨offset, isOffset, within⟩ := sound.inside other before
        exact ⟨offset, isOffset, Nat.le_trans within (Nat.le_add_right _ _)⟩
      · obtain rfl := mem_singleton.mp isNew
        exact ⟨sender.offset, rfl, Nat.le_refl _⟩
    · exact fun other member => sound.sized other (by rw [next]; exact mem_cons_of_mem _ member)

end

theorem Named.place (named : sender.Named bucketSize) (sound : sender.Sound bucketSize)
    (next : sender.chunks = (tensorMeta, chunk) :: rest)
    (ready : sender.phase = .placing ∨ sender.phase = .filling ∧ sender.offset + tensorMeta.chunkSize ≤ bucketSize) :
    (sender.place bucketSize tensorMeta chunk rest).Named bucketSize := by
  have pairs := named.chunks
  rw [next, pairwise_cons] at pairs
  have some : 0 < tensorMeta.chunkSize := (sound.sized (tensorMeta, chunk) (by simp [next])).1
  obtain ⟨fits, ⟨known, _⟩ | ⟨bytes, _, _, _, written⟩⟩ := place_cases sound next ready
  · obtain ⟨other, member, same⟩ := mem_map.mp known
    have full := named.full other member (tensorMeta, chunk) (by simp [next]) same
    omega
  · rw [written]
    refine ⟨by simp, ?_, pairs.2⟩
    intro other member later isLater same
    rcases mem_append.mp member with before | isNew
    · have full := named.full other before later (by rw [next]; exact mem_cons_of_mem _ isLater) same
      exact Nat.le_trans full (Nat.le_add_right _ _)
    · obtain rfl := mem_singleton.mp isNew
      have whole : tensorMeta.chunkSize = bucketSize := pairs.1 later isLater same
      change bucketSize ≤ sender.offset + tensorMeta.chunkSize
      omega

theorem contents_placed (sound : sender.Sound bucketSize) {bytes : List UInt8}
    (here : Slices.slice bytes sender.offset (sender.offset + tensorMeta.chunkSize) = chunk.bytes)
    (before : ∀ first last, last ≤ sender.offset →
      Slices.slice bytes first last = Slices.slice (sender.memory sender.sendBuf) first last) :
    contents bytes (sender.bucketMeta ++ [{ tensorMeta with offset := some sender.offset }]) =
      contents (sender.memory sender.sendBuf) sender.bucketMeta ++
        [({ tensorMeta with offset := some sender.offset }, chunk.bytes)] := by
  have old : contents bytes sender.bucketMeta = contents (sender.memory sender.sendBuf) sender.bucketMeta := by
    apply map_congr_left
    intro other member
    obtain ⟨offset, isOffset, within⟩ := sound.inside other member
    rw [readChunk, readChunk, isOffset]
    exact congrArg (Prod.mk other) (before _ _ within)
  have isNew : readChunk bytes { tensorMeta with offset := some sender.offset } =
      ({ tensorMeta with offset := some sender.offset }, chunk.bytes) := by
    rw [readChunk]
    exact congrArg (Prod.mk _) here
  rw [← old]
  simp only [contents, map_append, map_cons, map_nil, isNew]

theorem outgoing_place (sound : sender.Sound bucketSize) (next : sender.chunks = (tensorMeta, chunk) :: rest)
    (ready : sender.phase = .placing ∨ sender.phase = .filling ∧ sender.offset + tensorMeta.chunkSize ≤ bucketSize) :
    (sender.place bucketSize tensorMeta chunk rest).outgoing bucketSize = sender.outgoing bucketSize := by
  have writing : sender.phase = .filling ∨ sender.phase = .placing := by
    rcases ready with placing | ⟨filling, _⟩
    · exact Or.inr placing
    · exact Or.inl filling
  have filled : sender.filled = contents (sender.memory sender.sendBuf) sender.bucketMeta := by
    rcases writing with phase | phase
    · simp [Sender.filled, phase]
    · simp [Sender.filled, phase]
  obtain ⟨fits, ⟨_, failed⟩ | ⟨bytes, _, here, before, written⟩⟩ := place_cases sound next ready
  · rw [failed, outgoing, outgoing, filled]
    rfl
  · have pending : (sender.place bucketSize tensorMeta chunk rest).pending = sender.pending := by
      rw [written, Sender.pending, Sender.pending]
      cases isPending : sender.broadcast with
      | none => rfl
      | some operation =>
        simp only [Function.update_of_ne (sound.apart writing operation.1 operation.2 isPending)]
    have filled' : (sender.place bucketSize tensorMeta chunk rest).filled =
        sender.filled ++ [({ tensorMeta with offset := some sender.offset }, chunk.bytes)] := by
      rw [written, filled, ← contents_placed sound here before]
      simp only [Sender.filled, Function.update_self]
    rw [outgoing, outgoing, pending, filled', next, placed, if_neg (Nat.not_lt.mpr fits), written]
    simp [append_assoc]

end Place

variable {bucketSize : Nat} {sender : Sender}

theorem Sound.flush (sound : sender.Sound bucketSize) (some : sender.chunks ≠ []) : sender.flush.Sound bucketSize := by
  refine ⟨sound.memory, Nat.zero_le _, by simp [Sender.flush], ?_, fun _ => ⟨rfl, rfl, some⟩, by simp [Sender.flush],
    by simp [Sender.flush], sound.sized⟩
  intro _ buffer metadata isBroadcast
  cases isBroadcast
  exact sender.sendBuf.other_ne.symm

theorem Sound.finish (sound : sender.Sound bucketSize) (empty : sender.chunks = []) : sender.finish.Sound bucketSize :=
  ⟨sound.memory, sound.bounded, sound.inside, by simp [Sender.finish], by simp [Sender.finish], fun _ => empty,
    by simp [Sender.finish], sound.sized⟩

theorem Sound.sent (sound : sender.Sound bucketSize) (last : sender.phase = .last) (free : sender.broadcast = none) :
    Sound bucketSize { sender with phase := .done } :=
  ⟨sound.memory, sound.bounded, sound.inside, by simp, by simp, fun _ => sound.ended (Or.inl last), fun _ => free,
    sound.sized⟩

theorem Sound.send (sound : sender.Sound bucketSize) : Sound bucketSize { sender with broadcast := none } :=
  ⟨sound.memory, sound.bounded, sound.inside, by simp, sound.flushed, sound.ended, fun _ => rfl, sound.sized⟩

theorem Named.flush (named : sender.Named bucketSize) : sender.flush.Named bucketSize :=
  ⟨by simp [Sender.flush], by simp [Sender.flush], named.chunks⟩

theorem outgoing_flush {tensorMeta : TensorMeta} {chunk : Chunk} {rest : List (TensorMeta × Chunk)}
    (next : sender.chunks = (tensorMeta, chunk) :: rest) (filling : sender.phase = .filling)
    (full : bucketSize < sender.offset + tensorMeta.chunkSize) (free : sender.broadcast = none) :
    sender.flush.outgoing bucketSize = sender.outgoing bucketSize := by
  have again : placed bucketSize 0 ((tensorMeta, chunk) :: rest) = placed bucketSize sender.offset ((tensorMeta, chunk) :: rest) := by
    rw [placed, placed, if_pos full]
    simp only [ite_self]
  simp only [outgoing, pending, filled, Sender.flush, filling, free, next, again, contents, map_nil, append_nil,
    nil_append]

theorem outgoing_finish (empty : sender.chunks = []) (filling : sender.phase = .filling) (free : sender.broadcast = none) :
    sender.finish.outgoing bucketSize = sender.outgoing bucketSize := by
  simp only [outgoing, pending, filled, Sender.finish, filling, free, empty, placed, append_nil, nil_append]

theorem outgoing_sent (last : sender.phase = .last) :
    Sender.outgoing bucketSize { sender with phase := .done } = sender.outgoing bucketSize := by
  simp only [outgoing, pending, filled, last]

theorem outgoing_send {buffer : Buffer} {metadata : Metadata} (isBroadcast : sender.broadcast = some (buffer, metadata)) :
    sender.outgoing bucketSize =
      contents (sender.memory buffer) metadata.bucketMeta ++ Sender.outgoing bucketSize { sender with broadcast := none } := by
  simp only [outgoing, pending, filled, isBroadcast, nil_append, append_assoc]

end Sender

/-! ### The receiver -/

namespace Receiver

/-- The chunks that are still to be yielded from a buffer. -/
def holds (receiver : Receiver) (buffer : Buffer) : List TensorMeta :=
  if buffer = receiver.recvBuf then
    match receiver.incoming with
    | .received metadata => metadata.bucketMeta
    | _ => []
  else
    match receiver.phase with
    | .yielding left | .draining left => left
    | _ => []

def obtained (receiver : Receiver) : List (TensorMeta × List UInt8) :=
  receiver.yielded ++ contents (receiver.memory receiver.recvBuf.other) (receiver.holds receiver.recvBuf.other) ++
    contents (receiver.memory receiver.recvBuf) (receiver.holds receiver.recvBuf)

/-- A broadcast goes into `recv_buf`, and there is one before the end. -/
structure Sound (receiver : Receiver) : Prop where
  into : ∀ buffer, receiver.incoming = .receiving buffer → buffer = receiver.recvBuf
  starting : receiver.phase = .starting → receiver.incoming = .none
  waiting : receiver.phase = .first ∨ (∃ left, receiver.phase = .yielding left) → receiver.incoming ≠ .none
  ended : (∃ left, receiver.phase = .draining left) ∨ receiver.phase = .finished → receiver.incoming = .none

variable {receiver : Receiver}

theorem holds_recvBuf (receiver : Receiver) : receiver.holds receiver.recvBuf =
    match receiver.incoming with
    | .received metadata => metadata.bucketMeta
    | _ => [] := if_pos rfl

theorem holds_other (receiver : Receiver) : receiver.holds receiver.recvBuf.other =
    match receiver.phase with
    | .yielding left | .draining left => left
    | _ => [] := if_neg receiver.recvBuf.other_ne

theorem Sound.start (receiver : Receiver) : receiver.start.Sound :=
  ⟨by simp [Receiver.start], by simp [Receiver.start], by simp [Receiver.start], by simp [Receiver.start]⟩

theorem Sound.turn (receiver : Receiver) (metadata : Metadata) : (receiver.turn metadata).Sound := by
  rw [Receiver.turn]
  split
  · exact ⟨by simp, by simp, by simp, by simp⟩
  · exact ⟨by simp [eq_comm], by simp, by simp, by simp⟩

theorem Sound.yield (sound : receiver.Sound) {tensorMeta : TensorMeta} {left : List TensorMeta}
    (yielding : receiver.phase = .yielding (tensorMeta :: left)) : (receiver.yield tensorMeta (.yielding left)).Sound :=
  ⟨sound.into, by simp [Receiver.yield], fun _ => sound.waiting (Or.inr ⟨_, yielding⟩), by simp [Receiver.yield]⟩

theorem Sound.drain (sound : receiver.Sound) {tensorMeta : TensorMeta} {left : List TensorMeta}
    (draining : receiver.phase = .draining (tensorMeta :: left)) : (receiver.yield tensorMeta (.draining left)).Sound :=
  ⟨sound.into, by simp [Receiver.yield], by simp [Receiver.yield], fun _ => sound.ended (Or.inl ⟨_, draining⟩)⟩

theorem Sound.stop (sound : receiver.Sound) (drained : receiver.phase = .draining []) :
    Sound { receiver with phase := .finished } :=
  ⟨sound.into, by simp, by simp, fun _ => sound.ended (Or.inl ⟨_, drained⟩)⟩

theorem Sound.receive (sound : receiver.Sound) {buffer : Buffer} (pending : receiver.incoming = .receiving buffer)
    (memory : Buffer → List UInt8) (metadata : Metadata) :
    Sound { receiver with memory := memory, incoming := .received metadata } := by
  refine ⟨by simp, ?_, by simp, ?_⟩
  · intro starting
    rw [sound.starting starting] at pending
    cases pending
  · intro ended
    rw [sound.ended ended] at pending
    cases pending

theorem obtained_start (sound : receiver.Sound) (starting : receiver.phase = .starting) :
    receiver.start.obtained = receiver.obtained := by
  simp only [obtained, holds_recvBuf, holds_other, sound.starting starting, starting]
  rfl

theorem obtained_turn {metadata : Metadata} (ready : receiver.phase = .first ∨ receiver.phase = .yielding [])
    (received : receiver.incoming = .received metadata) : (receiver.turn metadata).obtained = receiver.obtained := by
  have done : receiver.holds receiver.recvBuf.other = [] := by
    rw [holds_other]
    rcases ready with first | yielded
    · rw [first]
    · rw [yielded]
  have bucket : receiver.obtained = receiver.yielded ++ contents (receiver.memory receiver.recvBuf) metadata.bucketMeta := by
    rw [obtained, done, holds_recvBuf, received]
    simp [contents]
  rw [bucket, obtained, holds_other, holds_recvBuf, Receiver.turn]
  split
  · simp [contents]
  · simp [contents]

theorem obtained_yield {tensorMeta : TensorMeta} {left : List TensorMeta} {phase : ReceiverPhase}
    (now : receiver.phase = .yielding (tensorMeta :: left) ∧ phase = .yielding left ∨
      receiver.phase = .draining (tensorMeta :: left) ∧ phase = .draining left) :
    (receiver.yield tensorMeta phase).obtained = receiver.obtained := by
  have before : receiver.holds receiver.recvBuf.other = tensorMeta :: left := by
    rw [holds_other]
    rcases now with ⟨isPhase, _⟩ | ⟨isPhase, _⟩
    · rw [isPhase]
    · rw [isPhase]
  have after : (receiver.yield tensorMeta phase).holds receiver.recvBuf.other = left := by
    rw [show receiver.recvBuf.other = (receiver.yield tensorMeta phase).recvBuf.other from rfl, holds_other]
    rcases now with ⟨_, rfl⟩ | ⟨_, rfl⟩
    · rfl
    · rfl
  have others : (receiver.yield tensorMeta phase).holds receiver.recvBuf = receiver.holds receiver.recvBuf :=
    (holds_recvBuf (receiver.yield tensorMeta phase)).trans (holds_recvBuf receiver).symm
  simp only [obtained]
  change _ ++ contents _ (Receiver.holds _ receiver.recvBuf.other) ++ contents _ (Receiver.holds _ receiver.recvBuf) = _
  rw [before, after, others]
  simp [Receiver.yield, contents]

theorem obtained_stop (drained : receiver.phase = .draining []) :
    obtained { receiver with phase := .finished } = receiver.obtained := by
  simp only [obtained, holds_recvBuf, holds_other, drained]

theorem obtained_receive (sound : receiver.Sound) {buffer : Buffer} (pending : receiver.incoming = .receiving buffer)
    (bytes : List UInt8) (metadata : Metadata) : obtained { receiver with
        memory := Function.update receiver.memory buffer bytes
        incoming := .received metadata } = receiver.obtained ++ contents bytes metadata.bucketMeta := by
  obtain rfl := sound.into buffer pending
  simp only [obtained, holds_recvBuf, holds_other, pending, Function.update_self,
    Function.update_of_ne receiver.recvBuf.other_ne]
  simp [contents]

end Receiver

/-! ### Both sides -/

namespace State
open List

def stream (bucketSize : Nat) (state : State) : List (TensorMeta × List UInt8) :=
  state.receiver.obtained ++ state.network.flatMap (fun bucket => contents bucket.2 bucket.1.bucketMeta) ++
    state.sender.outgoing bucketSize

structure Sound (bucketSize : Nat) (state : State) : Prop where
  sender : state.sender.Sound bucketSize
  receiver : state.receiver.Sound

variable {bucketSize : Nat} {state next : State} {event : Event}

theorem Sound.step (sound : state.Sound bucketSize) (taken : Step bucketSize state event next) : next.Sound bucketSize := by
  obtain ⟨sender, receiver⟩ := sound
  cases taken with
  | place isNext ready => exact ⟨sender.place isNext ready, receiver⟩
  | flush isNext filling full free => exact ⟨sender.flush (by simp [isNext]), receiver⟩
  | finish isNext filling free => exact ⟨sender.finish isNext, receiver⟩
  | sent last free => exact ⟨sender.sent last free, receiver⟩
  | send pending => exact ⟨sender.send, receiver⟩
  | receive pending first => exact ⟨sender, receiver.receive pending _ _⟩
  | start starting => exact ⟨sender, .start _⟩
  | turn ready received => exact ⟨sender, .turn _ _⟩
  | yield yielding => exact ⟨sender, receiver.yield yielding⟩
  | drain draining => exact ⟨sender, receiver.drain draining⟩
  | stop drained => exact ⟨sender, receiver.stop drained⟩

theorem stream_step (sound : state.Sound bucketSize) (taken : Step bucketSize state event next) :
    next.stream bucketSize = state.stream bucketSize := by
  obtain ⟨sender, receiver⟩ := sound
  cases taken with
  | place isNext ready => simp only [stream, Sender.outgoing_place sender isNext ready]
  | flush isNext filling full free => simp only [stream, Sender.outgoing_flush isNext filling full free]
  | finish isNext filling free => simp only [stream, Sender.outgoing_finish isNext filling free]
  | sent last free => simp only [stream, Sender.outgoing_sent last]
  | send pending =>
    simp only [stream, Sender.outgoing_send pending, flatMap_append, flatMap_cons, flatMap_nil,
      append_nil, append_assoc]
  | receive pending first =>
    simp only [stream, first, Receiver.obtained_receive receiver pending, flatMap_cons, append_assoc]
  | start starting => simp only [stream, Receiver.obtained_start receiver starting]
  | turn ready received => simp only [stream, Receiver.obtained_turn ready received]
  | yield yielding => simp only [stream, Receiver.obtained_yield (Or.inl ⟨yielding, rfl⟩)]
  | drain draining => simp only [stream, Receiver.obtained_yield (Or.inr ⟨draining, rfl⟩)]
  | stop drained => simp only [stream, Receiver.obtained_stop drained]

theorem named_step (sound : state.Sound bucketSize) (named : state.sender.Named bucketSize)
    (taken : Step bucketSize state event next) : next.sender.Named bucketSize := by
  cases taken with
  | place isNext ready => exact named.place sound.sender isNext ready
  | flush isNext filling full free => exact named.flush
  | finish isNext filling free => exact ⟨by simp [Sender.finish], named.full, named.chunks⟩
  | sent last free => exact ⟨by simp, named.full, named.chunks⟩
  | send pending => exact ⟨named.notFailed, named.full, named.chunks⟩
  | receive => exact named
  | start => exact named
  | turn => exact named
  | yield => exact named
  | drain => exact named
  | stop => exact named

end State

/-! ### The last bucket -/

def Event.turned : Event → Option Metadata
  | .turn metadata => some metadata
  | _ => none

/-- The buckets that the receiver has turned to. -/
def turned (events : List Event) : List Metadata := events.filterMap Event.turned

namespace State
open List

def between (state : State) : List Metadata :=
  (match state.receiver.incoming with
    | .received metadata => [metadata]
    | _ => []) ++
  state.network.map Prod.fst ++
  match state.sender.broadcast with
  | some operation => [operation.2]
  | none => []

def marked (state : State) : Bool :=
  match state.sender.phase with
  | .last | .done => true
  | .filling | .placing | .failed => false

/-- Whether the receiver is behind its loop. -/
def stopped (state : State) : Bool :=
  match state.receiver.phase with
  | .draining _ | .finished => true
  | .starting | .first | .yielding _ => false

/-- Only the bucket that was sent last is marked, and the receiver leaves its loop with it. -/
structure Marked (events : List Event) (state : State) : Prop where
  marks : ∃ count, (turned events ++ state.between).map Metadata.isLast =
    List.replicate count false ++ if state.marked then [true] else []
  stops : state.stopped = true ↔ ∃ metadata ∈ turned events, metadata.isLast = true

variable {bucketSize : Nat} {state next : State} {events : List Event} {event : Event}

private theorem turned_other (other : event.turned = none) : turned (events ++ [event]) = turned events := by
  simp [turned, other]

private theorem Marked.other (marked : state.Marked events) (other : event.turned = none)
    (buckets : next.between = state.between) (mark : next.marked = state.marked) (stop : next.stopped = state.stopped) :
    next.Marked (events ++ [event]) := by
  refine ⟨?_, ?_⟩
  · rw [turned_other other, buckets, mark]
    exact marked.marks
  · rw [turned_other other, stop]
    exact marked.stops

private theorem Marked.broadcast (marked : state.Marked events) (unmarked : state.marked = false) (other : event.turned = none)
    (metadata : Metadata) (buckets : next.between = state.between ++ [metadata]) (mark : next.marked = metadata.isLast)
    (stop : next.stopped = state.stopped) : next.Marked (events ++ [event]) := by
  refine ⟨?_, ?_⟩
  · obtain ⟨count, marks⟩ := marked.marks
    rw [unmarked, if_neg Bool.false_ne_true, append_nil] at marks
    rw [turned_other other, buckets, mark, ← append_assoc, map_append, marks, map_singleton]
    cases metadata.isLast with
    | false =>
      refine ⟨count + 1, ?_⟩
      rw [if_neg Bool.false_ne_true, append_nil, replicate_succ']
    | true => exact ⟨count, by rw [if_pos rfl]⟩
  · rw [turned_other other, stop]
    exact marked.stops

private theorem place_keeps (bucketSize : Nat) (sender : Sender) (tensorMeta : TensorMeta) (chunk : Chunk) (rest : List (TensorMeta × Chunk)) :
    (sender.place bucketSize tensorMeta chunk rest).broadcast = sender.broadcast ∧
      ((sender.place bucketSize tensorMeta chunk rest).phase = .filling ∨
        (sender.place bucketSize tensorMeta chunk rest).phase = .failed) := by
  rw [Sender.place]
  split
  · split
    · exact ⟨rfl, Or.inl rfl⟩
    · exact ⟨rfl, Or.inr rfl⟩
  · exact ⟨rfl, Or.inr rfl⟩

theorem Marked.step (sound : state.Sound bucketSize) (marked : state.Marked events)
    (taken : Step bucketSize state event next) : next.Marked (events ++ [event]) := by
  cases taken with
  | @place tensorMeta chunk rest isNext ready =>
    obtain ⟨broadcast, phase⟩ := place_keeps bucketSize state.sender tensorMeta chunk rest
    refine marked.other rfl ?_ ?_ rfl
    · simp only [between, broadcast]
    · have unmarked : state.marked = false := by
        rcases ready with phase | ⟨phase, _⟩
        · simp [State.marked, phase]
        · simp [State.marked, phase]
      rw [unmarked]
      rcases phase with phase | phase
      · simp [State.marked, phase]
      · simp [State.marked, phase]
  | flush isNext filling full free =>
    exact marked.broadcast (by simp [State.marked, filling]) rfl ⟨state.sender.bucketMeta, false⟩
      (by simp only [between, free, Sender.flush, append_nil]) rfl rfl
  | finish isNext filling free =>
    exact marked.broadcast (by simp [State.marked, filling]) rfl ⟨state.sender.bucketMeta, true⟩
      (by simp only [between, free, Sender.finish, append_nil]) rfl rfl
  | sent last free => exact marked.other rfl rfl (by simp [State.marked, last]) rfl
  | send pending => exact marked.other rfl (by simp [between, pending]) rfl rfl
  | receive pending first => exact marked.other rfl (by simp [between, pending, first]) rfl rfl
  | start starting =>
    refine marked.other rfl ?_ rfl ?_
    · simp [between, Receiver.start, sound.receiver.starting starting]
    · simp [stopped, Receiver.start, starting]
  | @turn metadata ready received =>
    have unstopped : state.stopped = false := by
      rcases ready with phase | phase
      · simp [stopped, phase]
      · simp [stopped, phase]
    have more : turned (events ++ [.turn metadata]) = turned events ++ [metadata] := by simp [turned, Event.turned]
    have moved : state.between = metadata :: State.between { state with receiver := state.receiver.turn metadata } := by
      cases last : metadata.isLast with
      | true => simp [between, received, Receiver.turn, last]
      | false => simp [between, received, Receiver.turn, last]
    have stopping : State.stopped { state with receiver := state.receiver.turn metadata } = metadata.isLast := by
      cases last : metadata.isLast with
      | true => simp [stopped, Receiver.turn, last]
      | false => simp [stopped, Receiver.turn, last]
    refine ⟨?_, ?_⟩
    · have marks := marked.marks
      rwa [moved, ← singleton_append, ← append_assoc, ← more] at marks
    · have before : ¬ ∃ metadata ∈ turned events, metadata.isLast = true := by
        rw [← marked.stops, unstopped]
        exact Bool.false_ne_true
      rw [stopping, more]
      constructor
      · exact fun last => ⟨metadata, mem_append_right _ mem_cons_self, last⟩
      · rintro ⟨other, member, last⟩
        rcases mem_append.mp member with earlier | now
        · exact absurd ⟨other, earlier, last⟩ before
        · exact mem_singleton.mp now ▸ last
  | yield yielding => exact marked.other rfl rfl rfl (by simp [stopped, Receiver.yield, yielding])
  | drain draining => exact marked.other rfl rfl rfl (by simp [stopped, Receiver.yield, draining])
  | stop drained => exact marked.other rfl rfl rfl (by simp [stopped, drained])

theorem Marked.nothing_behind (marked : state.Marked events) {before after : List Metadata} {metadata : Metadata}
    (split : turned events ++ state.between = before ++ metadata :: after) (last : metadata.isLast = true) :
    after = [] ∧ state.marked = true := by
  obtain ⟨count, marks⟩ := marked.marks
  rw [split, map_append, map_cons, last] at marks
  cases isMarked : state.marked with
  | false =>
    rw [isMarked, if_neg Bool.false_ne_true, append_nil] at marks
    have absent : true ∈ replicate count false := by
      rw [← marks]
      simp
    simp at absent
  | true =>
    refine ⟨?_, rfl⟩
    rw [isMarked, if_pos rfl] at marks
    rcases eq_nil_or_concat' after with none | ⟨init, final, rfl⟩
    · exact none
    · rw [map_append, map_singleton, ← cons_append, ← append_assoc] at marks
      have absent : true ∈ replicate count false := by
        rw [← (append_inj' marks rfl).1]
        simp
      simp at absent

end State

end LLMFusion.NcclCheckpointEngine
