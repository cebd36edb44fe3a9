import LLMFusion.NixlCheckpointEngine
import LLMFusion.Proofs.NcclCheckpointEngine

/-! What the agents of a chain and the links between them keep. The buckets are those of the sender, in order; an
agent that has turned to a number of them has the last of these in its `send_buf`, and a link has at most one
bucket on its way. -/

namespace LLMFusion.NixlCheckpointEngine
open List
open CheckpointEngine
open NcclCheckpointEngine (Buffer Metadata Sender SenderPhase readChunk contents placed Sized)

abbrev Bucket := List (TensorMeta × List UInt8)

/-! ### Buckets -/

/-- The buckets of the sender, from one that is begun. -/
def packed (bucketSize : Nat) : Nat → Bucket → List (TensorMeta × Chunk) → List Bucket
  | _, current, [] => [current]
  | offset, current, (tensorMeta, chunk) :: rest =>
    if bucketSize < offset + tensorMeta.chunkSize then
      current :: packed bucketSize tensorMeta.chunkSize [({ tensorMeta with offset := some 0 }, chunk.bytes)] rest
    else
      packed bucketSize (offset + tensorMeta.chunkSize)
        (current ++ [({ tensorMeta with offset := some offset }, chunk.bytes)]) rest

theorem packed_ne_nil (bucketSize offset : Nat) (current : Bucket) (chunks : List (TensorMeta × Chunk)) :
    packed bucketSize offset current chunks ≠ [] := by
  induction chunks generalizing offset current with
  | nil => exact cons_ne_nil _ _
  | cons chunk chunks ih =>
    obtain ⟨tensorMeta, chunk⟩ := chunk
    rw [packed]
    split
    · exact cons_ne_nil _ _
    · exact ih _ _

theorem packed_flatten (bucketSize offset : Nat) (current : Bucket) (chunks : List (TensorMeta × Chunk)) :
    (packed bucketSize offset current chunks).flatten = current ++ placed bucketSize offset chunks := by
  induction chunks generalizing offset current with
  | nil => rfl
  | cons chunk chunks ih =>
    obtain ⟨tensorMeta, chunk⟩ := chunk
    rw [packed, placed]
    split
    · rw [flatten_cons, ih, Nat.zero_add]
      rfl
    · rw [ih, append_assoc]
      rfl

theorem packed_new {bucketSize : Nat} {tensorMeta : TensorMeta} {chunk : Chunk} (small : tensorMeta.chunkSize ≤ bucketSize)
    (rest : List (TensorMeta × Chunk)) : packed bucketSize 0 [] ((tensorMeta, chunk) :: rest) =
      packed bucketSize tensorMeta.chunkSize [({ tensorMeta with offset := some 0 }, chunk.bytes)] rest := by
  rw [packed, if_neg (by omega), Nat.zero_add]
  rfl

section Buckets
variable (buckets : List Bucket)

def bucketAt (number : Nat) : Bucket := buckets.getD number []

def metadataAt (number : Nat) : Metadata := ⟨(bucketAt buckets number).map Prod.fst, decide (number + 1 = buckets.length)⟩

def Holds (memory : Buffer → List UInt8) (buffer : Buffer) (number : Nat) : Prop :=
  contents (memory buffer) (metadataAt buckets number).bucketMeta = bucketAt buckets number

theorem contents_metas (bytes : List UInt8) (bucketMeta : List TensorMeta) : (contents bytes bucketMeta).map Prod.fst = bucketMeta := by
  rw [contents, map_map]
  exact map_id _

variable {buckets}

theorem holds_contents {memory : Buffer → List UInt8} {buffer : Buffer} {bucketMeta : List TensorMeta} {number : Nat}
    (bucket : bucketAt buckets number = contents (memory buffer) bucketMeta) :
    (metadataAt buckets number).bucketMeta = bucketMeta ∧ Holds buckets memory buffer number := by
  have metas : (metadataAt buckets number).bucketMeta = bucketMeta := by
    rw [metadataAt, bucket, contents_metas]
  refine ⟨metas, ?_⟩
  rw [Holds, metas, bucket]

theorem Holds.other {memory : Buffer → List UInt8} {buffer written : Buffer} {number : Nat} {bytes : List UInt8}
    (holds : Holds buckets memory buffer number) (different : buffer ≠ written) :
    Holds buckets (Function.update memory written bytes) buffer number := by
  rw [Holds, Function.update_of_ne different]
  exact holds

theorem bucketAt_drop {number : Nat} {bucket : Bucket} {rest : List Bucket} (later : buckets.drop number = bucket :: rest) :
    bucketAt buckets number = bucket ∧ buckets.drop (number + 1) = rest ∧ number < buckets.length := by
  have inside : number < buckets.length := by
    by_contra outside
    rw [drop_eq_nil_of_le (Nat.le_of_not_lt outside)] at later
    cases later
  rw [drop_eq_getElem_cons inside] at later
  obtain ⟨first, others⟩ := cons.inj later
  refine ⟨?_, others, inside⟩
  rw [bucketAt, getD_eq_getElem?_getD, getElem?_eq_getElem inside, Option.getD_some, first]

theorem flatten_take {number : Nat} (inside : number < buckets.length) :
    (buckets.take (number + 1)).flatten = (buckets.take number).flatten ++ bucketAt buckets number := by
  rw [take_succ_eq_append_getElem inside, flatten_append, flatten_singleton, bucketAt,
    getD_eq_getElem?_getD, getElem?_eq_getElem inside, Option.getD_some]

end Buckets

/-! ### The sender -/

structure SenderAt (buckets : List Bucket) (bucketSize announced : Nat) (sender : Sender) : Prop where
  sound : sender.Sound bucketSize
  named : sender.Named bucketSize
  bound : announced ≤ buckets.length
  packing : sender.phase = .filling ∨ sender.phase = .placing → buckets.drop announced =
    packed bucketSize sender.offset (contents (sender.memory sender.sendBuf) sender.bucketMeta) sender.chunks
  ended : sender.phase = .last ∨ sender.phase = .done → announced = buckets.length
  pending : ∀ buffer metadata, sender.broadcast = some (buffer, metadata) →
    0 < announced ∧ metadata = metadataAt buckets (announced - 1) ∧ Holds buckets sender.memory buffer (announced - 1)

section Sender
variable {buckets : List Bucket} {bucketSize announced : Nat} {sender : Sender}

section
variable (here : SenderAt buckets bucketSize announced sender) {tensorMeta : TensorMeta} {chunk : Chunk}
  {rest : List (TensorMeta × Chunk)} (next : sender.chunks = (tensorMeta, chunk) :: rest)
  (ready : sender.phase = .placing ∨ sender.phase = .filling ∧ sender.offset + tensorMeta.chunkSize ≤ bucketSize)
include here tensorMeta chunk rest next ready

theorem SenderAt.place : SenderAt buckets bucketSize announced (sender.place bucketSize tensorMeta chunk rest) := by
  have writing : sender.phase = .filling ∨ sender.phase = .placing := by
    rcases ready with placing | ⟨filling, _⟩
    · exact Or.inr placing
    · exact Or.inl filling
  have sound := here.sound.place next ready
  have named := here.named.place here.sound next ready
  obtain ⟨fits, ⟨_, failed⟩ | ⟨bytes, size, slice, before, written⟩⟩ := Sender.place_cases here.sound next ready
  · rw [failed] at named
    exact absurd rfl named.notFailed
  · rw [written] at sound named ⊢
    refine ⟨sound, named, here.bound, ?_, ?_, ?_⟩
    · intro _
      have packing := here.packing writing
      rw [next, packed, if_neg (Nat.not_lt.mpr fits)] at packing
      simp only [Function.update_self]
      rw [Sender.contents_placed here.sound slice before]
      exact packing
    · intro ended
      rcases ended with last | done
      · cases last
      · cases done
    · intro buffer metadata isPending
      obtain ⟨some, isMetadata, holds⟩ := here.pending buffer metadata isPending
      exact ⟨some, isMetadata, holds.other (here.sound.apart writing buffer metadata isPending)⟩

theorem SenderAt.place_keeps : (sender.place bucketSize tensorMeta chunk rest).broadcast = sender.broadcast ∧
      ∀ buffer, sender.broadcast.map Prod.fst = some buffer →
        (sender.place bucketSize tensorMeta chunk rest).memory buffer = sender.memory buffer := by
  have writing : sender.phase = .filling ∨ sender.phase = .placing := by
    rcases ready with placing | ⟨filling, _⟩
    · exact Or.inr placing
    · exact Or.inl filling
  obtain ⟨_, ⟨_, failed⟩ | ⟨bytes, _, _, _, written⟩⟩ := Sender.place_cases here.sound next ready
  · rw [failed]
    exact ⟨rfl, fun _ _ => rfl⟩
  · rw [written]
    refine ⟨rfl, ?_⟩
    intro buffer offered
    obtain ⟨operation, pending, rfl⟩ := Option.map_eq_some_iff.mp offered
    exact Function.update_of_ne (here.sound.apart writing operation.1 operation.2 pending) _ _

end

theorem next_bucket {rest : List Bucket}
    (later : buckets.drop announced = contents (sender.memory sender.sendBuf) sender.bucketMeta :: rest) (last : Bool)
    (isLast : last = true ↔ rest = []) : announced + 1 ≤ buckets.length ∧ buckets.drop (announced + 1) = rest ∧
      (⟨sender.bucketMeta, last⟩ : Metadata) = metadataAt buckets announced ∧
      Holds buckets sender.memory sender.sendBuf announced := by
  obtain ⟨bucket, others, inside⟩ := bucketAt_drop later
  obtain ⟨metas, holds⟩ := holds_contents bucket
  refine ⟨inside, others, ?_, holds⟩
  have ends : rest = [] ↔ announced + 1 = buckets.length := by
    rw [← others, drop_eq_nil_iff]
    omega
  have flag : (metadataAt buckets announced).isLast = last := by
    rw [metadataAt, Bool.eq_iff_iff, isLast, ends, decide_eq_true_iff]
  rw [← flag, ← metas]

section
variable (here : SenderAt buckets bucketSize announced sender)
include here

theorem SenderAt.flush {tensorMeta : TensorMeta} {chunk : Chunk}
    {rest : List (TensorMeta × Chunk)} (next : sender.chunks = (tensorMeta, chunk) :: rest) (filling : sender.phase = .filling)
    (full : bucketSize < sender.offset + tensorMeta.chunkSize) :
    SenderAt buckets bucketSize (announced + 1) sender.flush ∧
      (⟨sender.bucketMeta, false⟩ : Metadata) = metadataAt buckets announced ∧
      Holds buckets sender.memory sender.sendBuf announced := by
  have some : sender.chunks ≠ [] := by
    rw [next]
    exact cons_ne_nil _ _
  have packing := here.packing (.inl filling)
  rw [next, packed, if_pos full] at packing
  have more := packed_ne_nil bucketSize tensorMeta.chunkSize [({ tensorMeta with offset := Option.some 0 }, chunk.bytes)] rest
  obtain ⟨bound, others, metas, holds⟩ :=
    next_bucket packing false (iff_of_false Bool.false_ne_true more)
  refine ⟨⟨here.sound.flush some, here.named.flush, bound, ?_, ?_, ?_⟩, metas, holds⟩
  · intro _
    have small : tensorMeta.chunkSize ≤ bucketSize := (here.sound.sized (tensorMeta, chunk) (by simp [next])).2.1
    rw [others, ← packed_new small, ← next]
    rfl
  · intro ended
    rcases ended with last | done
    · cases last
    · cases done
  · intro buffer metadata isPending
    cases isPending
    exact ⟨Nat.succ_pos announced, metas, holds⟩

theorem SenderAt.finish (empty : sender.chunks = []) (filling : sender.phase = .filling) :
    SenderAt buckets bucketSize (announced + 1) sender.finish ∧
      (⟨sender.bucketMeta, true⟩ : Metadata) = metadataAt buckets announced ∧
      Holds buckets sender.memory sender.sendBuf announced := by
  have packing := here.packing (.inl filling)
  rw [empty, packed] at packing
  obtain ⟨bound, others, metas, holds⟩ := next_bucket packing true (iff_of_true rfl rfl)
  have named : sender.finish.Named bucketSize := ⟨by simp [Sender.finish], here.named.full, here.named.chunks⟩
  refine ⟨⟨here.sound.finish empty, named, bound, ?_, ?_, ?_⟩, metas, holds⟩
  · intro writing
    rcases writing with isFilling | isPlacing
    · cases isFilling
    · cases isPlacing
  · intro _
    exact Nat.le_antisymm bound (drop_eq_nil_iff.mp others)
  · intro buffer metadata isPending
    cases isPending
    exact ⟨Nat.succ_pos announced, metas, holds⟩

theorem SenderAt.sent (last : sender.phase = .last)
    (free : sender.broadcast = none) : SenderAt buckets bucketSize announced { sender with phase := .done } := by
  refine ⟨here.sound.sent last free, ⟨by simp, here.named.full, here.named.chunks⟩, here.bound, ?_, fun _ => here.ended (.inl last),
    here.pending⟩
  intro writing
  rcases writing with filling | placing
  · cases filling
  · cases placing

theorem SenderAt.waited : SenderAt buckets bucketSize announced (senderNotified sender true) :=
  ⟨here.sound.send, ⟨here.named.notFailed, here.named.full, here.named.chunks⟩, here.bound, here.packing, here.ended,
    fun _ _ isPending => (Option.some_ne_none _ isPending.symm).elim⟩

end

end Sender

/-! ### A receiver -/

namespace Receiver

/-- What is still to be yielded from `send_buf`. -/
def left (receiver : Receiver) : List TensorMeta :=
  match receiver.phase with
  | .waiting => receiver.metadata.bucketMeta
  | .yielding left | .draining left => left
  | _ => []

def begun (receiver : Receiver) (turns : Nat) : Nat := turns + (if receiver.read.isSome then 1 else 0)

def completed (receiver : Receiver) (turns : Nat) : Nat :=
  turns + (if receiver.read.any Read.done then 1 else 0)

end Receiver

def PhaseAt (total turns : Nat) (receiver : Receiver) : Prop :=
  match receiver.phase with
  | .starting => turns = 0 ∧ receiver.read = none ∧ receiver.readable = none
  | .first => turns = 0 ∧ receiver.read ≠ none ∧ receiver.readable = none
  | .waiting => 0 < turns ∧ turns < total ∧ receiver.read = none
  | .yielding _ => 0 < turns ∧ receiver.read ≠ none
  | .draining _ => 0 < turns ∧ turns = total ∧ receiver.read = none
  | .finished => 0 < turns ∧ turns = total ∧ receiver.read = none ∧ receiver.readable = none
  | .failed => False

structure ReceiverAt (buckets : List Bucket) (next : Prop) (turns : Nat) (receiver : Receiver) : Prop where
  bound : turns ≤ buckets.length
  phase : PhaseAt buckets.length turns receiver
  reading : ∀ read, receiver.read = some read → turns < buckets.length ∧ read.localDescs = receiver.sendBuf.other ∧
    read.metadata = metadataAt buckets turns ∧ (read.done = true → Holds buckets receiver.memory read.localDescs turns)
  current : 0 < turns → receiver.metadata = metadataAt buckets (turns - 1) ∧
    Holds buckets receiver.memory receiver.sendBuf (turns - 1)
  yielded : receiver.yielded ++ contents (receiver.memory receiver.sendBuf) receiver.left = (buckets.take turns).flatten
  offered : ∀ buffer, receiver.readable = some buffer → next ∧ buffer = receiver.sendBuf ∧ 0 < turns

section Receiver
variable {buckets : List Bucket} {next : Prop} {turns : Nat} {receiver : Receiver}

theorem ReceiverAt.idle (here : ReceiverAt buckets next turns receiver)
    (waits : receiver.phase = .starting ∨ receiver.phase = .waiting) : receiver.read = none := by
  have phase := here.phase
  rw [PhaseAt] at phase
  rcases waits with starting | waiting
  · rw [starting] at phase
    exact phase.2.1
  · rw [waiting] at phase
    exact phase.2.2

theorem ReceiverAt.begin (here : ReceiverAt buckets next turns receiver) {message : Message}
    (waits : receiver.phase = .starting ∨ receiver.phase = .waiting) (more : turns < buckets.length)
    (metadata : message.metadata = metadataAt buckets turns) : ReceiverAt buckets next turns (receiver.begin message) := by
  have phase := here.phase
  have yielded := here.yielded
  rw [PhaseAt] at phase
  rw [Receiver.left] at yielded
  refine ⟨here.bound, ?_, ?_, here.current, ?_, here.offered⟩
  · rcases waits with starting | waiting
    · rw [starting] at phase
      simp only [PhaseAt, Receiver.begin, starting]
      exact ⟨phase.1, Option.some_ne_none _, phase.2.2⟩
    · rw [waiting] at phase
      simp only [PhaseAt, Receiver.begin, waiting]
      exact ⟨phase.1, Option.some_ne_none _⟩
  · intro read isRead
    cases isRead
    exact ⟨more, rfl, metadata, fun done => (Bool.false_ne_true done).elim⟩
  · rcases waits with starting | waiting
    · simp only [Receiver.left, Receiver.begin, starting] at yielded ⊢
      exact yielded
    · simp only [Receiver.left, Receiver.begin, waiting] at yielded ⊢
      exact yielded

theorem ReceiverAt.complete (here : ReceiverAt buckets next turns receiver) {read : Read} (begun : receiver.read = some read)
    {bytes : List UInt8} (bucket : contents bytes (metadataAt buckets turns).bucketMeta = bucketAt buckets turns) :
    ReceiverAt buckets next turns (receiver.complete read bytes) := by
  obtain ⟨more, into, metadata, _⟩ := here.reading read begun
  have apart : receiver.sendBuf ≠ read.localDescs := by
    rw [into]
    exact receiver.sendBuf.other_ne.symm
  have phase := here.phase
  refine ⟨here.bound, ?_, ?_, ?_, ?_, here.offered⟩
  · simp only [PhaseAt, begun] at phase
    simp only [PhaseAt, Receiver.complete]
    cases isPhase : receiver.phase with
    | starting => exact absurd (isPhase ▸ phase : turns = 0 ∧ some read = none ∧ _).2.1 (Option.some_ne_none _)
    | first =>
      rw [isPhase] at phase
      exact ⟨phase.1, Option.some_ne_none _, phase.2.2⟩
    | waiting =>
      rw [isPhase] at phase
      exact absurd phase.2.2 (Option.some_ne_none _)
    | yielding left =>
      rw [isPhase] at phase
      exact ⟨phase.1, Option.some_ne_none _⟩
    | draining left =>
      rw [isPhase] at phase
      exact absurd phase.2.2 (Option.some_ne_none _)
    | finished =>
      rw [isPhase] at phase
      exact absurd phase.2.2.1 (Option.some_ne_none _)
    | failed =>
      rw [isPhase] at phase
      exact phase
  · intro other isRead
    cases isRead
    refine ⟨more, into, metadata, fun _ => ?_⟩
    have written : (receiver.complete read bytes).memory read.localDescs = bytes := Function.update_self _ _ _
    exact (congrArg (contents · _) written).trans bucket
  · intro some
    obtain ⟨current, holds⟩ := here.current some
    exact ⟨current, holds.other apart⟩
  · have same : (receiver.complete read bytes).memory receiver.sendBuf = receiver.memory receiver.sendBuf :=
      Function.update_of_ne apart _ _
    have yielded := here.yielded
    rw [← same] at yielded
    exact yielded

theorem ReceiverAt.left_nil (ready : receiver.phase = .first ∨ receiver.phase = .yielding []) : receiver.left = [] := by
  rcases ready with first | yielded
  · rw [Receiver.left, first]
  · rw [Receiver.left, yielded]

section
variable (here : ReceiverAt buckets next turns receiver)
include here

theorem ReceiverAt.turn {read : Read}
    (ready : receiver.phase = .first ∨ receiver.phase = .yielding []) (begun : receiver.read = some read)
    (done : read.done = true) {isNext : Bool} (known : isNext = true → next) :
    ReceiverAt buckets next (turns + 1) (receiver.turn read.metadata isNext) ∧ read.metadata = metadataAt buckets turns ∧
      Holds buckets receiver.memory receiver.sendBuf.other turns := by
  obtain ⟨more, into, metadata, holds⟩ := here.reading read begun
  have holds := holds done
  rw [into] at holds
  refine ⟨⟨more, ?_, fun _ isRead => (Option.some_ne_none _ isRead.symm).elim, fun _ => ⟨metadata, holds⟩, ?_, ?_⟩, metadata, holds⟩
  · rw [PhaseAt, Receiver.turn, metadata]
    by_cases last : turns + 1 = buckets.length
    · simp only [metadataAt, last, decide_true, if_true]
      exact ⟨Nat.lt_of_lt_of_le (Nat.succ_pos turns) (Nat.le_of_eq last), trivial, trivial⟩
    · simp only [metadataAt, last, decide_false, Bool.false_eq_true, if_false]
      exact ⟨Nat.succ_pos turns, Nat.lt_of_le_of_ne more last, trivial⟩
  · have yielded := here.yielded
    rw [ReceiverAt.left_nil ready] at yielded
    have left : (receiver.turn read.metadata isNext).left = (metadataAt buckets turns).bucketMeta := by
      rw [Receiver.left, Receiver.turn, metadata]
      cases last : (metadataAt buckets turns).isLast with
      | true => simp only [if_true]
      | false => simp only [Bool.false_eq_true, if_false]
    have before : receiver.yielded = (buckets.take turns).flatten := (append_nil _).symm.trans yielded
    rw [left, flatten_take more, ← before]
    exact congrArg (receiver.yielded ++ ·) holds
  · intro buffer isReadable
    cases isNext with
    | true =>
      cases isReadable
      exact ⟨known rfl, rfl, Nat.succ_pos turns⟩
    | false => cases isReadable

theorem ReceiverAt.yield {tensorMeta : TensorMeta} {left : List TensorMeta}
    {phase : Phase} (now : receiver.phase = .yielding (tensorMeta :: left) ∧ phase = .yielding left ∨
      receiver.phase = .draining (tensorMeta :: left) ∧ phase = .draining left) :
    ReceiverAt buckets next turns (receiver.yield tensorMeta phase) := by
  have before : receiver.left = tensorMeta :: left := by
    rcases now with ⟨isPhase, _⟩ | ⟨isPhase, _⟩
    · rw [Receiver.left, isPhase]
    · rw [Receiver.left, isPhase]
  have after : (receiver.yield tensorMeta phase).left = left := by
    rcases now with ⟨_, rfl⟩ | ⟨_, rfl⟩
    · rfl
    · rfl
  have yielded := here.yielded
  have isAt := here.phase
  rw [before] at yielded
  refine ⟨here.bound, ?_, here.reading, here.current, ?_, here.offered⟩
  · rcases now with ⟨isPhase, rfl⟩ | ⟨isPhase, rfl⟩
    · rw [PhaseAt, isPhase] at isAt
      exact isAt
    · rw [PhaseAt, isPhase] at isAt
      exact isAt
  · rw [after, ← yielded, Receiver.yield, append_assoc]
    rfl

theorem ReceiverAt.notified (yielded : receiver.phase = .yielding [] ∨ receiver.phase = .draining []) :
    ReceiverAt buckets next turns (receiver.notified true) := by
  have phase := here.phase
  refine ⟨here.bound, ?_, here.reading, here.current, here.yielded, fun _ isReadable => (Option.some_ne_none _ isReadable.symm).elim⟩
  rcases yielded with isPhase | isPhase
  · rw [PhaseAt, isPhase] at phase
    simp only [PhaseAt, Receiver.notified, if_true, isPhase]
    exact phase
  · rw [PhaseAt, isPhase] at phase
    simp only [PhaseAt, Receiver.notified, if_true, isPhase]
    exact phase

theorem ReceiverAt.stop (drained : receiver.phase = .draining [])
    (free : receiver.readable = none) : ReceiverAt buckets next turns { receiver with phase := .finished } := by
  have phase := here.phase
  have yielded := here.yielded
  rw [PhaseAt, drained] at phase
  rw [Receiver.left, drained] at yielded
  exact ⟨here.bound, ⟨phase.1, phase.2.1, phase.2.2, free⟩, here.reading, here.current, yielded, here.offered⟩

end

end Receiver

/-! ### Links -/

/-- What is on its way between an agent that has announced a number of buckets and the receiver behind it: nothing,
a message, a transfer, or a notification. -/
inductive LinkAt (buckets : List Bucket) (memory : Buffer → List UInt8) (readable : Option Buffer) (announced : Nat)
    (messages : List Message) (notifications : List Nat) (turns : Nat) (receiver : Receiver) : Prop where
  | idle (free : readable = none) (noMessage : messages = []) (noNotification : notifications = [])
      (begun : receiver.begun turns = announced) (completed : receiver.completed turns = announced)
  | announced {buffer : Buffer} (offered : readable = some buffer)
      (message : messages = [⟨announced, buffer, metadataAt buckets (announced - 1)⟩]) (noNotification : notifications = [])
      (holds : Holds buckets memory buffer (announced - 1)) (begun : receiver.begun turns + 1 = announced)
      (completed : receiver.completed turns + 1 = announced)
  | reading {buffer : Buffer} {read : Read} (offered : readable = some buffer) (noMessage : messages = [])
      (noNotification : notifications = []) (holds : Holds buckets memory buffer (announced - 1))
      (begun : receiver.read = some read) (running : read.done = false) (remote : read.remoteDescs = buffer)
      (key : read.notifyKey = announced) (turned : turns + 1 = announced)
  | copied {buffer : Buffer} (offered : readable = some buffer) (noMessage : messages = [])
      (notification : notifications = [announced]) (begun : receiver.begun turns = announced)
      (completed : receiver.completed turns = announced)

section Link
variable {buckets : List Bucket} {memory : Buffer → List UInt8} {readable : Option Buffer} {announced turns : Nat}
  {messages : List Message} {notifications : List Nat} {receiver : Receiver}

theorem begun_of_read (turns : Nat) {read : Read} (begun : receiver.read = some read) : receiver.begun turns = turns + 1 := by
  rw [Receiver.begun, begun]
  rfl

theorem completed_of_read (turns : Nat) {read : Read} (begun : receiver.read = some read) :
    receiver.completed turns = turns + (if read.done then 1 else 0) := by
  rw [Receiver.completed, begun]
  rfl

theorem begun_of_idle (turns : Nat) (idle : receiver.read = none) : receiver.begun turns = turns := by
  rw [Receiver.begun, idle]
  rfl

theorem LinkAt.write (linked : LinkAt buckets memory readable announced messages notifications turns receiver)
    {written : Buffer → List UInt8} (same : ∀ buffer, readable = some buffer → written buffer = memory buffer) :
    LinkAt buckets written readable announced messages notifications turns receiver := by
  have kept {buffer : Buffer} (offered : readable = some buffer) (holds : Holds buckets memory buffer (announced - 1)) :
      Holds buckets written buffer (announced - 1) := by
    rw [Holds, same buffer offered]
    exact holds
  cases linked with
  | idle free noMessage noNotification begun completed => exact .idle free noMessage noNotification begun completed
  | announced offered message noNotification holds begun completed =>
    exact .announced offered message noNotification (kept offered holds) begun completed
  | reading offered noMessage noNotification holds begun running remote key turned =>
    exact .reading offered noMessage noNotification (kept offered holds) begun running remote key turned
  | copied offered noMessage notification begun completed => exact .copied offered noMessage notification begun completed

theorem LinkAt.announce (linked : LinkAt buckets memory none announced messages notifications turns receiver)
    {written : Buffer → List UInt8} {buffer : Buffer} (holds : Holds buckets written buffer announced) :
    LinkAt buckets written (some buffer) (announced + 1) (messages ++ [⟨announced + 1, buffer, metadataAt buckets announced⟩])
      notifications turns receiver := by
  cases linked with
  | idle _ noMessage noNotification begun completed =>
    rw [noMessage]
    exact .announced rfl rfl noNotification holds (congrArg Nat.succ begun) (congrArg Nat.succ completed)
  | announced offered => cases offered
  | reading offered => cases offered
  | copied offered => cases offered

section
variable (linked : LinkAt buckets memory readable announced messages notifications turns receiver)
include linked

theorem LinkAt.notified {key : Nat} {rest : List Nat} (first : notifications = key :: rest) :
    announced = key ∧ LinkAt buckets memory none announced messages rest turns receiver := by
  cases linked with
  | idle _ _ noNotification =>
    rw [noNotification] at first
    cases first
  | announced _ _ noNotification =>
    rw [noNotification] at first
    cases first
  | reading _ _ noNotification =>
    rw [noNotification] at first
    cases first
  | copied offered noMessage notification begun completed =>
    rw [notification] at first
    obtain ⟨same, none_left⟩ := cons.inj first
    exact ⟨same, .idle rfl noMessage none_left.symm begun completed⟩

theorem LinkAt.message {message : Message} {rest : List Message} (first : messages = message :: rest) (idle : receiver.read = none) :
    turns + 1 = announced ∧ message.metadata = metadataAt buckets turns ∧
      LinkAt buckets memory readable announced rest notifications turns (receiver.begin message) := by
  cases linked with
  | idle _ noMessage =>
    rw [noMessage] at first
    cases first
  | announced offered isMessage noNotification holds begun completed =>
    rw [isMessage] at first
    obtain ⟨same, none_left⟩ := cons.inj first
    rw [begun_of_idle turns idle] at begun
    subst same
    subst begun
    exact ⟨rfl, rfl, .reading offered none_left.symm noNotification holds rfl rfl rfl rfl rfl⟩
  | reading _ noMessage =>
    rw [noMessage] at first
    cases first
  | copied _ noMessage =>
    rw [noMessage] at first
    cases first

theorem LinkAt.copy {read : Read} (begun : receiver.read = some read) (running : read.done = false) :
    readable = some read.remoteDescs ∧
      contents (memory read.remoteDescs) (metadataAt buckets turns).bucketMeta = bucketAt buckets turns ∧
      ∀ bytes, LinkAt buckets memory readable announced messages (notifications ++ [read.notifyKey]) turns
        (receiver.complete read bytes) := by
  have more := begun_of_read turns begun
  have none_done := completed_of_read turns begun
  rw [running] at none_done
  cases linked with
  | idle _ _ _ same completed =>
    rw [more] at same
    rw [none_done] at completed
    simp at completed
    omega
  | announced _ _ _ _ same completed =>
    rw [more] at same
    rw [none_done] at completed
    simp at completed
    omega
  | copied _ _ _ same completed =>
    rw [more] at same
    rw [none_done] at completed
    simp at completed
    omega
  | reading offered noMessage noNotification holds isRead _ remote key turned =>
    rw [begun] at isRead
    cases isRead
    subst turned
    refine ⟨remote.symm ▸ offered, remote.symm ▸ holds, fun bytes => ?_⟩
    rw [noNotification, key]
    exact .copied offered noMessage rfl rfl rfl

theorem LinkAt.turn {read : Read} (begun : receiver.read = some read) (done : read.done = true) (metadata : Metadata) (isNext : Bool) :
    LinkAt buckets memory readable announced messages notifications (turns + 1) (receiver.turn metadata isNext) := by
  have more := begun_of_read turns begun
  have all := completed_of_read turns begun
  rw [done, if_pos rfl] at all
  have begun' : (receiver.turn metadata isNext).begun (turns + 1) = turns + 1 := rfl
  have completed' : (receiver.turn metadata isNext).completed (turns + 1) = turns + 1 := rfl
  cases linked with
  | idle free noMessage noNotification same completed =>
    exact .idle free noMessage noNotification (begun'.trans (more.symm.trans same)) (completed'.trans (all.symm.trans completed))
  | announced offered message noNotification holds same completed =>
    rw [more] at same
    rw [all] at completed
    exact .announced offered message noNotification holds same completed
  | reading _ _ _ _ isRead running =>
    rw [begun] at isRead
    cases isRead
    exact (Bool.false_ne_true (running.symm.trans done)).elim
  | copied offered noMessage notification same completed =>
    exact .copied offered noMessage notification (begun'.trans (more.symm.trans same)) (completed'.trans (all.symm.trans completed))

theorem LinkAt.keep {receiver' : Receiver} (same : receiver'.read = receiver.read) :
    LinkAt buckets memory readable announced messages notifications turns receiver' := by
  have begun' : receiver'.begun turns = receiver.begun turns := by
    rw [Receiver.begun, same, Receiver.begun]
  have completed' : receiver'.completed turns = receiver.completed turns := by
    rw [Receiver.completed, same, Receiver.completed]
  cases linked with
  | idle free noMessage noNotification begun completed =>
    exact .idle free noMessage noNotification (begun'.trans begun) (completed'.trans completed)
  | announced offered message noNotification holds begun completed =>
    exact .announced offered message noNotification holds (begun' ▸ begun) (completed' ▸ completed)
  | reading offered noMessage noNotification holds begun running remote key turned =>
    exact .reading offered noMessage noNotification holds (same.trans begun) running remote key turned
  | copied offered noMessage notification begun completed =>
    exact .copied offered noMessage notification (begun'.trans begun) (completed'.trans completed)

end

end Link

end LLMFusion.NixlCheckpointEngine
