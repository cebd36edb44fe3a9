import LLMFusion.NcclCheckpointEngine

/-! The checkpoint engine over NIXL: a chain of a sender and receivers. An agent announces a bucket with a message;
the next agent reads it, notifies and announces it in turn, while it reads the following bucket into its other
buffer. `send_weights` packs chunks as over NCCL, with an announced bucket where there was a broadcast. -/

namespace LLMFusion.NixlCheckpointEngine
open CheckpointEngine
open NcclCheckpointEngine (Buffer Metadata Sender SenderPhase readChunk)

/-- The message of a `ReadableOperation`. The number of an operation among those of its agent is its key. -/
structure Message where
  notifyKey : Nat
  remoteDescs : Buffer
  metadata : Metadata

/-- A `ReadOperation` that has begun, with the metadata that it read. -/
structure Read where
  localDescs : Buffer
  remoteDescs : Buffer
  notifyKey : Nat
  metadata : Metadata
  done : Bool

/-- Where `_receive_weight_chunks` is: before the first metadata, before the first bucket, in the loop before the
next metadata or with the chunks that are still to be yielded, behind the loop, at its end, or at an assertion
that does not hold. -/
inductive Phase where
  | starting
  | first
  | waiting
  | yielding (left : List TensorMeta)
  | draining (left : List TensorMeta)
  | finished
  | failed
  deriving DecidableEq

/-- The local variables of `_receive_weight_chunks`, and what it has yielded. The variable `recv_buf` is the other
buffer; `metadata` is that of the bucket in `send_buf`, `readable` the announced buffer until its operation is
waited for. -/
structure Receiver where
  memory : Buffer → List UInt8
  sendBuf : Buffer
  read : Option Read
  readable : Option Buffer
  metadata : Metadata
  phase : Phase
  yielded : List (TensorMeta × List UInt8)

/-- `read_metadata` and `begin_read` -/
def Receiver.begin (receiver : Receiver) (message : Message) : Receiver :=
  { receiver with
    read := some ⟨receiver.sendBuf.other, message.remoteDescs, message.notifyKey, message.metadata, false⟩
    phase := match receiver.phase with
      | .waiting => .yielding receiver.metadata.bucketMeta
      | _ => .first }

/-- A transfer that is complete. -/
def Receiver.complete (receiver : Receiver) (read : Read) (bytes : List UInt8) : Receiver :=
  { receiver with
    memory := Function.update receiver.memory read.localDescs bytes
    read := some { read with done := true } }

/-- The buffers are swapped, and the bucket is announced if there is a next agent. -/
def Receiver.turn (receiver : Receiver) (metadata : Metadata) (next : Bool) : Receiver :=
  { receiver with
    sendBuf := receiver.sendBuf.other
    read := none
    readable := if next then some receiver.sendBuf.other else none
    metadata := metadata
    phase := if metadata.isLast then .draining metadata.bucketMeta else .waiting }

def Receiver.yield (receiver : Receiver) (tensorMeta : TensorMeta) (phase : Phase) : Receiver :=
  { receiver with
    phase := phase
    yielded := receiver.yielded ++ [readChunk (receiver.memory receiver.sendBuf) tensorMeta] }

/-- `wait_for_complete` of a `ReadableOperation`: the notification has its key. -/
def Receiver.notified (receiver : Receiver) (same : Bool) : Receiver :=
  if same then { receiver with readable := none } else { receiver with phase := .failed }

/-- The same in `send_weights`. -/
def senderNotified (sender : Sender) (same : Bool) : Sender :=
  if same then { sender with broadcast := none } else { sender with phase := .failed }

/-- `send_weights` waits for the announced bucket when the next chunk does not fit, and at the end. -/
def Awaits (bucketSize : Nat) (sender : Sender) : Prop :=
  sender.phase = .last ∨ sender.phase = .filling ∧
    ∀ chunk rest, sender.chunks = chunk :: rest → bucketSize < sender.offset + chunk.1.chunkSize

/-! ### The chain -/

/-- The sender and the receivers, the messages and the notifications on their way between an agent and the next
one, and how many operations an agent has made. The sender is agent `0`, a receiver the agent after its index:
messages and notifications are numbered by the agent that announces. -/
structure State where
  sender : Sender
  receivers : Nat → Receiver
  messages : Nat → List Message
  notifications : Nat → List Nat
  operations : Nat → Nat

namespace State

def memory (state : State) : Nat → Buffer → List UInt8
  | 0 => state.sender.memory
  | agent + 1 => (state.receivers agent).memory

/-- The buffer that an agent has announced and not waited for. -/
def readable (state : State) : Nat → Option Buffer
  | 0 => state.sender.broadcast.map Prod.fst
  | agent + 1 => (state.receivers agent).readable

/-- `ReadableOperation`: a key of its own and a message to the next agent. -/
def announce (state : State) (agent : Nat) (buffer : Buffer) (metadata : Metadata) : State :=
  { state with
    messages := Function.update state.messages agent
      (state.messages agent ++ [⟨state.operations agent + 1, buffer, metadata⟩])
    operations := Function.update state.operations agent (state.operations agent + 1) }

def setReceiver (state : State) (index : Nat) (receiver : Receiver) : State :=
  { state with receivers := Function.update state.receivers index receiver }

end State

inductive Event where
  | place
  | flush
  | finish
  | sent
  | waited
  | message (index : Nat)
  | copy (index : Nat)
  | turn (index : Nat) (metadata : Metadata)
  | yield (index : Nat)
  | notified (index : Nat)
  | stop (index : Nat)

/-- The steps of the agents between two points where they wait, and the transfers. A transfer takes the bytes of
the buffer of the agent before and notifies it. -/
inductive Step (bucketSize receivers : Nat) : State → Event → State → Prop where
  | place {state : State} {tensorMeta : TensorMeta} {chunk : Chunk} {rest : List (TensorMeta × Chunk)}
      (next : state.sender.chunks = (tensorMeta, chunk) :: rest)
      (ready : state.sender.phase = .placing ∨
        state.sender.phase = .filling ∧ state.sender.offset + tensorMeta.chunkSize ≤ bucketSize) :
      Step bucketSize receivers state .place { state with sender := state.sender.place bucketSize tensorMeta chunk rest }
  | flush {state : State} {tensorMeta : TensorMeta} {chunk : Chunk} {rest : List (TensorMeta × Chunk)}
      (next : state.sender.chunks = (tensorMeta, chunk) :: rest) (filling : state.sender.phase = .filling)
      (full : bucketSize < state.sender.offset + tensorMeta.chunkSize) (free : state.sender.broadcast = none) :
      Step bucketSize receivers state .flush
        (State.announce { state with sender := state.sender.flush } 0 state.sender.sendBuf ⟨state.sender.bucketMeta, false⟩)
  | finish {state : State} (next : state.sender.chunks = []) (filling : state.sender.phase = .filling)
      (free : state.sender.broadcast = none) :
      Step bucketSize receivers state .finish
        (State.announce { state with sender := state.sender.finish } 0 state.sender.sendBuf ⟨state.sender.bucketMeta, true⟩)
  | sent {state : State} (last : state.sender.phase = .last) (free : state.sender.broadcast = none) :
      Step bucketSize receivers state .sent { state with sender := { state.sender with phase := .done } }
  | waited {state : State} {operation : Buffer × Metadata} {key : Nat} {notifications : List Nat}
      (awaits : Awaits bucketSize state.sender) (pending : state.sender.broadcast = some operation)
      (first : state.notifications 0 = key :: notifications) :
      Step bucketSize receivers state .waited
        { state with
          sender := senderNotified state.sender (state.operations 0 == key)
          notifications := Function.update state.notifications 0 notifications }
  | message {state : State} {index : Nat} {message : Message} {messages : List Message} (inside : index < receivers)
      (waits : (state.receivers index).phase = .starting ∨ (state.receivers index).phase = .waiting)
      (first : state.messages index = message :: messages) :
      Step bucketSize receivers state (.message index)
        (State.setReceiver { state with messages := Function.update state.messages index messages } index
          ((state.receivers index).begin message))
  | copy {state : State} {index : Nat} {read : Read} (inside : index < receivers)
      (begun : (state.receivers index).read = some read) (running : read.done = false) :
      Step bucketSize receivers state (.copy index)
        (State.setReceiver { state with
            notifications := Function.update state.notifications index (state.notifications index ++ [read.notifyKey]) }
          index ((state.receivers index).complete read (state.memory index read.remoteDescs)))
  | turn {state : State} {index : Nat} {read : Read} (inside : index + 1 < receivers)
      (ready : (state.receivers index).phase = .first ∨ (state.receivers index).phase = .yielding [])
      (free : (state.receivers index).readable = none) (begun : (state.receivers index).read = some read)
      (done : read.done = true) :
      Step bucketSize receivers state (.turn index read.metadata)
        (State.announce (state.setReceiver index ((state.receivers index).turn read.metadata true)) (index + 1)
          (state.receivers index).sendBuf.other read.metadata)
  | turnLast {state : State} {index : Nat} {read : Read} (last : index + 1 = receivers)
      (ready : (state.receivers index).phase = .first ∨ (state.receivers index).phase = .yielding [])
      (free : (state.receivers index).readable = none) (begun : (state.receivers index).read = some read)
      (done : read.done = true) :
      Step bucketSize receivers state (.turn index read.metadata)
        (state.setReceiver index ((state.receivers index).turn read.metadata false))
  | yield {state : State} {index : Nat} {tensorMeta : TensorMeta} {left : List TensorMeta} (inside : index < receivers)
      (yielding : (state.receivers index).phase = .yielding (tensorMeta :: left)) :
      Step bucketSize receivers state (.yield index)
        (state.setReceiver index ((state.receivers index).yield tensorMeta (.yielding left)))
  | drain {state : State} {index : Nat} {tensorMeta : TensorMeta} {left : List TensorMeta} (inside : index < receivers)
      (draining : (state.receivers index).phase = .draining (tensorMeta :: left)) :
      Step bucketSize receivers state (.yield index)
        (state.setReceiver index ((state.receivers index).yield tensorMeta (.draining left)))
  | notified {state : State} {index : Nat} {buffer : Buffer} {key : Nat} {notifications : List Nat} (inside : index < receivers)
      (yielded : (state.receivers index).phase = .yielding [] ∨ (state.receivers index).phase = .draining [])
      (pending : (state.receivers index).readable = some buffer)
      (first : state.notifications (index + 1) = key :: notifications) :
      Step bucketSize receivers state (.notified index)
        (State.setReceiver { state with notifications := Function.update state.notifications (index + 1) notifications }
          index ((state.receivers index).notified (state.operations (index + 1) == key)))
  | stop {state : State} {index : Nat} (inside : index < receivers) (drained : (state.receivers index).phase = .draining [])
      (free : (state.receivers index).readable = none) :
      Step bucketSize receivers state (.stop index)
        (state.setReceiver index { state.receivers index with phase := .finished })

/-- The sender and a receiver at the start of a transfer, with buffers of any content. -/
structure Started (bucketSize receivers : Nat) (weights : List Weight) (state : State) : Prop where
  sendMemory : ∀ buffer, (state.sender.memory buffer).length = bucketSize
  sendBuf : state.sender.sendBuf = .send
  broadcast : state.sender.broadcast = none
  bucketMeta : state.sender.bucketMeta = []
  offset : state.sender.offset = 0
  chunks : state.sender.chunks = splitWeightChunks weights bucketSize
  filling : state.sender.phase = .filling
  recvMemory : ∀ index < receivers, ∀ buffer, ((state.receivers index).memory buffer).length = bucketSize
  recvBuf : ∀ index < receivers, (state.receivers index).sendBuf = .send
  read : ∀ index < receivers, (state.receivers index).read = none
  readable : ∀ index < receivers, (state.receivers index).readable = none
  starting : ∀ index < receivers, (state.receivers index).phase = .starting
  yielded : ∀ index < receivers, (state.receivers index).yielded = []
  messages : ∀ agent, state.messages agent = []
  notifications : ∀ agent, state.notifications agent = []
  operations : ∀ agent, state.operations agent = 0

end LLMFusion.NixlCheckpointEngine
