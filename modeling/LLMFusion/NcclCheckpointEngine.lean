import LLMFusion.CheckpointEngine
import LLMFusion.Lib.Runs

/-! The checkpoint engine over NCCL. The sender packs chunks into one of two buffers
while the other one is broadcast; the receiver yields the chunks of one buffer while the
next bucket is received into the other. Broadcasts take place in the background. -/

namespace LLMFusion.NcclCheckpointEngine
open CheckpointEngine

/-- `self.send_buf` and `self.recv_buf` -/
inductive Buffer where
  | send
  | recv
  deriving DecidableEq, Repr

def Buffer.other : Buffer → Buffer
  | .send => .recv
  | .recv => .send

structure Metadata where
  bucketMeta : List TensorMeta
  isLast : Bool
  deriving DecidableEq

/-! ### The sender -/

/-- Where `send_weights` is: before the next chunk, behind the check that it fits, before
the last broadcast is complete, at its end, or at an assertion that does not hold. -/
inductive SenderPhase where
  | filling
  | placing
  | last
  | done
  | failed
  deriving DecidableEq, Repr

/-- The local variables of `send_weights`. The entries of `bucket_meta` are in the order
of their insertion, each under its own name. A broadcast is there until it is complete. -/
structure Sender where
  memory : Buffer → List UInt8
  sendBuf : Buffer
  broadcast : Option (Buffer × Metadata)
  bucketMeta : List TensorMeta
  offset : Nat
  chunks : List (TensorMeta × Chunk)
  phase : SenderPhase

/-- The assertions, and the chunk in the bucket. -/
def Sender.place (bucketSize : Nat) (sender : Sender) (tensorMeta : TensorMeta) (chunk : Chunk)
    (rest : List (TensorMeta × Chunk)) : Sender :=
  if sender.offset + tensorMeta.chunkSize ≤ bucketSize ∧ tensorMeta.name ∉ sender.bucketMeta.map TensorMeta.name then
    match Slices.assign (sender.memory sender.sendBuf) sender.offset (sender.offset + tensorMeta.chunkSize) chunk.bytes with
    | some bytes =>
      { sender with
        memory := Function.update sender.memory sender.sendBuf bytes
        bucketMeta := sender.bucketMeta ++ [{ tensorMeta with offset := some sender.offset }]
        offset := sender.offset + tensorMeta.chunkSize
        chunks := rest
        phase := .filling }
    | none => { sender with phase := .failed }
  else { sender with phase := .failed }

/-- A broadcast of the bucket, with the buffers swapped and a new bucket begun. -/
def Sender.flush (sender : Sender) : Sender :=
  { sender with
    broadcast := some (sender.sendBuf, ⟨sender.bucketMeta, false⟩)
    sendBuf := sender.sendBuf.other
    bucketMeta := []
    offset := 0
    phase := .placing }

def Sender.finish (sender : Sender) : Sender :=
  { sender with
    broadcast := some (sender.sendBuf, ⟨sender.bucketMeta, true⟩)
    phase := .last }

/-! ### The receiver -/

/-- Where `_receive_weight_chunks` is: before the first broadcast, waiting for it, in the
loop with the chunks that are still to be yielded, behind the loop, or at its end. -/
inductive ReceiverPhase where
  | starting
  | first
  | yielding (left : List TensorMeta)
  | draining (left : List TensorMeta)
  | finished
  deriving DecidableEq

/-- A broadcast into a buffer, and its metadata when it is complete. -/
inductive Incoming where
  | none
  | receiving (into : Buffer)
  | received (metadata : Metadata)
  deriving DecidableEq

/-- The local variables of `_receive_weight_chunks`, and what it has yielded. The
variable `send_buf` is the other buffer. -/
structure Receiver where
  memory : Buffer → List UInt8
  recvBuf : Buffer
  incoming : Incoming
  phase : ReceiverPhase
  yielded : List (TensorMeta × List UInt8)

/-- `send_buf[tensor_meta.offset : tensor_meta.offset + tensor_meta.chunk_size]` -/
def readChunk (bytes : List UInt8) (tensorMeta : TensorMeta) : TensorMeta × List UInt8 :=
  (tensorMeta, Slices.slice bytes (tensorMeta.offset.getD 0) (tensorMeta.offset.getD 0 + tensorMeta.chunkSize))

def Receiver.start (receiver : Receiver) : Receiver :=
  { receiver with
    incoming := .receiving receiver.recvBuf
    phase := .first }

/-- The buffers are swapped, and unless the bucket is the last one the next one is received. -/
def Receiver.turn (receiver : Receiver) (metadata : Metadata) : Receiver :=
  if metadata.isLast then
    { receiver with
      recvBuf := receiver.recvBuf.other
      incoming := .none
      phase := .draining metadata.bucketMeta }
  else
    { receiver with
      recvBuf := receiver.recvBuf.other
      incoming := .receiving receiver.recvBuf.other
      phase := .yielding metadata.bucketMeta }

def Receiver.yield (receiver : Receiver) (tensorMeta : TensorMeta) (phase : ReceiverPhase) : Receiver :=
  { receiver with
    phase := phase
    yielded := receiver.yielded ++ [readChunk (receiver.memory receiver.recvBuf.other) tensorMeta] }

/-! ### Both sides -/

/-- The sender, the buckets on their way in order, and a receiver. -/
structure State where
  sender : Sender
  network : List (Metadata × List UInt8)
  receiver : Receiver

inductive Event where
  | place
  | flush
  | finish
  | sent
  | send
  | receive
  | start
  | turn (metadata : Metadata)
  | yield
  | stop

/-- The steps of the coroutines between two points where they wait, and the broadcasts. A
broadcast takes the bytes of the buffer when it is complete on the side of the sender. -/
inductive Step (bucketSize : Nat) : State → Event → State → Prop where
  | place {state : State} {tensorMeta : TensorMeta} {chunk : Chunk} {rest : List (TensorMeta × Chunk)}
      (next : state.sender.chunks = (tensorMeta, chunk) :: rest)
      (ready : state.sender.phase = .placing ∨
        state.sender.phase = .filling ∧ state.sender.offset + tensorMeta.chunkSize ≤ bucketSize) :
      Step bucketSize state .place { state with sender := state.sender.place bucketSize tensorMeta chunk rest }
  | flush {state : State} {tensorMeta : TensorMeta} {chunk : Chunk} {rest : List (TensorMeta × Chunk)}
      (next : state.sender.chunks = (tensorMeta, chunk) :: rest) (filling : state.sender.phase = .filling)
      (full : bucketSize < state.sender.offset + tensorMeta.chunkSize) (free : state.sender.broadcast = none) :
      Step bucketSize state .flush { state with sender := state.sender.flush }
  | finish {state : State} (next : state.sender.chunks = []) (filling : state.sender.phase = .filling)
      (free : state.sender.broadcast = none) :
      Step bucketSize state .finish { state with sender := state.sender.finish }
  | sent {state : State} (last : state.sender.phase = .last) (free : state.sender.broadcast = none) :
      Step bucketSize state .sent { state with sender := { state.sender with phase := .done } }
  | send {state : State} {buffer : Buffer} {metadata : Metadata}
      (pending : state.sender.broadcast = some (buffer, metadata)) :
      Step bucketSize state .send
        { state with
          sender := { state.sender with broadcast := none }
          network := state.network ++ [(metadata, state.sender.memory buffer)] }
  | receive {state : State} {buffer : Buffer} {metadata : Metadata} {bytes : List UInt8}
      {network : List (Metadata × List UInt8)} (pending : state.receiver.incoming = .receiving buffer)
      (first : state.network = (metadata, bytes) :: network) :
      Step bucketSize state .receive
        { state with
          network := network
          receiver :=
            { state.receiver with
              memory := Function.update state.receiver.memory buffer bytes
              incoming := .received metadata } }
  | start {state : State} (starting : state.receiver.phase = .starting) :
      Step bucketSize state .start { state with receiver := state.receiver.start }
  | turn {state : State} {metadata : Metadata}
      (ready : state.receiver.phase = .first ∨ state.receiver.phase = .yielding [])
      (received : state.receiver.incoming = .received metadata) :
      Step bucketSize state (.turn metadata) { state with receiver := state.receiver.turn metadata }
  | yield {state : State} {tensorMeta : TensorMeta} {left : List TensorMeta}
      (yielding : state.receiver.phase = .yielding (tensorMeta :: left)) :
      Step bucketSize state .yield { state with receiver := state.receiver.yield tensorMeta (.yielding left) }
  | drain {state : State} {tensorMeta : TensorMeta} {left : List TensorMeta}
      (draining : state.receiver.phase = .draining (tensorMeta :: left)) :
      Step bucketSize state .yield { state with receiver := state.receiver.yield tensorMeta (.draining left) }
  | stop {state : State} (drained : state.receiver.phase = .draining []) :
      Step bucketSize state .stop { state with receiver := { state.receiver with phase := .finished } }

/-- Both sides at the start of a transfer, with buffers of any content. -/
structure Started (bucketSize : Nat) (weights : List Weight) (state : State) : Prop where
  sendMemory : ∀ buffer, (state.sender.memory buffer).length = bucketSize
  sendBuf : state.sender.sendBuf = .send
  broadcast : state.sender.broadcast = none
  bucketMeta : state.sender.bucketMeta = []
  offset : state.sender.offset = 0
  chunks : state.sender.chunks = splitWeightChunks weights bucketSize
  filling : state.sender.phase = .filling
  network : state.network = []
  recvMemory : ∀ buffer, (state.receiver.memory buffer).length = bucketSize
  recvBuf : state.receiver.recvBuf = .recv
  incoming : state.receiver.incoming = .none
  starting : state.receiver.phase = .starting
  yielded : state.receiver.yielded = []

end LLMFusion.NcclCheckpointEngine
