import LLMFusion.BucketedWeightTransfer
import LLMFusion.Lib.Runs

/-! The sender and the receiver of weights as two processes. They share the buffer; requests and
answers are delivered in order. -/

namespace LLMFusion.BucketedWeightTransfer
open CheckpointEngine

structure Metadata where
  bucketMeta : List (String × TensorMetadata)
  isLast : Bool
  deriving DecidableEq

/-- What the sender sends: its buffer, or the metadata of a bucket. -/
inductive Request where
  | commMetadata
  | bucket (metadata : Metadata)
  deriving DecidableEq

/-! ### The sender -/

/-- What the sender does behind an answer: begin, start a new bucket, take the next weight, or end. -/
inductive Behind where
  | opened
  | flushed
  | sentDirectly
  | finished
  deriving DecidableEq, Repr

/-- Where `async_send_weights` is: before its first request, before the next weight, behind the check
that the bucket has room for it, before an answer, at its end, or at an error. -/
inductive SenderPhase where
  | starting
  | filling
  | placing
  | awaiting (request : Request) (behind : Behind)
  | done
  | failed
  deriving DecidableEq

/-! ### The receiver -/

/-- An item of `weights`: a tensor of its own, or a view of the buffer. -/
inductive Held where
  | own (tensor : Tensor)
  | view (entry : TensorMetadata)
  deriving DecidableEq

/-- The body of the loop over `bucket_meta`. With shared memory the tensor is copied to the device. -/
def receiveEntry (useShm : Bool) (buffer : List UInt8) (entry : String × TensorMetadata) : Except Failure (String × Held) :=
  receiveTensor buffer entry >>= fun received =>
    .ok (received.1, if useShm || entry.2.handle.isSome then .own received.2 else .view entry.2)

/-- What the callback finds. -/
def readHeld (buffer : List UInt8) : String × Held → Except Failure (String × Tensor)
  | (name, .own tensor) => .ok (name, tensor)
  | (name, .view entry) => receiveTensor buffer (name, entry)

/-- Where `receive_weights` is: before the first request, before its answer, before the next request,
in the loop over the entries that are left, before an answer, behind the loop, or at an error. -/
inductive ReceiverPhase where
  | starting
  | opened
  | waiting
  | reading (metadata : Metadata) (left : List (String × TensorMetadata)) (weights : List (String × Held))
  | called (metadata : Metadata)
  | left
  | failed
  deriving DecidableEq

/-! ### Both sides -/

/-- The bucket with the shared buffer, the weights that are still to come, the requests and answers on
their way, and the lists that the callback got. -/
structure State where
  bucket : Bucket
  weights : List Weight
  sender : SenderPhase
  requests : List Request
  answers : Nat
  receiver : ReceiverPhase
  delivered : List (List (String × Tensor))

inductive Event where
  | send (request : Request)
  | write (start stop : Nat)
  | acknowledged
  | receive (request : Request)
  | read
  | callback (weights : List (String × Tensor))
  | answer (metadata : Metadata)
  | opened
  | fail
  deriving DecidableEq

def State.send (state : State) (request : Request) (behind : Behind) : State :=
  { state with sender := .awaiting request behind, requests := state.requests ++ [request] }

/-- Behind `self.socket.recv()`. -/
def State.resume (state : State) : Behind → State
  | .opened => { state with sender := .filling }
  | .flushed => { state with bucket := state.bucket.reset, sender := .placing }
  | .sentDirectly => { state with weights := state.weights.tail, sender := .filling }
  | .finished => { state with sender := .done }

/-- The check that the bucket has no room for a weight, and is not empty. -/
def Bucket.Full (bucketSize : Nat) (bucket : Bucket) (weight : Weight) : Prop :=
  bucketSize < bucket.offset + weight.tensor.nbytes ∧ bucket.bucketMeta ≠ []

/-- The steps of both sides between two accesses to the sockets or to the buffer. -/
inductive Step (bucketSize : Nat) (useShm : Bool) : State → Event → State → Prop where
  | initBuffer {state : State} (starting : state.sender = .starting) :
    Step bucketSize useShm state (.send .commMetadata) (state.send .commMetadata .opened)
  | acknowledged {state : State} {request : Request} {behind : Behind} {answers : Nat}
    (awaiting : state.sender = .awaiting request behind) (answered : state.answers = answers + 1) :
    Step bucketSize useShm state .acknowledged ({ state with answers := answers }.resume behind)
  | flush {state : State} {weight : Weight} {rest : List Weight} (filling : state.sender = .filling)
    (next : state.weights = weight :: rest) (full : state.bucket.Full bucketSize weight) :
    Step bucketSize useShm state (.send (.bucket ⟨state.bucket.bucketMeta, false⟩))
      (state.send (.bucket ⟨state.bucket.bucketMeta, false⟩) .flushed)
  | place {state : State} {weight : Weight} {rest : List Weight} {bucket : Bucket} (next : state.weights = weight :: rest)
    (ready : state.sender = .placing ∨ state.sender = .filling ∧ ¬ state.bucket.Full bucketSize weight)
    (put : putWeight bucketSize useShm state.bucket weight = ([], .ok bucket)) :
    Step bucketSize useShm state (.write state.bucket.offset (state.bucket.offset + weight.tensor.nbytes))
      { state with bucket := bucket, weights := rest, sender := .filling }
  | sendDirectly {state : State} {weight : Weight} {rest : List Weight} {bucket : Bucket} {message : Message}
    (next : state.weights = weight :: rest)
    (ready : state.sender = .placing ∨ state.sender = .filling ∧ ¬ state.bucket.Full bucketSize weight)
    (put : putWeight bucketSize useShm state.bucket weight = ([message], .ok bucket)) :
    Step bucketSize useShm state (.send (.bucket ⟨message.bucketMeta, message.isLast⟩))
      (state.send (.bucket ⟨message.bucketMeta, message.isLast⟩) .sentDirectly)
  | refuse {state : State} {weight : Weight} {rest : List Weight} {messages : List Message} {failure : Failure}
    (next : state.weights = weight :: rest)
    (ready : state.sender = .placing ∨ state.sender = .filling ∧ ¬ state.bucket.Full bucketSize weight)
    (put : putWeight bucketSize useShm state.bucket weight = (messages, .error failure)) :
    Step bucketSize useShm state .fail { state with sender := .failed }
  | finish {state : State} (filling : state.sender = .filling) (next : state.weights = []) :
    Step bucketSize useShm state (.send (.bucket ⟨state.bucket.bucketMeta, true⟩))
      (state.send (.bucket ⟨state.bucket.bucketMeta, true⟩) .finished)
  | receiveBuffer {state : State} {requests : List Request} (starting : state.receiver = .starting)
    (first : state.requests = .commMetadata :: requests) :
    Step bucketSize useShm state (.receive .commMetadata) { state with requests := requests, receiver := .opened }
  | answerBuffer {state : State} (opened : state.receiver = .opened) :
    Step bucketSize useShm state .opened { state with answers := state.answers + 1, receiver := .waiting }
  | receive {state : State} {metadata : Metadata} {requests : List Request} (waiting : state.receiver = .waiting)
    (first : state.requests = .bucket metadata :: requests) :
    Step bucketSize useShm state (.receive (.bucket metadata))
      { state with requests := requests, receiver := .reading metadata metadata.bucketMeta [] }
  | read {state : State} {metadata : Metadata} {entry : String × TensorMetadata} {left : List (String × TensorMetadata)}
    {weights : List (String × Held)} {weight : String × Held} (reading : state.receiver = .reading metadata (entry :: left) weights)
    (received : receiveEntry useShm state.bucket.buffer entry = .ok weight) :
    Step bucketSize useShm state .read { state with receiver := .reading metadata left (weights ++ [weight]) }
  | readFails {state : State} {metadata : Metadata} {entry : String × TensorMetadata} {left : List (String × TensorMetadata)}
    {weights : List (String × Held)} {failure : Failure} (reading : state.receiver = .reading metadata (entry :: left) weights)
    (received : receiveEntry useShm state.bucket.buffer entry = .error failure) :
    Step bucketSize useShm state .fail { state with receiver := .failed }
  | callback {state : State} {metadata : Metadata} {weights : List (String × Held)} {tensors : List (String × Tensor)}
    (reading : state.receiver = .reading metadata [] weights) (found : weights.mapM (readHeld state.bucket.buffer) = .ok tensors) :
    Step bucketSize useShm state (.callback tensors)
      { state with receiver := .called metadata, delivered := state.delivered ++ [tensors] }
  | answer {state : State} {metadata : Metadata} (called : state.receiver = .called metadata) :
    Step bucketSize useShm state (.answer metadata)
      { state with answers := state.answers + 1, receiver := if metadata.isLast then .left else .waiting }

/-- Both sides at the start of a transfer, with a buffer of any content. -/
structure Started (bucketSize : Nat) (weights : List Weight) (state : State) : Prop where
  buffer : state.bucket.buffer.length = bucketSize
  bucketMeta : state.bucket.bucketMeta = []
  offset : state.bucket.offset = 0
  weights : state.weights = weights
  sender : state.sender = .starting
  requests : state.requests = []
  answers : state.answers = 0
  receiver : state.receiver = .starting
  delivered : state.delivered = []

end LLMFusion.BucketedWeightTransfer
