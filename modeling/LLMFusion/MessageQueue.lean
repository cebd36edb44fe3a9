import Mathlib.Tactic.Common

/-! The queue between the rollouter and the trainer. A full queue drops its oldest sample. -/

namespace LLMFusion

variable {σ : Type}

structure MessageQueue (σ : Type) where
  queue : List σ
  maxQueueSize : Nat
  running : Bool
  totalProduced : Nat
  totalConsumed : Nat
  droppedSamples : Nat

namespace MessageQueue

def create (maxQueueSize : Nat) : MessageQueue σ := ⟨[], maxQueueSize, true, 0, 0, 0⟩

/-- The result says whether nothing was dropped. An empty queue without any place raises
at `popleft`. -/
def putSample (messageQueue : MessageQueue σ) (sample : σ) : Option (MessageQueue σ × Bool) :=
  if messageQueue.maxQueueSize ≤ messageQueue.queue.length then
    match messageQueue.queue with
    | [] => none
    | _ :: rest => some ({ messageQueue with
        queue := rest ++ [sample]
        totalProduced := messageQueue.totalProduced + 1
        droppedSamples := messageQueue.droppedSamples + 1 }, false)
  else some ({ messageQueue with
    queue := messageQueue.queue ++ [sample]
    totalProduced := messageQueue.totalProduced + 1 }, true)

/-- What `get_sample` returns, or nothing as long as it waits. -/
def getSample (messageQueue : MessageQueue σ) : Option (Option (σ × Nat) × MessageQueue σ) :=
  match messageQueue.queue with
  | [] => if messageQueue.running then none else some (none, messageQueue)
  | data :: rest => some (some (data, rest.length), { messageQueue with
      queue := rest
      totalConsumed := messageQueue.totalConsumed + 1 })

def getQueueSize (messageQueue : MessageQueue σ) : Nat := messageQueue.queue.length

def shutdown (messageQueue : MessageQueue σ) : MessageQueue σ := { messageQueue with running := false }

/-! ### Concurrent calls -/

/-- A call of `get_sample`: with the lock, waiting for the condition, or returned. -/
inductive Consumer (σ : Type) where
  | checking
  | waiting
  | returned (result : Option (σ × Nat))

/-- `notify_all` -/
def Consumer.notify : Consumer σ → Consumer σ
  | .waiting => .checking
  | consumer => consumer

structure State (σ : Type) where
  messageQueue : MessageQueue σ
  consumers : List (Consumer σ)

inductive Event (σ : Type) where
  | put (sample : σ) (success : Bool)
  | call
  | wait
  | get (result : Option (σ × Nat))
  | shutdown

inductive Step : State σ → Event σ → State σ → Prop where
  | put {state : State σ} {sample : σ} {messageQueue : MessageQueue σ} {success : Bool}
      (stored : state.messageQueue.putSample sample = some (messageQueue, success)) :
      Step state (.put sample success) ⟨messageQueue, state.consumers.map Consumer.notify⟩
  | call {state : State σ} : Step state .call { state with consumers := state.consumers ++ [.checking] }
  | wait {state : State σ} {before after : List (Consumer σ)} (isConsumer : state.consumers = before ++ .checking :: after)
      (nothing : state.messageQueue.getSample = none) :
      Step state .wait { state with consumers := before ++ .waiting :: after }
  | get {state : State σ} {before after : List (Consumer σ)} {result : Option (σ × Nat)} {messageQueue : MessageQueue σ}
      (isConsumer : state.consumers = before ++ .checking :: after)
      (received : state.messageQueue.getSample = some (result, messageQueue)) :
      Step state (.get result) ⟨messageQueue, before ++ .returned result :: after⟩
  | shutdown {state : State σ} :
      Step state .shutdown ⟨state.messageQueue.shutdown, state.consumers.map Consumer.notify⟩

def Event.produced : Event σ → Option σ
  | .put sample _ => some sample
  | _ => none

def Event.delivered : Event σ → Option σ
  | .get (some data) => some data.1
  | _ => none

/-! ### The trainer -/

inductive Failure where
  | typeError
  deriving DecidableEq, Repr

/-- `sample, queue_len = await self.message_queue_client.get_sample()` -/
def unpack : Option (σ × Nat) → Except Failure (σ × Nat)
  | some data => .ok data
  | none => .error .typeError

/-- The loop of `_get_samples_from_queue` over what the calls return; a sample `None` ends it. -/
def collectSamples (requiredSamples : Nat) (queueSamples : List σ) :
    List (Option (Option σ × Nat)) → Except Failure (List σ)
  | [] => .ok queueSamples
  | result :: results =>
    if queueSamples.length < requiredSamples then do
      let data ← unpack result
      match data.1 with
      | none => return queueSamples
      | some sample => collectSamples requiredSamples (queueSamples ++ [sample]) results
    else .ok queueSamples

end MessageQueue

end LLMFusion
