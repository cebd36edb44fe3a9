import LLMFusion.PaddingUtils
import LLMFusion.Lib.Dictionary
import Mathlib.Data.String.Basic

/-! The ReMax baselines of the synchronous trainer. A prompt is also submitted under a uid of its own for one greedy
session, and the reward of the last output of this session is attached to the sampled outputs of the prompt. -/

namespace LLMFusion.RemaxBaselines
open PaddingUtils (Key Tag KVBatchMeta)

inductive Failure where
  | assertionError
  | keyError
  | runtimeError
  | valueError
  deriving DecidableEq, Repr

structure Row (K : Type) where
  uid : String
  rmScores : List K
  rewardBaselines : Option K
  deriving DecidableEq, Repr

abbrev Queue (K : Type) := String → Key → Option (Row K)

/-- The transfer queue and the partitions of the replay buffer. -/
structure State (K : Type) where
  queue : Queue K
  buffer : String → List (Key × Tag)

def baselinePrefix : String := "remax_baseline_"

def IsBaseline (uid : String) : Prop := baselinePrefix.toList <+: uid.toList

instance (uid : String) : Decidable (IsBaseline uid) :=
  inferInstanceAs (Decidable (baselinePrefix.toList <+: uid.toList))

def removePrefix (uid : String) : String :=
  if IsBaseline uid then String.ofList (uid.toList.drop baselinePrefix.toList.length) else uid

/-- What the loop over the keys has. -/
structure Split where
  sampled : List (Key × Tag)
  allBaselineKeys : List Key
  finalBaselineKeyByUid : List (String × (Nat × Key))

def finalBaseline (key : Key) : Option (Nat × Key) → Nat × Key
  | none => (key.index, key)
  | some old => if old.1 < key.index then (key.index, key) else old

def splitKey (split : Split) (entry : Key × Tag) : Split :=
  if IsBaseline entry.1.uid then
    { split with
      allBaselineKeys := split.allBaselineKeys ++ [entry.1]
      finalBaselineKeyByUid := Dictionary.modify entry.1.uid
        (finalBaseline entry.1) split.finalBaselineKeyByUid }
  else { split with sampled := split.sampled ++ [entry] }

def splitKeys (batch : KVBatchMeta) : Split := (batch.keys.zip batch.tags).foldl splitKey ⟨[], [], []⟩

def orKeyError {α : Type} : Option α → Except Failure α
  | some value => .ok value
  | none => .error .keyError

variable {K : Type}

/-- `tq.kv_batch_get` -/
def kvBatchGet (queue : Queue K) (partitionId : String) (keys : List Key) : Except Failure (List (Row K)) :=
  keys.mapM (fun key => orKeyError (queue partitionId key))

/-- `tq.kv_batch_put` of one field -/
def kvBatchPut (queue : Queue K) (partitionId : String) (rewardBaselines : List (Key × K)) : Queue K :=
  fun partition key =>
  match if partition = partitionId then Dictionary.get rewardBaselines key else none with
  | some baseline => (queue partition key).map (fun row => { row with rewardBaselines := some baseline })
  | none => queue partition key

/-- `tq.kv_clear` -/
def kvClear (queue : Queue K) (partitionId : String) (keys : List Key) : Queue K := fun partition key =>
  if partition = partitionId ∧ key ∈ keys then none else queue partition key

/-- `replay_buffer.remove` -/
def remove (buffer : String → List (Key × Tag)) (partitionId : String) (keys : List Key) :
    String → List (Key × Tag) :=
  fun partition => if partition = partitionId then Dictionary.erase
    (buffer partition) keys else buffer partition

variable [AddMonoid K]

def baselineByUid (baselineData : List (Row K)) : List (String × K) :=
  Dictionary.merge (fun _ score => score) [] (baselineData.map
    (fun row => (removePrefix row.uid, row.rmScores.sum)))

def addRemaxRewardBaselines (state : State K) (batch : KVBatchMeta) : Except Failure (State K × KVBatchMeta) :=
  do
  if batch.keys.length ≠ batch.tags.length then throw .valueError
  let split := splitKeys batch
  if split.finalBaselineKeyByUid = [] then throw .assertionError
  let baselineData ← kvBatchGet state.queue batch.partitionId
    (split.finalBaselineKeyByUid.map (fun entry => entry.2.2))
  let sampledKeys := split.sampled.map Prod.fst
  let sampledData ← kvBatchGet state.queue batch.partitionId sampledKeys
  let rewardBaselines ← sampledData.mapM (fun row => orKeyError
    (Dictionary.get (baselineByUid baselineData) row.uid))
  -- `torch.stack` needs a tensor
  if rewardBaselines.isEmpty then throw .runtimeError
  let queue := kvBatchPut state.queue batch.partitionId (sampledKeys.zip rewardBaselines)
  return (⟨kvClear queue batch.partitionId split.allBaselineKeys,
    remove state.buffer batch.partitionId split.allBaselineKeys⟩,
    { batch with keys := sampledKeys, tags := split.sampled.map Prod.snd })

end LLMFusion.RemaxBaselines
