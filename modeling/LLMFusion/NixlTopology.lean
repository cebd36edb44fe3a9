import LLMFusion.Lib.Fallible
import LLMFusion.Lib.Indexing

/-! The topology of the NIXL engine: the first trainer worker and the rollout workers form a chain, in which every agent
reads from the one before it. -/

namespace LLMFusion.NixlTopology

/-- One list for each argument of `init_process_group`, with an entry for each worker. -/
structure Kwargs (Metadata : Type) where
  method : List String
  rank : List Int
  worldSize : List Int
  prevAgentMetadata : List (Option Metadata)
  nextAgentMetadata : List (Option Metadata)

inductive Failure where
  /-- An index outside of the metadata. -/
  | indexError
  | lengthMismatch
  | unexpectedMetadata (rank : Int)

/-- What `init_process_group` leaves on a worker. -/
structure Agent (Name : Type) where
  rank : Int
  worldSize : Int
  prevAgent : Option Name
  nextAgent : Option Name
  deriving DecidableEq

variable {Metadata Name : Type}

def item (metadata : List Metadata) (index : Int) : Except Failure Metadata :=
  match Indexing.getItem metadata index with
  | none => .error .indexError
  | some found => .ok found

def buildTopology (trainerWorldSize rolloutWorldSize : Nat) (metadata : List Metadata) :
    Except Failure (Kwargs Metadata × Kwargs Metadata) := do
  let firstRollout ← item metadata (-rolloutWorldSize)
  let trainerKwargs :=
    { method := List.replicate trainerWorldSize "init_process_group"
      rank := 0 :: List.replicate (trainerWorldSize - 1) (-1)
      worldSize := List.replicate trainerWorldSize (rolloutWorldSize + 1)
      prevAgentMetadata := List.replicate trainerWorldSize none
      nextAgentMetadata := some firstRollout :: List.replicate (trainerWorldSize - 1) none }
  let master ← item metadata 0
  let rolloutKwargs :=
    { method := List.replicate rolloutWorldSize "init_process_group"
      rank := (List.range' 1 rolloutWorldSize).map Int.ofNat
      worldSize := List.replicate rolloutWorldSize (rolloutWorldSize + 1)
      prevAgentMetadata := (master :: Indexing.between metadata (-rolloutWorldSize) (-1)).map some
      nextAgentMetadata := (Indexing.fromIndex metadata (-rolloutWorldSize + 1)).map some ++ [none] }
  return (trainerKwargs, rolloutKwargs)

namespace Kwargs

/-- Every list has an entry for each worker. -/
def Sized (kwargs : Kwargs Metadata) (worldSize : Nat) : Prop :=
  kwargs.method.length = worldSize ∧ kwargs.rank.length = worldSize ∧ kwargs.worldSize.length = worldSize ∧
    kwargs.prevAgentMetadata.length = worldSize ∧ kwargs.nextAgentMetadata.length = worldSize

instance (kwargs : Kwargs Metadata) (worldSize : Nat) : Decidable (kwargs.Sized worldSize) :=
  inferInstanceAs (Decidable (_ ∧ _))

/-- The arguments of each worker. -/
def calls (kwargs : Kwargs Metadata) : List ((Int × Int) × Option Metadata × Option Metadata) :=
  (kwargs.rank.zip kwargs.worldSize).zip (kwargs.prevAgentMetadata.zip kwargs.nextAgentMetadata)

end Kwargs

section Init
variable (addRemoteAgent : Metadata → Name)

/-- The metadata that the assertions of a rank allow. -/
def allowed (rank worldSize : Int) (prev next : Option Metadata) : Bool :=
  if rank < 0 then prev.isNone && next.isNone
  else if rank = 0 then prev.isNone && next.isSome
  else if rank < worldSize - 1 then prev.isSome && next.isSome
  else if rank = worldSize - 1 then prev.isSome && next.isNone
  else true

def initProcessGroup (rank worldSize : Int) (prevAgentMetadata nextAgentMetadata : Option Metadata) :
    Except Failure (Agent Name) :=
  if allowed rank worldSize prevAgentMetadata nextAgentMetadata then
    .ok ⟨rank, worldSize, prevAgentMetadata.map addRemoteAgent, nextAgentMetadata.map addRemoteAgent⟩
  else .error (.unexpectedMetadata rank)

/-- `execute_checkpoint_engine`: every worker is called with its entry of each list. -/
def executeCheckpointEngine (kwargs : Kwargs Metadata) : Except Failure (List (Agent Name)) :=
  kwargs.calls.mapM (fun call => initProcessGroup addRemoteAgent call.1.1 call.1.2 call.2.1 call.2.2)

def buildProcessGroup (trainerWorldSize rolloutWorldSize : Nat) (metadata : List Metadata) :
    Except Failure (List (Agent Name) × List (Agent Name)) := do
  let topology ← buildTopology trainerWorldSize rolloutWorldSize metadata
  if ¬ topology.1.Sized trainerWorldSize then throw .lengthMismatch
  if ¬ topology.2.Sized rolloutWorldSize then throw .lengthMismatch
  let trainer ← executeCheckpointEngine addRemoteAgent topology.1
  let rollout ← executeCheckpointEngine addRemoteAgent topology.2
  return (trainer, rollout)

end Init

end LLMFusion.NixlTopology
