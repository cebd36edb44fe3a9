import LLMFusion.Lib.Fallible
import LLMFusion.Lib.Indexing
import LLMFusion.Lib.NdTensor

/-! Checkpoints of a sharded model. Every rank writes a file with its part of each parameter, and
the merger puts the parts together again: it derives the number of shards from the device mesh of
one weight, loads the files of so many ranks and merges each key by its placement. -/

namespace LLMFusion.FsdpModelMerger

inductive Failure where
  | fileNotFound (rank : Nat)
  | noKeys
  | unsupportedMesh (names : List String)
  | indexError
  | notLoaded
  | keyError (key : String)
  | placementMismatch (key : String)
  | placementCount
  | partialPlacement
  | tensorParallel
  | notConcatable
  deriving DecidableEq, Repr

inductive Placement where
  | replicate
  | shard (dim : Nat)
  | partialSum
  deriving DecidableEq, Repr

/-- The ranks as an array with a name for each dimension. -/
structure DeviceMesh where
  mesh : NdTensor Nat
  meshDimNames : List String
  deriving DecidableEq, Repr

inductive Weight (α : Type) where
  | dtensor (deviceMesh : DeviceMesh) (placements : List Placement) (localTensor : NdTensor α)
  | plain (tensor : NdTensor α)

abbrev StateDict (α : Type) := List (String × Weight α)

/-- `np.array([value])` -/
def singleton (value : Nat) : NdTensor Nat := ⟨[1], [value], rfl⟩

section Merger
variable {α : Type}

/-- A weight without a mesh stands for a mesh of the world size. -/
def weightMesh (worldSize : Nat) : Weight α → DeviceMesh
  | .dtensor deviceMesh _ _ => deviceMesh
  | .plain _ => ⟨singleton worldSize, ["fsdp"]⟩

def extractDeviceMeshInfo (stateDict : StateDict α) (worldSize : Nat) : Except Failure DeviceMesh :=
  match (stateDict.map Prod.fst).mergeSort.head? with
  | none => .error .noKeys
  | some pivotKey =>
    match stateDict.lookup pivotKey with
    | some weight => .ok (weightMesh worldSize weight)
    | none => .error (.keyError pivotKey)

/-- `shape[-position]` -/
def fromEnd (shape : List Nat) (position : Nat) : Except Failure Nat :=
  match shape.reverse[position - 1]? with
  | some size => .ok size
  | none => .error .indexError

def calculateShardConfiguration (deviceMesh : DeviceMesh) : Except Failure (Nat × List Nat) :=
  if deviceMesh.meshDimNames = ["fsdp"] ∨ deviceMesh.meshDimNames = ["ddp", "fsdp"] then
    if "tp" ∈ deviceMesh.meshDimNames then do
      let last ← fromEnd deviceMesh.mesh.shape 1
      let before ← fromEnd deviceMesh.mesh.shape 2
      .ok (last * before, [before, last])
    else do
      let last ← fromEnd deviceMesh.mesh.shape 1
      .ok (last, [last])
  else .error (.unsupportedMesh deviceMesh.meshDimNames)

/-- A thread loads the file of its rank into the slot of the rank. -/
def processOneShard (files : Nat → Option (StateDict α)) (modelStateDictLst : List (Option (StateDict α))) (rank : Nat) :
    List (Option (StateDict α)) :=
  match files rank with
  | some stateDict => modelStateDictLst.set rank (some stateDict)
  | none => modelStateDictLst

/-- The threads finish in some order; their results are awaited in the order of the ranks. -/
def loadShards (files : Nat → Option (StateDict α)) (totalShards : Nat) (finished : List Nat) :
    Except Failure (List (StateDict α)) :=
  match (List.range totalShards).find? (fun rank => (files rank).isNone) with
  | some rank => .error (.fileNotFound rank)
  | none =>
    (finished.foldl (processOneShard files) (List.replicate totalShards none)).mapM
      (fun slot => slot.elim (.error .notLoaded) .ok)

/-- `dict.pop(key)` -/
def pop (stateDict : StateDict α) (key : String) : Except Failure (Weight α × StateDict α) :=
  match stateDict.lookup key with
  | some weight => .ok (weight, Indexing.remove key stateDict)
  | none => .error (.keyError key)

/-- What `state_dict` and `param_placements` hold of a key. -/
structure Collected (α : Type) where
  tensors : List (NdTensor α)
  placements : Option (List Placement)

def addShard (bfloat16 : α → α) (meshDimNames : List String) (key : String) (collected : Collected α) :
    Weight α → Except Failure (Collected α)
  | .plain tensor => .ok { collected with tensors := collected.tensors ++ [tensor.map bfloat16] }
  | .dtensor _ placements localTensor =>
    let tensors := collected.tensors ++ [localTensor.map bfloat16]
    -- The replicated placement of the data parallel dimension is discarded.
    let placements := if meshDimNames.head? = some "dp" ∨ meshDimNames.head? = some "ddp" then placements.drop 1 else placements
    match collected.placements with
    | none => .ok ⟨tensors, some placements⟩
    | some known => if known = placements then .ok ⟨tensors, some known⟩ else .error (.placementMismatch key)

/-- The tensors of a key in the order of the ranks, and the dictionaries without it. -/
def collectKey (bfloat16 : α → α) (meshDimNames : List String) (key : String) (shards : List (StateDict α)) :
    Except Failure (Collected α × List (StateDict α)) :=
  shards.foldlM (fun state shard => do
    let (weight, rest) ← pop shard key
    let collected ← addShard bfloat16 meshDimNames key state.1 weight
    .ok (collected, state.2 ++ [rest])) (⟨[], none⟩, [])

/-- The keys are those of the first shard. Their order is that of a set; a key is merged alone. -/
def collect (bfloat16 : α → α) (meshDimNames : List String) (shards : List (StateDict α)) :
    Except Failure (List (String × Collected α)) :=
  match shards.head? with
  | none => .error .indexError
  | some first => do
    let (stateDict, _) ← (first.map Prod.fst).foldlM (fun state key => do
      let (collected, rest) ← collectKey bfloat16 meshDimNames key state.2
      .ok (state.1 ++ [(key, collected)], rest)) (([] : List (String × Collected α)), shards)
    .ok stateDict

/-- `torch.cat` -/
def concatenate (tensors : List (NdTensor α)) (dim : Nat) : Except Failure (NdTensor α) :=
  match NdTensor.cat tensors dim with
  | some tensor => .ok tensor
  | none => .error .notConcatable

def mergeByPlacement (tensors : List (NdTensor α)) : Placement → Except Failure (NdTensor α)
  | .replicate =>
    match tensors.head? with
    | some tensor => .ok tensor
    | none => .error .indexError
  | .partialSum => .error .partialPlacement
  | .shard dim => concatenate tensors dim

def mergeKey (meshShape : List Nat) (collected : Collected α) : Except Failure (NdTensor α) :=
  match collected.placements with
  | some placements =>
    if meshShape.length = 1 then
      match placements with
      | [placement] => mergeByPlacement collected.tensors placement
      | _ => .error .placementCount
    else .error .tensorParallel
  | none => concatenate collected.tensors 0

def loadAndMergeStateDicts (bfloat16 : α → α) (files : Nat → Option (StateDict α)) (totalShards : Nat) (meshShape : List Nat)
    (meshDimNames : List String) (finished : List Nat) : Except Failure (List (String × NdTensor α)) := do
  let shards ← loadShards files totalShards finished
  let stateDict ← collect bfloat16 meshDimNames shards
  stateDict.mapM (fun entry => do
    let tensor ← mergeKey meshShape entry.2
    .ok (entry.1, tensor))

/-- `merge_and_save` up to the merged state dict. `finished` is the order in which the threads
of a number of shards finish. -/
def mergedStateDict (bfloat16 : α → α) (files : Nat → Option (StateDict α)) (worldSize : Nat) (finished : Nat → List Nat) :
    Except Failure (List (String × NdTensor α)) :=
  match files 0 with
  | none => .error (.fileNotFound 0)
  | some rankZeroStateDict => do
    let deviceMesh ← extractDeviceMeshInfo rankZeroStateDict worldSize
    let (totalShards, meshShape) ← calculateShardConfiguration deviceMesh
    loadAndMergeStateDicts bfloat16 files totalShards meshShape deviceMesh.meshDimNames (finished totalShards)

end Merger

/-! ### Checkpoints as they are written -/

/-- Consecutive parts of a dimension, one for each shard. -/
structure Cut {α : Type} (full : NdTensor α) (shards : Nat) where
  dim : Nat
  inside : dim < full.shape.length
  offset : Nat → Nat
  grows : ∀ i, offset i ≤ offset (i + 1)
  first : offset 0 = 0
  last : full.size dim ≤ offset shards

/-- A parameter as it was before it was sharded; one that is not cut is replicated. -/
structure Parameter (α : Type) (shards : Nat) where
  full : NdTensor α
  cut : Option (Cut full shards)

section Parameter
variable {α : Type} {shards : Nat}

/-- The parts of `torch.chunk`: the last ones can be smaller or empty. -/
def Cut.chunk (full : NdTensor α) (shards dim : Nat) (present : 0 < shards) (inside : dim < full.shape.length) : Cut full shards where
  dim := dim
  inside := inside
  offset := fun i => i * ((full.size dim + shards - 1) / shards)
  grows := fun i => Nat.mul_le_mul_right _ (Nat.le_succ i)
  first := Nat.zero_mul _
  last := by
    have division := Nat.div_add_mod (full.size dim + shards - 1) shards
    have remainder := Nat.mod_lt (full.size dim + shards - 1) present
    omega

def Parameter.shard (parameter : Parameter α shards) (index : Nat) : NdTensor α :=
  match parameter.cut with
  | none => parameter.full
  | some cut => parameter.full.piece cut.dim (cut.offset index) (cut.offset (index + 1)) cut.inside

def Parameter.placement (parameter : Parameter α shards) : Placement :=
  match parameter.cut with
  | none => .replicate
  | some cut => .shard cut.dim

end Parameter

/-- The layouts the loader distinguishes. -/
inductive Layout where
  | fsdp (shards : Nat)
  | ddpFsdp (replicas shards : Nat)
  | plain (shards : Nat)
  deriving DecidableEq, Repr

namespace Layout

def shards : Layout → Nat
  | fsdp shards | ddpFsdp _ shards | plain shards => shards

def worldSize : Layout → Nat
  | fsdp shards | plain shards => shards
  | ddpFsdp replicas shards => replicas * shards

/-- What a rank stores of a parameter. -/
def weight {α : Type} (layout : Layout) (parameter : Parameter α layout.shards) (rank : Nat) : Weight α :=
  match layout with
  | fsdp shards =>
    .dtensor ⟨⟨[shards], List.range shards, by simp⟩, ["fsdp"]⟩ [parameter.placement] (parameter.shard rank)
  | ddpFsdp replicas shards =>
    .dtensor ⟨⟨[replicas, shards], List.range (replicas * shards), by simp⟩, ["ddp", "fsdp"]⟩
      [.replicate, parameter.placement] (parameter.shard (rank % shards))
  | plain _ => .plain (parameter.shard rank)

end Layout

/-- Plain tensors carry no placement: they are parts of the first dimension. -/
structure Checkpoint (α : Type) where
  layout : Layout
  params : List (String × Parameter α layout.shards)
  distinct : (params.map Prod.fst).Nodup
  written : 0 < layout.worldSize
  leading : ∀ shards, layout = .plain shards → ∀ entry ∈ params, ∀ cut, entry.2.cut = some cut → cut.dim = 0

namespace Checkpoint
variable {α : Type} (checkpoint : Checkpoint α)

def stateDict (rank : Nat) : StateDict α :=
  checkpoint.params.map (fun entry => (entry.1, checkpoint.layout.weight entry.2 rank))

/-- `model_world_size_{world_size}_rank_{rank}.pt` -/
def files (rank : Nat) : Option (StateDict α) :=
  if rank < checkpoint.layout.worldSize then some (checkpoint.stateDict rank) else none

end Checkpoint

end LLMFusion.FsdpModelMerger
