import LLMFusion.Lib.Dictionary
import LLMFusion.Lib.Fallible

/-! Activations that leave the device after the forward pass of their layer and come back before its
backward pass. Tensors of one layer with one key are copied once. Streams order the copies and have no state
here. -/

namespace LLMFusion.ActivationOffload

inductive Failure where
  | assertion
  | keyError
  | viewShape
  deriving DecidableEq, Repr

/-- A shape with as many elements, in the order of `view`. -/
@[ext] structure Data (ε : Type) where
  shape : List Nat
  elements : List ε
  full : elements.length = shape.prod

/-- A tensor: where it begins in a storage, and what it shows. -/
structure Tensor (δ ε : Type) extends Data ε where
  dataPtr : Nat
  storageOffset : Nat
  dtype : δ

/-- What `_get_unique_tensor_key` makes of a tensor. -/
abbrev Key (δ : Type) := Nat × δ

abbrev Tag := Nat × Nat

/-- What is saved under a tag: a tensor, or the key and the shape by which a copy is found. -/
inductive State (δ ε : Type) where
  | tensor (tensor : Tensor δ ε)
  | copied (key : Key δ) (shape : List Nat)

/-- What `tensor_push` returns: a tag, or the tensor itself. -/
inductive Saved (δ ε : Type) where
  | tag (tag : Tag)
  | tensor (tensor : Tensor δ ε)

/-- A copy on the host. -/
structure Backup (δ ε : Type) extends Data ε where
  dtype : δ

/-- The attributes of `AsyncDoubleBufferGroupOffloadHandler`. -/
structure Handler (δ ε : Type) where
  numOffloadGroup : Nat
  numLayers : Nat
  layerWindowMap : List (Nat × Int)
  currentGroup : Nat
  tensorCountCurrentGroup : Nat
  tensorTagToState : List (Tag × State δ ε)
  tensorTagToBuf : List (Tag × Option (Tensor δ ε))
  offloadedGroupCount : Nat
  groupOffloadMapping : List (Nat × List (Key δ × Backup δ ε))

/-- The windows that the loop of the constructor makes, with the constant that it keeps. -/
def windows (numOffloadGroup numLayers : Nat) : List (Nat × Int) × Nat :=
  (List.range numOffloadGroup).foldl (fun state i =>
    let window : Int := (numLayers / numOffloadGroup * (i + 1) : Nat) - 1
    if i < numLayers % numOffloadGroup then (state.1 ++ [(i, window + (i + 1 : Nat))], i + 1)
    else (state.1 ++ [(i, window + (state.2 : Nat))], state.2)) ([], 0)

def Handler.init {δ ε : Type} (numOffloadGroup numModelGroup : Nat) : Handler δ ε where
  numOffloadGroup := numOffloadGroup
  numLayers := numModelGroup
  layerWindowMap := (windows numOffloadGroup numModelGroup).1
  currentGroup := 0
  tensorCountCurrentGroup := 0
  tensorTagToState := []
  tensorTagToBuf := []
  offloadedGroupCount := 0
  groupOffloadMapping := []

section Handler
variable {δ ε : Type} [DecidableEq δ]

def getUniqueTensorKey (tensor : Tensor δ ε) : Key δ := (tensor.dataPtr + tensor.storageOffset, tensor.dtype)

/-- `dict[key]` -/
def lookup {κ α : Type} [DecidableEq κ] (dict : List (κ × α)) (key : κ) : Except Failure α :=
  match Dictionary.get dict key with
  | some value => .ok value
  | none => .error .keyError

/-- The tensor and whether it needs offloading. -/
def tensorPush (handler : Handler δ ε) (tensor : Tensor δ ε) (needOffload : Bool) :
    Except Failure (Handler δ ε × Saved δ ε) :=
  if needOffload then
    let tag := (handler.currentGroup, handler.tensorCountCurrentGroup)
    if (Dictionary.get handler.tensorTagToState tag).isSome then .error .assertion
    else .ok ({ handler with
      tensorCountCurrentGroup := handler.tensorCountCurrentGroup + 1
      tensorTagToState := Dictionary.modify tag (fun _ => .tensor tensor) handler.tensorTagToState
      tensorTagToBuf := if handler.currentGroup < handler.numOffloadGroup then
        Dictionary.modify tag (fun _ => some tensor) handler.tensorTagToBuf else handler.tensorTagToBuf }, .tag tag)
  else .ok (handler, .tensor tensor)

def tensorPop (handler : Handler δ ε) : Saved δ ε → Except Failure (Handler δ ε × Tensor δ ε)
  | .tensor tensor => .ok (handler, tensor)
  | .tag tag =>
    match Dictionary.get handler.tensorTagToState tag with
    | some (.tensor tensor) => .ok ({ handler with
        tensorTagToState := Dictionary.erase handler.tensorTagToState [tag]
        tensorTagToBuf := Dictionary.erase handler.tensorTagToBuf [tag] }, tensor)
    | _ => .error .assertion

/-- `SynchronizedGroupOffloadHandler.offload` -/
def offload (tensor : Tensor δ ε) : Backup δ ε := { tensor.toData with dtype := tensor.dtype }

/-- `SynchronizedGroupOffloadHandler.reload`, to a storage of its own at an address of the allocator's. -/
def reload (address : Backup δ ε → Nat) (backup : Backup δ ε) : Tensor δ ε :=
  { backup.toData with dataPtr := address backup, storageOffset := 0, dtype := backup.dtype }

/-- `tensor.view(shape)` of a contiguous tensor. -/
def Tensor.view (tensor : Tensor δ ε) (shape : List Nat) : Except Failure (Tensor δ ε) :=
  if full : tensor.elements.length = shape.prod then .ok { tensor with shape := shape, full := full }
  else .error .viewShape

/-- The loop over the saved tensors: those of the group become keys, and one tensor of each key is kept. -/
def collectGroup (group : Nat) : List (Tag × State δ ε) → List (Key δ × Tensor δ ε) →
    Except Failure (List (Tag × State δ ε) × List (Key δ × Tensor δ ε))
  | [], mapping => .ok ([], mapping)
  | entry :: entries, mapping =>
    if entry.1.1 = group then
      match entry.2 with
      | .copied _ _ => .error .assertion
      | .tensor tensor => do
        let key := getUniqueTensorKey tensor
        let mapping := if (Dictionary.get mapping key).isSome then mapping else Dictionary.modify key (fun _ => tensor) mapping
        let (entries, mapping) ← collectGroup group entries mapping
        return ((entry.1, .copied key tensor.shape) :: entries, mapping)
    else do
      let (entries, mapping) ← collectGroup group entries mapping
      return (entry :: entries, mapping)

def bulkOffloadGroup (handler : Handler δ ε) (groupToOffload : Nat) : Except Failure (Handler δ ε) := do
  let (entries, mapping) ← collectGroup groupToOffload handler.tensorTagToState []
  return { handler with
    tensorTagToState := entries
    groupOffloadMapping := Dictionary.modify groupToOffload
      (fun _ => mapping.map (fun entry => (entry.1, offload entry.2))) handler.groupOffloadMapping }

def synchronizeOnGroupCommitForward (handler : Handler δ ε) (currentGroup : Nat) : Except Failure (Handler δ ε) := do
  -- kickstart the offload after the first group
  let handler ← if currentGroup = 0 then bulkOffloadGroup handler currentGroup else .ok handler
  let window ← lookup handler.layerWindowMap handler.offloadedGroupCount
  if window = currentGroup then
    let handler := { handler with
      tensorTagToBuf := handler.tensorTagToBuf.map (fun entry =>
        if entry.1.1 = handler.offloadedGroupCount then (entry.1, none) else entry) }
    let handler ← if handler.offloadedGroupCount + 1 < handler.numOffloadGroup then
      bulkOffloadGroup handler (handler.offloadedGroupCount + 1) else .ok handler
    return { handler with offloadedGroupCount := handler.offloadedGroupCount + 1 }
  else return handler

def onGroupCommitForward (handler : Handler δ ε) : Except Failure (Handler δ ε) := do
  let handler ← synchronizeOnGroupCommitForward handler handler.currentGroup
  return { handler with currentGroup := handler.currentGroup + 1, tensorCountCurrentGroup := 0 }

/-- A saved tensor of the group that is reloaded. -/
def recover (reloaded : List (Key δ × Tensor δ ε)) (group : Nat) (entry : Tag × State δ ε) :
    Except Failure (Tag × State δ ε) :=
  match entry.2 with
  | .tensor _ => .ok entry
  | .copied key shape =>
    if entry.1.1 = group then do
      let tensor ← lookup reloaded key
      let tensor ← tensor.view shape
      return (entry.1, .tensor tensor)
    else .ok entry

def bulkReloadGroup (address : Backup δ ε → Nat) (handler : Handler δ ε) (groupToReload : Nat) :
    Except Failure (Handler δ ε) := do
  if ¬ groupToReload < handler.numOffloadGroup then throw .assertion
  let offloadMapping ← lookup handler.groupOffloadMapping groupToReload
  let reloaded := offloadMapping.map (fun entry => (entry.1, reload address entry.2))
  let entries ← handler.tensorTagToState.mapM (recover reloaded groupToReload)
  return { handler with
    tensorTagToState := entries
    groupOffloadMapping := Dictionary.erase handler.groupOffloadMapping [groupToReload] }

/-- `layer_window_map[offloaded_group_count - 1]`; there is no window at `-1`. -/
def lastWindow (handler : Handler δ ε) : Except Failure Int :=
  match handler.offloadedGroupCount with
  | 0 => .error .keyError
  | count + 1 => lookup handler.layerWindowMap count

def onGroupCommitBackward (address : Backup δ ε → Nat) (handler : Handler δ ε) : Except Failure (Handler δ ε) := do
  if handler.currentGroup = 0 then throw .assertion
  let handler := { handler with currentGroup := handler.currentGroup - 1 }
  let window ← lastWindow handler
  let handler ← if window = handler.currentGroup then do
      let handler ← bulkReloadGroup address handler (handler.offloadedGroupCount - 1)
      pure { handler with
        offloadedGroupCount := handler.offloadedGroupCount - (if 1 < handler.offloadedGroupCount then 1 else 0) }
    else .ok handler
  return if handler.currentGroup = 0 then { handler with offloadedGroupCount := 0 } else handler

/-! ### An iteration -/

/-- The tensors that a layer saves, one after the other. -/
def pushAll (handler : Handler δ ε) : List (Tensor δ ε × Bool) → Except Failure (Handler δ ε × List (Saved δ ε))
  | [] => .ok (handler, [])
  | item :: items => do
    let (handler, saved) ← tensorPush handler item.1 item.2
    let (handler, others) ← pushAll handler items
    return (handler, saved :: others)

/-- The pushes of each layer and its commit. -/
def forward (handler : Handler δ ε) : List (List (Tensor δ ε × Bool)) → Except Failure (Handler δ ε × List (List (Saved δ ε)))
  | [] => .ok (handler, [])
  | layer :: layers => do
    let (handler, saved) ← pushAll handler layer
    let handler ← onGroupCommitForward handler
    let (handler, others) ← forward handler layers
    return (handler, saved :: others)

def popAll (handler : Handler δ ε) : List (Saved δ ε) → Except Failure (Handler δ ε × List (Tensor δ ε))
  | [] => .ok (handler, [])
  | saved :: rest => do
    let (handler, tensor) ← tensorPop handler saved
    let (handler, tensors) ← popAll handler rest
    return (handler, tensor :: tensors)

/-- The commit of each layer and its pops: the last layer is the first. -/
def backward (address : Backup δ ε → Nat) (handler : Handler δ ε) :
    List (List (Saved δ ε)) → Except Failure (Handler δ ε × List (List (Tensor δ ε)))
  | [] => .ok (handler, [])
  | layer :: layers => do
    let (handler, others) ← backward address handler layers
    let handler ← onGroupCommitBackward address handler
    let (handler, tensors) ← popAll handler layer
    return (handler, tensors :: others)

end Handler

end LLMFusion.ActivationOffload
