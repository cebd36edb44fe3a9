import LLMFusion.Dispatch

/-! Data-parallel calls whose arguments are padded to a multiple of the world size.
The caller's objects are in a store, an argument names one of them, and the padding
is done on the object itself. -/

namespace LLMFusion.Dispatch
open Protocol

variable {τ ν μ τ' ν' μ' : Type}

/-- What `_padding_and_split_data` shares over the arguments of a call. -/
structure Padding (τ ν μ : Type) where
  objects : List (DataProto τ ν μ)
  dataProtoLen : Option Nat
  paddingSize : Option Nat

section Dispatch
variable [Value μ] (autoPadding : Bool) (chunks : Nat)

def paddingOf (chunks dataProtoLen : Nat) : Nat :=
  if dataProtoLen % chunks > 0 then chunks - dataProtoLen % chunks else 0

/-- The first argument sets the length that the others must have. -/
def commonLen (padding : Padding τ ν μ) (obj : DataProto τ ν μ) : Except Failure (Padding τ ν μ) :=
  match padding.dataProtoLen with
  | none => .ok { padding with dataProtoLen := some obj.len, paddingSize := some (paddingOf chunks obj.len) }
  | some dataProtoLen => if dataProtoLen = obj.len then .ok padding else .error (.lengthMismatch dataProtoLen obj.len)

def paddingAndSplitData (padding : Padding τ ν μ) (ref : Nat) :
    Except Failure (Padding τ ν μ × List (DataProto τ ν μ)) := do
  let obj ← getItem padding.objects ref
  if obj.isPaddingEnabled autoPadding then
    let padding ← commonLen chunks padding obj
    let padded ← obj.padding (padding.paddingSize.getD 0) ""
    let pieces ← padded.chunk autoPadding chunks
    return ({ padding with objects := padding.objects.set ref padded }, pieces)
  else
    let pieces ← obj.chunk autoPadding chunks
    return (padding, pieces)

def splitAll (padding : Padding τ ν μ) : List Nat → Except Failure (Padding τ ν μ × List (List (DataProto τ ν μ)))
  | [] => .ok (padding, [])
  | ref :: refs => do
    let first ← paddingAndSplitData autoPadding chunks padding ref
    let rest ← splitAll first.1 refs
    return (rest.1, first.2 :: rest.2)

/-- The shards of the arguments, and the objects and the size of the padding after the
split. -/
structure Dispatched (τ ν μ : Type) where
  objects : List (DataProto τ ν μ)
  splittedArgs : List (List (DataProto τ ν μ))
  splittedKwargs : List (String × List (DataProto τ ν μ))
  paddingSize : Option Nat

/-- `_split_args_kwargs_data_proto_with_auto_padding` -/
def splitArgsKwargsDataProtoWithAutoPadding (objects : List (DataProto τ ν μ)) (args : List Nat)
    (kwargs : List (String × Nat)) : Except Failure (Dispatched τ ν μ) := do
  let splittedArgs ← splitAll autoPadding chunks ⟨objects, none, none⟩ args
  let splittedKwargs ← splitAll autoPadding chunks splittedArgs.1 (kwargs.map Prod.snd)
  return ⟨splittedKwargs.1.objects, splittedArgs.2, (kwargs.map Prod.fst).zip splittedKwargs.2,
    splittedKwargs.1.paddingSize⟩

end Dispatch

def collectDpComputeDataProto [Value μ] (worldSize : Nat) (output : List (DataProto τ ν μ)) :
    Except Failure (DataProto τ ν μ) :=
  if output.isEmpty then .error .notConcatable
  else if output.length ≠ worldSize then .error (.lengthMismatch worldSize output.length)
  else DataProto.concat output

/-- `list(range(len(output)))[:-padding_count]` -/
def dropPadding (paddingCount : Nat) (output : DataProto τ ν μ) : Except Failure (DataProto τ ν μ) :=
  if paddingCount > 0 then output.selectIdxs ((List.range (output.len - paddingCount)).map Int.ofNat)
  else .ok output

/-- A call names the worker group by its size and the arguments by their places in the
store. -/
structure Call where
  worldSize : Nat
  args : List Nat
  kwargs : List (String × Nat)

/-- A blocking call of a method that is registered with `DP_COMPUTE_PROTO`: the caller's
objects after the call and the result. -/
def callDpComputeProto [Value μ] [Value μ'] (autoPadding : Bool)
    (method : List (DataProto τ ν μ) → List (String × DataProto τ ν μ) → DataProto τ' ν' μ')
    (objects : List (DataProto τ ν μ)) (call : Call) :
    Except Failure (List (DataProto τ ν μ) × DataProto τ' ν' μ') := do
  let dispatched ← splitArgsKwargsDataProtoWithAutoPadding autoPadding call.worldSize objects call.args call.kwargs
  let output ← executeAll call.worldSize method dispatched.splittedArgs dispatched.splittedKwargs
  let output ← collectDpComputeDataProto call.worldSize output
  let output ← dropPadding (dispatched.paddingSize.getD 0) output
  return (dispatched.objects, output)

end LLMFusion.Dispatch
