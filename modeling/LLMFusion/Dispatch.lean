import LLMFusion.Protocol

/-! Dispatching a call over the workers of a group. The arguments are cut into one
shard for each data-parallel rank, every worker gets the shard of its rank, and the
outputs of the collecting workers are concatenated. -/

namespace LLMFusion.Dispatch
open Protocol

variable {τ ν μ τ' ν' μ' δ ε : Type}

/-- `len(data_list) > 0`; the references come back in the order of the list. -/
def parallelPut (dataList : List δ) : Except Failure (List δ) :=
  if dataList.isEmpty then .error (.lengthMismatch 1 0) else .ok dataList

def getItem (items : List δ) (index : Nat) : Except Failure δ :=
  match items[index]? with
  | some item => .ok item
  | none => .error .indexError

section Split
variable [Value μ] (autoPadding : Bool) (chunks : Nat)

def chunkArg (arg : DataProto τ ν μ) : Except Failure (List (DataProto τ ν μ)) := do
  let chunkedArg ← arg.chunk autoPadding chunks
  if chunkedArg.length = chunks then return chunkedArg else throw (.lengthMismatch chunks chunkedArg.length)

/-- `_split_args_kwargs_data_proto` -/
def splitArgsKwargsDataProto (args : List (DataProto τ ν μ)) (kwargs : List (String × DataProto τ ν μ)) :
    Except Failure (List (List (DataProto τ ν μ)) × List (String × List (DataProto τ ν μ))) := do
  let splittedArgs ← args.mapM (chunkArg autoPadding chunks)
  let splittedKwargs ← kwargs.mapM (fun kwarg => do
    let chunkedKwarg ← chunkArg autoPadding chunks kwarg.2
    return (kwarg.1, chunkedKwarg))
  return (splittedArgs, splittedKwargs)

end Split

/-- One argument for every worker. -/
def transformArgs (dpRankMapping : List Nat) (dpSize worldSize : Nat) (arg : List δ) : Except Failure (List δ) := do
  let arg ← parallelPut arg
  if arg.length ≠ dpSize then throw (.lengthMismatch dpSize arg.length)
  (List.range worldSize).mapM (fun i => do
    let localDpRank ← getItem dpRankMapping i
    getItem arg localDpRank)

/-- The number of threads is taken from the first positional argument. -/
def dispatchNdCompute (dpRankMapping : List Nat) (dpSize worldSize : Nat) (args : List (List δ))
    (kwargs : List (String × List δ)) : Except Failure (List (List δ) × List (String × List δ)) := do
  let _ ← getItem args 0
  let allArgs ← args.mapM (transformArgs dpRankMapping dpSize worldSize)
  let allKwargs ← kwargs.mapM (fun kwarg => do
    let transformed ← transformArgs dpRankMapping dpSize worldSize kwarg.2
    return (kwarg.1, transformed))
  return (allArgs, allKwargs)

def dispatchNdComputeDataproto [Value μ] (autoPadding : Bool) (dpRankMapping : List Nat) (dpSize worldSize : Nat)
    (args : List (DataProto τ ν μ)) (kwargs : List (String × DataProto τ ν μ)) :
    Except Failure (List (List (DataProto τ ν μ)) × List (String × List (DataProto τ ν μ))) := do
  let splitted ← splitArgsKwargsDataProto autoPadding dpSize args kwargs
  dispatchNdCompute dpRankMapping dpSize worldSize splitted.1 splitted.2

/-- The data-parallel size is one more than the largest rank of the mapping. -/
def dispatchLazyComputeDataProto [Value μ] (autoPadding : Bool) (dpRankMapping : List Nat) (worldSize : Nat)
    (args : List (DataProto τ ν μ)) (kwargs : List (String × DataProto τ ν μ)) :
    Except Failure (List (List (DataProto τ ν μ)) × List (String × List (DataProto τ ν μ))) :=
  if dpRankMapping.length ≠ worldSize then .error (.lengthMismatch worldSize dpRankMapping.length)
  else match dpRankMapping.max? with
    | some last => dispatchNdComputeDataproto autoPadding dpRankMapping (last + 1) worldSize args kwargs
    | none => .error .indexError

/-- Worker `rank` runs the method on its own arguments. -/
def executeRank (method : List δ → List (String × δ) → ε) (args : List (List δ)) (kwargs : List (String × List δ))
    (rank : Nat) : Except Failure ε := do
  let args ← args.mapM (fun arg => getItem arg rank)
  let kwargs ← kwargs.mapM (fun kwarg => do
    let value ← getItem kwarg.2 rank
    return (kwarg.1, value))
  return method args kwargs

def executeAll (worldSize : Nat) (method : List δ → List (String × δ) → ε) (args : List (List δ))
    (kwargs : List (String × List δ)) : Except Failure (List ε) :=
  (List.range worldSize).mapM (executeRank method args kwargs)

def collectNdCompute (collectMask : List Bool) (worldSize : Nat) (output : List ε) : Except Failure (List ε) := do
  if output.length ≠ worldSize then throw (.lengthMismatch worldSize output.length)
  let outputs ← (List.range worldSize).mapM (fun globalRank => do
    let collectDpRank ← getItem collectMask globalRank
    if collectDpRank then
      let value ← getItem output globalRank
      return some value
    else return none)
  return outputs.reduceOption

def collectNdComputeDataproto [Value μ] (collectMask : List Bool) (worldSize : Nat) (output : List (DataProto τ ν μ)) :
    Except Failure (DataProto τ ν μ) := do
  let output ← collectNdCompute collectMask worldSize output
  if output.isEmpty then throw .notConcatable
  DataProto.concat output

/-- A call of a method that is registered with the dispatch and collect functions of a
mesh. -/
def callNdCompute [Value μ] [Value μ'] (autoPadding : Bool) (dpRankMapping : List Nat) (collectMask : List Bool)
    (dpSize worldSize : Nat) (method : List (DataProto τ ν μ) → List (String × DataProto τ ν μ) → DataProto τ' ν' μ')
    (args : List (DataProto τ ν μ)) (kwargs : List (String × DataProto τ ν μ)) :
    Except Failure (DataProto τ' ν' μ') := do
  let dispatched ← dispatchNdComputeDataproto autoPadding dpRankMapping dpSize worldSize args kwargs
  let output ← executeAll worldSize method dispatched.1 dispatched.2
  collectNdComputeDataproto collectMask worldSize output

end LLMFusion.Dispatch
