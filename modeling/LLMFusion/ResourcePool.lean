import LLMFusion.Lib.Runs
import Mathlib.Algebra.BigOperators.Group.List.Basic
import Mathlib.Algebra.GroupWithZero.Nat
import Mathlib.Order.Lattice

/-! Pools of placement groups. A pool makes a placement group for each node, keeps them in the order
of the nodes' addresses, and is split into sub-pools of consecutive bundles. Worker groups create a
worker for each bundle of a pool. -/

namespace LLMFusion.ResourcePool

inductive Failure where
  | assertion
  | indexError
  | zeroDivision
  deriving DecidableEq, Repr

/-- A placement group, by the place of its node in `process_on_nodes`. -/
structure PlacementGroup where
  id : Nat
  bundleCount : Nat
  deriving DecidableEq, Repr

/-- What a pool is made on. A placement group without bundles is refused. -/
structure Nodes (ι : Type) where
  store : List Nat
  positive : ∀ count ∈ store, 0 < count
  nodeIp : Nat → ι

/-- A pool, or with `sub` a sub-pool. -/
structure Pool where
  sub : Bool
  pgs : Option (List PlacementGroup)
  startBundleIndex : Nat
  worldSize : Nat
  deriving DecidableEq, Repr

inductive SplitSize where
  | int (size : Nat)
  | list (sizes : List Nat)
  deriving DecidableEq, Repr

variable {ι : Type} [LinearOrder ι] (nodes : Nodes ι)

def Nodes.pool : Pool := ⟨false, none, 0, nodes.store.sum⟩

/-- The placement groups as they are made. -/
def Nodes.created : List PlacementGroup := nodes.store.mapIdx (fun idx processCount => ⟨idx, processCount⟩)

def sortPlacementGroupByNodeIp (pgs : List PlacementGroup) : List PlacementGroup :=
  pgs.mergeSort (fun first second => decide (nodes.nodeIp first.id ≤ nodes.nodeIp second.id))

/-- What the getter returns, and the pool behind it. The first call keeps the sorted list but
returns the other. -/
def getPlacementGroups (pool : Pool) : List PlacementGroup × Pool :=
  match pool.pgs with
  | some pgs => (pgs, pool)
  | none => (nodes.created, { pool with pgs := some (sortPlacementGroupByNodeIp nodes nodes.created) })

/-! ### Splitting -/

def splitSizeList (worldSize : Nat) : SplitSize → Except Failure (List Nat)
  | .int size =>
    if size = 0 then .error .zeroDivision
    else if worldSize % size = 0 then .ok (List.replicate (worldSize / size) size)
    else .error .assertion
  | .list sizes => .ok sizes

/-- `np.cumsum`, from a first value on. -/
def cumsum (first : Nat) : List Nat → List Nat
  | [] => [first]
  | size :: sizes => first :: cumsum (first + size) sizes

/-- The sub-pools, and the pool behind the call. -/
def splitResourcePool (pool : Pool) (splitSize : SplitSize) : Except Failure (List Pool × Pool) := do
  let sizes ← splitSizeList pool.worldSize splitSize
  if sizes.sum = pool.worldSize then
    let startBundleIdxList := cumsum (if pool.sub then pool.startBundleIndex else 0) sizes.dropLast
    let (placementGroups, pool) := getPlacementGroups nodes pool
    return (List.zipWith (fun start size => ⟨true, some placementGroups, start, size⟩) startBundleIdxList sizes, pool)
  else .error .assertion

/-! ### Worker groups -/

/-- The workers in the order of their ranks, each by its placement group and bundle, and why the
creation stopped. -/
abbrev Created := List (PlacementGroup × Nat) × Option Failure

/-- The bundles of a placement group. -/
def bundlesOf (pg : PlacementGroup) : List (PlacementGroup × Nat) := (List.range pg.bundleCount).map (fun index => (pg, index))

def createOnNodes (localWorldSize : Nat) : List PlacementGroup → Created
  | [] => ([], none)
  | pg :: pgs =>
    if localWorldSize ≤ pg.bundleCount then
      let (workers, failure) := createOnNodes localWorldSize pgs
      ((List.range localWorldSize).map (fun localRank => (pg, localRank)) ++ workers, failure)
    else ([], some .assertion)

def initWithResourcePool (pool : Pool) : Created :=
  match nodes.store with
  | [] => ([], some .indexError)
  | localWorldSize :: _ =>
    createOnNodes localWorldSize (sortPlacementGroupByNodeIp nodes (getPlacementGroups nodes pool).1)

def createRanks (localWorldSize : Nat) (pgs : List PlacementGroup) : List Nat → Created
  | [] => ([], none)
  | currRank :: ranks =>
    match pgs[currRank / localWorldSize]? with
    | none => ([], some .indexError)
    | some pg =>
      if localWorldSize ≤ pg.bundleCount then
        let (workers, failure) := createRanks localWorldSize pgs ranks
        ((pg, currRank % localWorldSize) :: workers, failure)
      else ([], some .assertion)

def initWithSubresourcePool (pool : Pool) : Created :=
  let pgs := (getPlacementGroups nodes pool).1
  match nodes.store with
  | [] => ([], some .indexError)
  | localWorldSize :: _ =>
    -- the address of the master
    match pgs[pool.startBundleIndex / localWorldSize]? with
    | none => ([], some .indexError)
    | some _ => createRanks localWorldSize pgs (List.range' pool.startBundleIndex pool.worldSize)

def createWorkerGroup (pool : Pool) : Created :=
  if pool.sub then initWithSubresourcePool nodes pool else initWithResourcePool nodes pool

/-! ### Trees of splits -/

/-- A pool, and whether it was split. -/
structure Node where
  pool : Pool
  isSplit : Bool

inductive Call where
  | getPlacementGroups (index : Nat)
  | createWorkerGroup (index : Nat)
  | split (index : Nat) (splitSize : SplitSize)
  deriving DecidableEq, Repr

/-- A call on one of the pools, where every pool is split at most once. -/
inductive Step : List Node → Call → List Node → Prop where
  | get {pools : List Node} {index : Nat} {node : Node} (named : pools[index]? = some node) :
    Step pools (.getPlacementGroups index) (pools.set index ⟨(getPlacementGroups nodes node.pool).2, node.isSplit⟩)
  | create {pools : List Node} {index : Nat} {node : Node} (named : pools[index]? = some node) :
    Step pools (.createWorkerGroup index) (pools.set index ⟨(getPlacementGroups nodes node.pool).2, node.isSplit⟩)
  | split {pools : List Node} {index : Nat} {pool after : Pool} {splitSize : SplitSize} {subPools : List Pool}
    (named : pools[index]? = some ⟨pool, false⟩) (done : splitResourcePool nodes pool splitSize = .ok (subPools, after)) :
    Step pools (.split index splitSize) (pools.set index ⟨after, true⟩ ++ subPools.map (fun pool => ⟨pool, false⟩))

/-- The pools after the calls. -/
def PoolRun (calls : List Call) (pools : List Node) : Prop := Runs.Run (Step nodes) [⟨nodes.pool, false⟩] calls pools

end LLMFusion.ResourcePool
