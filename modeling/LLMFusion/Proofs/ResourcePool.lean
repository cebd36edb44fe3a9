import LLMFusion.ResourcePool
import LLMFusion.Lib.Fallible
import LLMFusion.Lib.Slices
import Mathlib.Data.List.Nodup

/-! Which bundles the workers of a tree of pools are bound to. Ranks are taken to placement groups by
the first process count, in the list that the first call returned: they are the bundles in node-ip
order where all counts are one and that list is in this order. -/

namespace LLMFusion.ResourcePool
open List
open Slices

variable {ι : Type} [LinearOrder ι] (nodes : Nodes ι)

/-! ### The bundles by rank -/

namespace Nodes

/-- The placement groups in node-ip order. -/
def inOrder : List PlacementGroup := sortPlacementGroupByNodeIp nodes nodes.created

/-- The bundle of every rank. -/
def bundles : List (PlacementGroup × Nat) := nodes.inOrder.flatMap bundlesOf

/-- All process counts are the first one. -/
def Uniform : Prop := ∀ count ∈ nodes.store, nodes.store.head? = some count

/-- The nodes are in the order of their addresses. -/
def Ordered : Prop := (List.range nodes.store.length).Pairwise (fun first second => nodes.nodeIp first ≤ nodes.nodeIp second)

end Nodes

theorem sort_perm (pgs : List PlacementGroup) : (sortPlacementGroupByNodeIp nodes pgs).Perm pgs := mergeSort_perm _ _

theorem sort_pairwise (pgs : List PlacementGroup) :
    (sortPlacementGroupByNodeIp nodes pgs).Pairwise (fun first second => nodes.nodeIp first.id ≤ nodes.nodeIp second.id) := by
  have sorted : (sortPlacementGroupByNodeIp nodes pgs).Pairwise
      (fun first second => decide (nodes.nodeIp first.id ≤ nodes.nodeIp second.id) = true) := by
    apply pairwise_mergeSort
    · intro a b c first second
      simp only [decide_eq_true_eq] at first second ⊢
      exact le_trans first second
    · intro a b
      simpa using le_total (nodes.nodeIp a.id) (nodes.nodeIp b.id)
  exact sorted.imp of_decide_eq_true

theorem sort_of_pairwise {pgs : List PlacementGroup}
    (sorted : pgs.Pairwise (fun first second => nodes.nodeIp first.id ≤ nodes.nodeIp second.id)) :
    sortPlacementGroupByNodeIp nodes pgs = pgs := by
  apply mergeSort_of_pairwise
  simpa using sorted

theorem sort_inOrder : sortPlacementGroupByNodeIp nodes nodes.inOrder = nodes.inOrder :=
  sort_of_pairwise nodes (sort_pairwise nodes _)

omit [LinearOrder ι] in
theorem created_getElem? (index : Nat) : nodes.created[index]? = nodes.store[index]?.map (fun count => ⟨index, count⟩) :=
  List.getElem?_mapIdx

omit [LinearOrder ι] in
theorem created_ids : nodes.created.map PlacementGroup.id = range nodes.store.length := by
  apply ext_getElem?
  intro index
  rw [List.getElem?_map, created_getElem?, Option.map_map]
  by_cases inside : index < nodes.store.length
  · rw [List.getElem?_eq_getElem inside, List.getElem?_range inside]
    rfl
  · rw [List.getElem?_eq_none (Nat.not_lt.mp inside), List.getElem?_eq_none (by simpa using inside)]
    rfl

omit [LinearOrder ι] in
theorem created_counts : nodes.created.map PlacementGroup.bundleCount = nodes.store := by
  apply ext_getElem?
  intro index
  rw [List.getElem?_map, created_getElem?, Option.map_map]
  exact Option.map_id'

theorem ordered_iff : nodes.Ordered ↔ nodes.inOrder = nodes.created := by
  have places : nodes.Ordered ↔ nodes.created.Pairwise (fun first second => nodes.nodeIp first.id ≤ nodes.nodeIp second.id) := by
    rw [Nodes.Ordered, ← created_ids, pairwise_map]
  rw [places]
  constructor
  · exact fun sorted => sort_of_pairwise nodes sorted
  · intro same
    rw [← same]
    exact sort_pairwise nodes _

theorem inOrder_perm : nodes.inOrder.Perm nodes.created := sort_perm nodes _

theorem count_pos {pg : PlacementGroup} (member : pg ∈ nodes.inOrder) : 0 < pg.bundleCount := by
  apply nodes.positive
  rw [← created_counts]
  exact mem_map_of_mem ((inOrder_perm nodes).mem_iff.mp member)

theorem inOrder_nodup : nodes.inOrder.Nodup := by
  rw [(inOrder_perm nodes).nodup_iff]
  apply List.Nodup.of_map PlacementGroup.id
  rw [created_ids]
  exact nodup_range

theorem mem_bundles {pg : PlacementGroup} {index : Nat} :
    (pg, index) ∈ nodes.bundles ↔ pg ∈ nodes.created ∧ index < pg.bundleCount := by
  rw [Nodes.bundles, mem_flatMap]
  constructor
  · rintro ⟨other, member, found⟩
    obtain ⟨place, inside, same⟩ := mem_map.mp found
    cases same
    exact ⟨(inOrder_perm nodes).mem_iff.mp member, mem_range.mp inside⟩
  · rintro ⟨member, inside⟩
    exact ⟨pg, (inOrder_perm nodes).mem_iff.mpr member, mem_map.mpr ⟨index, mem_range.mpr inside, rfl⟩⟩

theorem bundles_nodup : nodes.bundles.Nodup := by
  rw [Nodes.bundles, nodup_flatMap]
  constructor
  · intro pg _
    exact nodup_range.map (fun _ _ same => (Prod.mk.inj same).2)
  · apply (inOrder_nodup nodes).imp
    intro first second apart bundle here there
    obtain ⟨_, _, rfl⟩ := mem_map.mp here
    obtain ⟨_, _, same⟩ := mem_map.mp there
    exact apart (Prod.mk.inj same).1.symm

theorem bundles_length : nodes.bundles.length = nodes.store.sum := by
  have counts : (fun pg : PlacementGroup => (bundlesOf pg).length) = PlacementGroup.bundleCount := by
    funext pg
    rw [bundlesOf, length_map, length_range]
  rw [Nodes.bundles, length_flatMap, counts, ((inOrder_perm nodes).map _).sum_eq, created_counts]

/-! ### The loops that create workers -/

section Loops
variable {count : Nat}

theorem createOnNodes_first (positive : 0 < count) (pgs : List PlacementGroup) {worker : PlacementGroup × Nat}
    (first : (createOnNodes count pgs).1[0]? = some worker) : worker.2 = 0 := by
  cases pgs with
  | nil => cases first
  | cons pg pgs =>
    obtain ⟨count, rfl⟩ := Nat.exists_eq_succ_of_ne_zero (Nat.ne_of_gt positive)
    rw [createOnNodes] at first
    split at first
    · rw [range_succ_eq_map] at first
      cases first
      rfl
    · cases first

/-- Every node gets the same number of workers, which are all its bundles where it has that many. -/
theorem createOnNodes_iff (positive : 0 < count) {pgs : List PlacementGroup} (nonempty : ∀ pg ∈ pgs, 0 < pg.bundleCount) :
    (createOnNodes count pgs).1 = pgs.flatMap bundlesOf ↔ ∀ pg ∈ pgs, pg.bundleCount = count := by
  induction pgs with
  | nil => simp [createOnNodes]
  | cons pg pgs ih =>
    rw [forall_mem_cons] at nonempty
    rw [forall_mem_cons, flatMap_cons, createOnNodes]
    rcases Nat.lt_trichotomy pg.bundleCount count with fewer | same | more
    · rw [if_neg (Nat.not_le.mpr fewer)]
      constructor
      · intro nothing
        have length := congrArg length nothing
        simp only [bundlesOf, length_nil, length_append, length_map, length_range] at length
        omega
      · exact fun all => absurd all.1 (Nat.ne_of_lt fewer)
    · rw [if_pos (Nat.le_of_eq same.symm), ← ih nonempty.2, bundlesOf, same]
      simp
    · rw [if_pos (Nat.le_of_lt more)]
      constructor
      · intro same
        -- the worker behind the first ones is on another node
        have behind := congrArg (fun workers => workers[count]?) same
        have bundle : (bundlesOf pg ++ pgs.flatMap bundlesOf)[count]? = some (pg, count) := by
          rw [List.getElem?_append_left (by simpa [bundlesOf] using more), bundlesOf, List.getElem?_map, List.getElem?_range more]
          rfl
        rw [bundle, List.getElem?_append_right (by simp), length_map, length_range, Nat.sub_self] at behind
        exact absurd (createOnNodes_first positive _ behind) (Nat.ne_of_gt positive)
      · exact fun all => absurd all.1 (Nat.ne_of_gt more)

variable {pgs : List PlacementGroup} (uniform : ∀ pg ∈ pgs, pg.bundleCount = count)
include uniform

theorem flatMap_bundles_length : (pgs.flatMap bundlesOf).length = pgs.length * count := by
  induction pgs with
  | nil => simp
  | cons pg pgs ih =>
    rw [forall_mem_cons] at uniform
    rw [flatMap_cons, length_append, ih uniform.2, bundlesOf, length_map, length_range, uniform.1,
      length_cons, Nat.succ_mul, Nat.add_comm]

theorem flatMap_bundles_getElem? (positive : 0 < count) (rank : Nat) :
    (pgs.flatMap bundlesOf)[rank]? = pgs[rank / count]?.map (fun pg => (pg, rank % count)) := by
  induction pgs generalizing rank with
  | nil => rfl
  | cons pg pgs ih =>
    rw [forall_mem_cons] at uniform
    rw [flatMap_cons]
    have size : (bundlesOf pg).length = count := by rw [bundlesOf, length_map, length_range, uniform.1]
    by_cases first : rank < count
    · rw [List.getElem?_append_left (by rw [size]; exact first), Nat.div_eq_of_lt first, Nat.mod_eq_of_lt first, bundlesOf,
        List.getElem?_map, List.getElem?_range (by rw [uniform.1]; exact first)]
      rfl
    · have later := Nat.not_lt.mp first
      rw [List.getElem?_append_right (by rw [size]; exact later), size, ih uniform.2, Nat.div_eq_sub_div positive later,
        List.getElem?_cons_succ, Nat.mod_eq_sub_mod later]

theorem createRanks_uniform (positive : 0 < count) {ranks : List Nat} (inside : ∀ rank ∈ ranks, rank < (pgs.flatMap bundlesOf).length) :
    (createRanks count pgs ranks).1 = ranks.filterMap (fun rank => (pgs.flatMap bundlesOf)[rank]?) := by
  induction ranks with
  | nil => rfl
  | cons rank ranks ih =>
    rw [forall_mem_cons] at inside
    have found := flatMap_bundles_getElem? uniform positive rank
    have node : rank / count < pgs.length := by
      rw [flatMap_bundles_length uniform] at inside
      exact Nat.div_lt_of_lt_mul (by rw [Nat.mul_comm]; exact inside.1)
    rw [List.getElem?_eq_getElem node, Option.map_some] at found
    rw [createRanks, List.getElem?_eq_getElem node, filterMap_cons, found]
    simp only [uniform _ (getElem_mem node), Nat.le_refl, if_true, ih inside.2]

end Loops

/-! ### Splitting -/

def Pool.ranks (pool : Pool) : List Nat := List.range' pool.startBundleIndex pool.worldSize

theorem cumsum_ranges (start : Nat) (sizes : List Nat) :
    (zipWith range' (cumsum start sizes.dropLast) sizes).flatten = range' start sizes.sum := by
  induction sizes generalizing start with
  | nil => rfl
  | cons size sizes ih =>
    cases sizes with
    | nil => simp [cumsum]
    | cons next sizes =>
      rw [dropLast_cons_cons, cumsum, zipWith_cons_cons, flatten_cons, ih, range'_append_1, ← sum_cons]

/-- What a split gives: sub-pools of the placement groups that the getter returns, over consecutive ranks. -/
theorem splitResourcePool_ok {pool after : Pool} {splitSize : SplitSize} {subPools : List Pool}
    (start : pool.sub = false → pool.startBundleIndex = 0)
    (done : splitResourcePool nodes pool splitSize = .ok (subPools, after)) : after = (getPlacementGroups nodes pool).2 ∧
      (∀ subPool ∈ subPools, subPool.sub = true ∧ subPool.pgs = some (getPlacementGroups nodes pool).1) ∧
      subPools.flatMap Pool.ranks = pool.ranks := by
  obtain ⟨sizes, _, done⟩ := Fallible.bind_eq_ok.mp done
  have first : (if pool.sub then pool.startBundleIndex else 0) = pool.startBundleIndex := by
    cases isSub : pool.sub with
    | false => exact (start isSub).symm
    | true => rfl
  rw [first] at done
  split at done
  · rename_i whole
    cases done
    refine ⟨rfl, ?_, ?_⟩
    · intro subPool member
      rw [← map_uncurry_zip_eq_zipWith] at member
      obtain ⟨_, _, rfl⟩ := mem_map.mp member
      exact ⟨rfl, rfl⟩
    · rw [Pool.ranks, ← whole, ← cumsum_ranges, flatMap_def, map_zipWith]
      rfl
  · cases done

/-! ### Runs -/

def Call.pool : Call → Nat
  | .getPlacementGroups index | .createWorkerGroup index | .split index _ => index

/-- The first call on the pool itself. -/
def rootCall (calls : List Call) : Option Call := calls.find? (fun call => call.pool = 0)

/-- The pool is split before any other call on it. -/
def SplitFirst (calls : List Call) : Prop := ∃ splitSize, rootCall calls = some (.split 0 splitSize)

theorem rootCall_append (calls : List Call) (call : Call) :
    rootCall (calls ++ [call]) = (rootCall calls).or (if call.pool = 0 then some call else none) := by
  rw [rootCall, find?_append, find?_singleton]
  simp [rootCall]

def leafRanks (pools : List Node) : List Nat := pools.flatMap (fun node => if node.isSplit then [] else node.pool.ranks)

theorem leafRanks_set {pools : List Node} {index : Nat} {node : Node} (named : pools[index]? = some node) (next : Node) :
    (leafRanks (pools.set index next) ++ (if node.isSplit then [] else node.pool.ranks)).Perm
      (leafRanks pools ++ (if next.isSplit then [] else next.pool.ranks)) := by
  obtain ⟨inside, rfl⟩ := List.getElem?_eq_some_iff.mp named
  have around : pools = pools.take index ++ pools[index] :: pools.drop (index + 1) := by
    rw [getElem_cons_drop, take_append_drop]
  rw [set_eq_take_append_cons_drop, if_pos inside]
  conv_rhs => rw [around]
  simp only [leafRanks, flatMap_append, flatMap_cons, append_assoc]
  apply List.Perm.append_left
  exact ((perm_append_comm.append_left _).trans (perm_append_comm_assoc _ _ _)).trans
    (perm_append_comm.append_left _)

def Given (calls : List Call) (pgs : List PlacementGroup) : Prop :=
  (SplitFirst calls → pgs = nodes.created) ∧ (¬ SplitFirst calls → pgs = nodes.inOrder)

/-- What every run keeps: the pool itself is the first, the others have the placement groups that
its getter returned to the split, and the ranks are shared out among the pools not yet split. -/
structure Kept (calls : List Call) (pools : List Node) : Prop where
  root : ∃ root, pools[0]? = some root ∧ root.pool.sub = false ∧ root.pool.startBundleIndex = 0 ∧
    root.pool.worldSize = nodes.store.sum ∧ root.pool.pgs = (rootCall calls).map (fun _ => nodes.inOrder) ∧
    (root.isSplit = false → pools = [root] ∧ ¬ SplitFirst calls) ∧ (root.isSplit = true → (rootCall calls).isSome)
  others : ∀ index node, pools[index + 1]? = some node → node.pool.sub = true ∧ ∃ pgs, node.pool.pgs = some pgs ∧ Given nodes calls pgs
  inside : ∀ node ∈ pools, ∀ rank ∈ node.pool.ranks, rank < nodes.store.sum
  leaves : (leafRanks pools).Perm (List.range nodes.store.sum)

theorem start_kept : Kept nodes [] [⟨nodes.pool, false⟩] where
  root := ⟨_, rfl, rfl, rfl, rfl, rfl, fun _ => ⟨rfl, fun ⟨_, impossible⟩ => nomatch impossible⟩, fun impossible => nomatch impossible⟩
  others := fun _ _ found => nomatch found
  inside := by
    intro node member rank belongs
    rw [mem_singleton] at member
    rw [member] at belongs
    simpa [Pool.ranks, Nodes.pool] using belongs
  leaves := by
    rw [range_eq_range']
    exact List.Perm.of_eq (append_nil _)

theorem rootCall_elsewhere {call : Call} (elsewhere : call.pool ≠ 0) (calls : List Call) :
    rootCall (calls ++ [call]) = rootCall calls := by
  rw [rootCall_append, if_neg elsewhere, Option.or_none]

theorem rootCall_here {call : Call} (here : call.pool = 0) (calls : List Call) :
    rootCall (calls ++ [call]) = some ((rootCall calls).getD call) := by
  rw [rootCall_append, if_pos here]
  cases rootCall calls <;> rfl

theorem splitFirst_other {call : Call} (other : ∀ splitSize, call ≠ .split 0 splitSize) (calls : List Call) :
    SplitFirst (calls ++ [call]) ↔ SplitFirst calls := by
  by_cases here : call.pool = 0
  · rw [SplitFirst, rootCall_here here, SplitFirst]
    cases rootCall calls with
    | none => simp [other]
    | some first => rfl
  · rw [SplitFirst, rootCall_elsewhere here, SplitFirst]

theorem getter_shape (pool : Pool) : (getPlacementGroups nodes pool).2.sub = pool.sub ∧
    (getPlacementGroups nodes pool).2.startBundleIndex = pool.startBundleIndex ∧
    (getPlacementGroups nodes pool).2.worldSize = pool.worldSize := by
  rw [getPlacementGroups]
  cases pool.pgs <;> exact ⟨rfl, rfl, rfl⟩

theorem getter_ranks (pool : Pool) : (getPlacementGroups nodes pool).2.ranks = pool.ranks := by
  obtain ⟨_, start, size⟩ := getter_shape nodes pool
  rw [Pool.ranks, Pool.ranks, start, size]

theorem getter_cached {pool : Pool} {pgs : List PlacementGroup} (cached : pool.pgs = some pgs) :
    getPlacementGroups nodes pool = (pgs, pool) := by
  rw [getPlacementGroups, cached]

theorem getter_root {pool : Pool} {first : Option Call} (held : pool.pgs = first.map (fun _ => nodes.inOrder)) :
    (getPlacementGroups nodes pool).2.pgs = some nodes.inOrder ∧
      (getPlacementGroups nodes pool).1 = if first.isSome then nodes.inOrder else nodes.created := by
  rw [getPlacementGroups]
  cases first with
  | none =>
    rw [Option.map_none] at held
    rw [held]
    exact ⟨rfl, rfl⟩
  | some call =>
    rw [Option.map_some] at held
    rw [held]
    exact ⟨held, rfl⟩

section Steps
variable {nodes} {calls : List Call} {pools : List Node} (kept : Kept nodes calls pools)
include kept

theorem Kept.leaves_same {index : Nat} {node next : Node} (named : pools[index]? = some node)
    (split : next.isSplit = node.isSplit) (ranks : next.pool.ranks = node.pool.ranks) :
    (leafRanks (pools.set index next)).Perm (range nodes.store.sum) := by
  have moved := leafRanks_set named next
  rw [split, ranks, perm_append_right_iff] at moved
  exact moved.trans kept.leaves

theorem Kept.leaves_split {index : Nat} {pool after : Pool} {subPools : List Pool} (named : pools[index]? = some ⟨pool, false⟩)
    (ranks : subPools.flatMap Pool.ranks = pool.ranks) :
    (leafRanks (pools.set index ⟨after, true⟩ ++ subPools.map (fun pool => ⟨pool, false⟩))).Perm (range nodes.store.sum) := by
  have moved := leafRanks_set named ⟨after, true⟩
  have shares : leafRanks (subPools.map (fun pool => ⟨pool, false⟩)) = pool.ranks := by
    rw [leafRanks, flatMap_map, ← ranks]
    rfl
  rw [leafRanks, flatMap_append]
  rw [leafRanks] at shares
  rw [shares]
  refine moved.trans ?_
  rw [if_pos rfl, append_nil]
  exact kept.leaves

theorem Kept.inside_set {index : Nat} {node next : Node} (named : pools[index]? = some node)
    (ranks : next.pool.ranks = node.pool.ranks) :
    ∀ node ∈ pools.set index next, ∀ rank ∈ node.pool.ranks, rank < nodes.store.sum := by
  intro other member
  cases mem_or_eq_of_mem_set member with
  | inl old => exact kept.inside other old
  | inr new =>
    rw [new, ranks]
    exact kept.inside node (mem_of_getElem? named)

theorem Kept.inside_split {index : Nat} {pool after : Pool} {subPools : List Pool} (named : pools[index]? = some ⟨pool, false⟩)
    (same : after.ranks = pool.ranks) (ranks : subPools.flatMap Pool.ranks = pool.ranks) :
    ∀ node ∈ pools.set index ⟨after, true⟩ ++ subPools.map (fun pool => ⟨pool, false⟩),
      ∀ rank ∈ node.pool.ranks, rank < nodes.store.sum := by
  intro node member rank belongs
  cases mem_append.mp member with
  | inl here => exact kept.inside_set named (show (Node.mk after true).pool.ranks = _ from same) node here rank belongs
  | inr new =>
    obtain ⟨subPool, given, rfl⟩ := mem_map.mp new
    apply kept.inside _ (mem_of_getElem? named) rank
    rw [← ranks]
    exact mem_flatMap_of_mem given belongs

theorem Kept.touch {call : Call} {node : Node} (other : ∀ splitSize, call ≠ .split 0 splitSize)
    (named : pools[call.pool]? = some node) :
    Kept nodes (calls ++ [call]) (pools.set call.pool ⟨(getPlacementGroups nodes node.pool).2, node.isSplit⟩) := by
  obtain ⟨root, first, isRoot, start, size, held, unsplit, split⟩ := kept.root
  have shape := getter_shape nodes node.pool
  have given : ∀ {pgs}, Given nodes calls pgs → Given nodes (calls ++ [call]) pgs := by
    intro pgs given
    rw [Given, splitFirst_other other]
    exact given
  by_cases here : call.pool = 0
  · rw [here] at named ⊢
    rw [first] at named
    cases named
    have inside := (List.getElem?_eq_some_iff.mp first).1
    refine ⟨⟨_, List.getElem?_set_self inside, shape.1.trans isRoot, shape.2.1.trans start, shape.2.2.trans size, ?_, ?_, ?_⟩,
      ?_, kept.inside_set first (getter_ranks nodes _), kept.leaves_same first rfl (getter_ranks nodes _)⟩
    · rw [rootCall_here here, Option.map_some]
      exact (getter_root nodes held).1
    · intro leaf
      obtain ⟨alone, later⟩ := unsplit leaf
      refine ⟨?_, fun firstSplit => later ((splitFirst_other other calls).mp firstSplit)⟩
      rw [alone]
      rfl
    · intro _
      rw [rootCall_here here]
      rfl
    · intro index found named
      rw [List.getElem?_set_ne (by omega)] at named
      obtain ⟨isSub, pgs, cached, held⟩ := kept.others index found named
      exact ⟨isSub, pgs, cached, given held⟩
  · obtain ⟨index, isNext⟩ := Nat.exists_eq_succ_of_ne_zero here
    rw [isNext] at named ⊢
    obtain ⟨_, pgs, cached, _⟩ := kept.others index node named
    have same : pools.set (index + 1) ⟨(getPlacementGroups nodes node.pool).2, node.isSplit⟩ = pools := by
      rw [getter_cached nodes cached]
      obtain ⟨inside, rfl⟩ := List.getElem?_eq_some_iff.mp named
      exact set_getElem_self inside
    rw [same]
    refine ⟨⟨root, first, isRoot, start, size, ?_, ?_, ?_⟩, ?_, kept.inside, kept.leaves⟩
    · rw [rootCall_elsewhere here]
      exact held
    · intro leaf
      exact ⟨(unsplit leaf).1, fun firstSplit => (unsplit leaf).2 ((splitFirst_other other calls).mp firstSplit)⟩
    · rw [rootCall_elsewhere here]
      exact split
    · intro index found named
      obtain ⟨isSub, pgs, cached, held⟩ := kept.others index found named
      exact ⟨isSub, pgs, cached, given held⟩

theorem Kept.split_root {pool after : Pool} {splitSize : SplitSize} {subPools : List Pool} (named : pools[0]? = some ⟨pool, false⟩)
    (done : splitResourcePool nodes pool splitSize = .ok (subPools, after)) :
    Kept nodes (calls ++ [.split 0 splitSize]) (pools.set 0 ⟨after, true⟩ ++ subPools.map (fun pool => ⟨pool, false⟩)) := by
  obtain ⟨root, first, isRoot, start, size, held, unsplit, _⟩ := kept.root
  rw [named] at first
  cases first
  obtain ⟨alone, later⟩ := unsplit rfl
  obtain ⟨isAfter, shares, ranks⟩ := splitResourcePool_ok nodes (fun _ => start) done
  have shape := getter_shape nodes pool
  have returned := getter_root nodes held
  rw [← isAfter] at shape returned
  have here : rootCall (calls ++ [.split 0 splitSize]) = some ((rootCall calls).getD (.split 0 splitSize)) := rootCall_here rfl calls
  refine ⟨⟨⟨after, true⟩, ?_, shape.1.trans isRoot, shape.2.1.trans start, shape.2.2.trans size, ?_, (fun leaf => nomatch leaf), ?_⟩,
    ?_, kept.inside_split named ?_ ranks, kept.leaves_split named ranks⟩
  · rw [alone]
    rfl
  · rw [here]
    exact returned.1
  · intro _
    rw [here]
    rfl
  · intro index node found
    rw [alone] at found
    obtain ⟨subPool, member, rfl⟩ := mem_map.mp (mem_of_getElem? (show (subPools.map _)[index]? = some node from found))
    refine ⟨(shares subPool member).1, _, (shares subPool member).2, ?_⟩
    rw [returned.2, Given, SplitFirst, here]
    cases earlier : rootCall calls with
    | none => simp
    | some call =>
      have noSplit : ∀ splitSize, call ≠ .split 0 splitSize := by
        intro splitSize isSplit
        rw [isSplit] at earlier
        exact later ⟨splitSize, earlier⟩
      simp [noSplit]
  · rw [isAfter]
    exact getter_ranks nodes pool

theorem Kept.split_sub {index : Nat} {pool after : Pool} {splitSize : SplitSize} {subPools : List Pool}
    (named : pools[index + 1]? = some ⟨pool, false⟩) (done : splitResourcePool nodes pool splitSize = .ok (subPools, after)) :
    Kept nodes (calls ++ [.split (index + 1) splitSize])
      (pools.set (index + 1) ⟨after, true⟩ ++ subPools.map (fun pool => ⟨pool, false⟩)) := by
  obtain ⟨root, first, isRoot, start, size, held, unsplit, split⟩ := kept.root
  obtain ⟨isSub, pgs, cached, given⟩ := kept.others index _ named
  obtain ⟨isAfter, shares, ranks⟩ := splitResourcePool_ok nodes (fun notSub => Bool.noConfusion (notSub.symm.trans isSub)) done
  rw [getter_cached nodes cached] at isAfter shares
  have elsewhere : Call.pool (.split (index + 1) splitSize) ≠ 0 := Nat.succ_ne_zero index
  have same : SplitFirst (calls ++ [.split (index + 1) splitSize]) ↔ SplitFirst calls := by
    rw [SplitFirst, rootCall_elsewhere elsewhere, SplitFirst]
  have still : Given nodes (calls ++ [.split (index + 1) splitSize]) pgs := by
    rw [Given, same]
    exact given
  have positive := (List.getElem?_eq_some_iff.mp first).1
  refine ⟨⟨root, ?_, isRoot, start, size, ?_, ?_, ?_⟩, ?_, kept.inside_split named ?_ ranks, kept.leaves_split named ranks⟩
  · rw [List.getElem?_append_left (by rw [length_set]; exact positive), List.getElem?_set_ne (Nat.succ_ne_zero index)]
    exact first
  · rw [rootCall_elsewhere elsewhere]
    exact held
  · intro leaf
    have alone := (unsplit leaf).1
    rw [alone] at named
    cases named
  · rw [rootCall_elsewhere elsewhere]
    exact split
  · intro place node found
    rw [List.getElem?_append] at found
    split at found
    · by_cases here : index = place
      · rw [here, List.getElem?_set_self (by rw [← here]; exact (List.getElem?_eq_some_iff.mp named).1)] at found
        cases found
        rw [isAfter]
        exact ⟨isSub, pgs, cached, still⟩
      · rw [List.getElem?_set_ne (by omega)] at found
        obtain ⟨isSub, pgs, cached, given⟩ := kept.others place node found
        refine ⟨isSub, pgs, cached, ?_⟩
        rw [Given, same]
        exact given
    · obtain ⟨subPool, member, rfl⟩ := mem_map.mp (mem_of_getElem? found)
      exact ⟨(shares subPool member).1, pgs, (shares subPool member).2, still⟩
  · rw [isAfter]

theorem Kept.step {next : List Node} {call : Call} (taken : Step nodes pools call next) : Kept nodes (calls ++ [call]) next := by
  cases taken with
  | get named => exact kept.touch (fun _ isSplit => nomatch isSplit) named
  | create named => exact kept.touch (fun _ isSplit => nomatch isSplit) named
  | @split index _ _ _ _ named done =>
    cases index with
    | zero => exact kept.split_root named done
    | succ index => exact kept.split_sub named done

end Steps

theorem PoolRun.kept {nodes : Nodes ι} {calls : List Call} {pools : List Node} (run : PoolRun nodes calls pools) :
    Kept nodes calls pools :=
  Runs.Run.invariant (Kept nodes) (start_kept nodes) (fun _ _ _ _ kept taken => kept.step taken) run

/-! ### The workers of a pool -/

omit [LinearOrder ι] in
theorem uniform_count {nodes : Nodes ι} (uniform : nodes.Uniform) {count : Nat} (first : nodes.store.head? = some count)
    {pgs : List PlacementGroup} (same : pgs.Perm nodes.created) : ∀ pg ∈ pgs, pg.bundleCount = count := by
  intro pg member
  have counted : pg.bundleCount ∈ nodes.store := by
    rw [← created_counts]
    exact mem_map_of_mem (same.mem_iff.mp member)
  exact Option.some.inj ((uniform _ counted).symm.trans first)

theorem inOrder_uniform {count : Nat} (first : nodes.store.head? = some count) :
    (∀ pg ∈ nodes.inOrder, pg.bundleCount = count) ↔ nodes.Uniform := by
  constructor
  · intro same other member
    rw [← created_counts] at member
    obtain ⟨pg, made, rfl⟩ := mem_map.mp member
    rw [first, same pg ((inOrder_perm nodes).mem_iff.mpr made)]
  · exact fun uniform => uniform_count uniform first (inOrder_perm nodes)

theorem root_workers {pool : Pool} {first : Option Call} (isRoot : pool.sub = false)
    (held : pool.pgs = first.map (fun _ => nodes.inOrder)) : (createWorkerGroup nodes pool).1 = nodes.bundles ↔ nodes.Uniform := by
  have sorted : sortPlacementGroupByNodeIp nodes (getPlacementGroups nodes pool).1 = nodes.inOrder := by
    rw [(getter_root nodes held).2]
    cases first with
    | none => rfl
    | some _ => exact sort_inOrder nodes
  rw [createWorkerGroup, isRoot, if_neg (Bool.false_ne_true), initWithResourcePool, sorted]
  cases store : nodes.store with
  | nil =>
    have empty : nodes.bundles = [] := by
      rw [← length_eq_zero_iff, bundles_length, store]
      rfl
    simp [empty, Nodes.Uniform, store]
  | cons count rest =>
    have head : nodes.store.head? = some count := by rw [store]; rfl
    rw [← inOrder_uniform nodes head]
    have positive : 0 < count := nodes.positive count (by rw [store]; exact mem_cons_self)
    exact createOnNodes_iff positive (fun pg member => count_pos nodes member)

theorem sub_workers {nodes : Nodes ι} (uniform : nodes.Uniform) {pool : Pool} {pgs : List PlacementGroup} (isSub : pool.sub = true)
    (held : pool.pgs = some pgs) (same : pgs.Perm nodes.created) (inside : ∀ rank ∈ pool.ranks, rank < nodes.store.sum) :
    (createWorkerGroup nodes pool).1 =
      slice (pgs.flatMap bundlesOf) pool.startBundleIndex (pool.startBundleIndex + pool.worldSize) := by
  have length : (pgs.flatMap bundlesOf).length = nodes.store.sum := by
    rw [← bundles_length, Nodes.bundles]
    exact ((same.trans (inOrder_perm nodes).symm).flatMap_right _).length_eq
  rw [createWorkerGroup, isSub, if_pos rfl, initWithSubresourcePool, getter_cached nodes held]
  rcases Nat.eq_zero_or_pos pool.worldSize with empty | nonempty
  · have nothing : slice (pgs.flatMap bundlesOf) pool.startBundleIndex (pool.startBundleIndex + pool.worldSize) = [] := by
      simp [slice, empty]
    rw [nothing, empty]
    cases nodes.store with
    | nil => rfl
    | cons count rest =>
      simp only
      cases pgs[pool.startBundleIndex / count]? <;> rfl
  · have early : pool.startBundleIndex < nodes.store.sum := by
      apply inside
      simpa [Pool.ranks] using nonempty
    cases store : nodes.store with
    | nil =>
      rw [store] at early
      exact absurd early (Nat.not_lt_zero _)
    | cons count rest =>
      have head : nodes.store.head? = some count := by rw [store]; rfl
      have counts := uniform_count uniform head same
      have positive : 0 < count := nodes.positive count (by rw [store]; exact mem_cons_self)
      have master : pool.startBundleIndex / count < pgs.length := by
        rw [← length, flatMap_bundles_length counts] at early
        exact Nat.div_lt_of_lt_mul (by rw [Nat.mul_comm]; exact early)
      simp only [List.getElem?_eq_getElem master]
      rw [← filterMap_range']
      apply createRanks_uniform counts positive
      intro rank belongs
      rw [length]
      exact inside rank belongs

/-! ### Ranks and bundles -/

/-- The workers of the pools that were not split. -/
def leafWorkers (pools : List Node) : List (PlacementGroup × Nat) :=
  pools.flatMap (fun node => if node.isSplit then [] else (createWorkerGroup nodes node.pool).1)

/-- Every pool binds a rank to its bundle in node-ip order, and the pools that were not split share
out the bundles. -/
structure BoundInOrder (pools : List Node) : Prop where
  bound : ∀ node ∈ pools, (createWorkerGroup nodes node.pool).1 =
    slice nodes.bundles node.pool.startBundleIndex (node.pool.startBundleIndex + node.pool.worldSize)
  disjoint : (leafWorkers nodes pools).Nodup
  cover : ∀ pg ∈ nodes.created, ∀ index < pg.bundleCount, (pg, index) ∈ leafWorkers nodes pools

section Runs
variable {nodes} {calls : List Call} {pools : List Node} (kept : Kept nodes calls pools)
include kept

section
variable
  (bound : ∀ node ∈ pools, (createWorkerGroup nodes node.pool).1 = slice nodes.bundles node.pool.startBundleIndex (node.pool.startBundleIndex + node.pool.worldSize))
include bound

theorem Kept.leafWorkers_perm : (leafWorkers nodes pools).Perm nodes.bundles := by
  have byRank : leafWorkers nodes pools = (leafRanks pools).filterMap (fun rank => nodes.bundles[rank]?) := by
    rw [leafWorkers, leafRanks, filterMap_flatMap]
    apply flatMap_congr
    intro node member
    cases node.isSplit with
    | true => rfl
    | false => exact (bound node member).trans (filterMap_range' _ _ _).symm
  have whole : (range nodes.store.sum).filterMap (fun rank => nodes.bundles[rank]?) = nodes.bundles := by
    rw [range_eq_range', filterMap_range']
    exact slice_full _ _ (Nat.le_of_eq ((bundles_length nodes).trans (Nat.zero_add _).symm))
  have shared := kept.leaves.filterMap (fun rank => nodes.bundles[rank]?)
  rw [whole, ← byRank] at shared
  exact shared

theorem Kept.boundInOrder :
    BoundInOrder nodes pools where
  bound := bound
  disjoint := (kept.leafWorkers_perm bound).nodup_iff.mpr (bundles_nodup nodes)
  cover := by
    intro pg made index inside
    rw [(kept.leafWorkers_perm bound).mem_iff, mem_bundles]
    exact ⟨made, inside⟩

end

theorem Kept.bound_of_uniform (uniform : nodes.Uniform) (ordered : SplitFirst calls → nodes.Ordered) :
    ∀ node ∈ pools, (createWorkerGroup nodes node.pool).1 =
      slice nodes.bundles node.pool.startBundleIndex (node.pool.startBundleIndex + node.pool.worldSize) := by
  intro node member
  obtain ⟨place, named⟩ := List.getElem?_of_mem member
  cases place with
  | zero =>
    obtain ⟨root, first, isRoot, start, size, held, _⟩ := kept.root
    rw [named] at first
    cases first
    rw [(root_workers nodes isRoot held).mpr uniform, start, size, Nat.zero_add]
    exact (slice_full _ _ (Nat.le_of_eq (bundles_length nodes))).symm
  | succ place =>
    obtain ⟨isSub, pgs, held, given⟩ := kept.others place node named
    have inOrder : pgs = nodes.inOrder := by
      by_cases splitFirst : SplitFirst calls
      · rw [given.1 splitFirst, (ordered_iff nodes).mp (ordered splitFirst)]
      · exact given.2 splitFirst
    rw [inOrder] at held
    exact sub_workers uniform isSub held (inOrder_perm nodes) (kept.inside node member)

theorem Kept.ordered_of_bound (uniform : nodes.Uniform) (splitFirst : SplitFirst calls)
    (bound : ∀ node ∈ pools, (createWorkerGroup nodes node.pool).1 =
      slice nodes.bundles node.pool.startBundleIndex (node.pool.startBundleIndex + node.pool.worldSize)) :
    nodes.Ordered := by
  have length : (nodes.created.flatMap bundlesOf).length = nodes.store.sum := by
    rw [← bundles_length, Nodes.bundles]
    exact ((inOrder_perm nodes).symm.flatMap_right _).length_eq
  have same : nodes.bundles = nodes.created.flatMap bundlesOf := by
    apply ext_getElem?
    intro rank
    by_cases inside : rank < nodes.store.sum
    · have shared : rank ∈ leafRanks pools := kept.leaves.mem_iff.mpr (mem_range.mpr inside)
      obtain ⟨node, member, belongs⟩ := mem_flatMap.mp shared
      split at belongs
      · cases belongs
      · rename_i leaf
        obtain ⟨place, named⟩ := List.getElem?_of_mem member
        cases place with
        | zero =>
          obtain ⟨root, first, _, _, _, _, unsplit, _⟩ := kept.root
          rw [named] at first
          cases first
          exact absurd splitFirst (unsplit (Bool.eq_false_iff.mpr leaf)).2
        | succ place =>
          obtain ⟨isSub, pgs, held, given⟩ := kept.others place node named
          rw [given.1 splitFirst] at held
          have workers := bound node member
          rw [sub_workers uniform isSub held (List.Perm.refl _) (kept.inside node member)] at workers
          obtain ⟨offset, here, rfl⟩ := mem_range'.mp belongs
          have atRank := congrArg (fun workers => workers[offset]?) workers
          simp only [slice_getElem?] at atRank
          rw [if_pos (by omega), if_pos (by omega)] at atRank
          rw [Nat.one_mul]
          exact atRank.symm
    · rw [List.getElem?_eq_none (by rw [bundles_length]; exact Nat.not_lt.mp inside),
        List.getElem?_eq_none (by rw [length]; exact Nat.not_lt.mp inside)]
  rw [ordered_iff]
  cases store : nodes.store with
  | nil =>
    have empty : nodes.created = [] := by rw [Nodes.created, store]; rfl
    have perm := inOrder_perm nodes
    rw [empty] at perm ⊢
    exact perm.eq_nil
  | cons count rest =>
    have head : nodes.store.head? = some count := by rw [store]; rfl
    have positive : 0 < count := nodes.positive count (by rw [store]; exact mem_cons_self)
    apply ext_getElem?
    intro place
    -- the first bundle of the node
    have first := congrArg (fun bundles => bundles[place * count]?) same
    simp only [Nodes.bundles] at first
    rw [flatMap_bundles_getElem? (uniform_count uniform head (inOrder_perm nodes)) positive,
      flatMap_bundles_getElem? (uniform_count uniform head (List.Perm.refl _)) positive, Nat.mul_div_cancel _ positive] at first
    exact Option.map_injective (fun _ _ same => (Prod.mk.inj same).1) first

end Runs

/-- The condition: all nodes have one process count, and a pool that is split first was made in the
order of the addresses. -/
theorem bound_in_order_iff {nodes : Nodes ι} {calls : List Call} {pools : List Node} (run : PoolRun nodes calls pools) :
    BoundInOrder nodes pools ↔ nodes.Uniform ∧ (SplitFirst calls → nodes.Ordered) := by
  have kept := run.kept
  constructor
  · intro inOrder
    obtain ⟨root, first, isRoot, start, size, held, _⟩ := kept.root
    have uniform : nodes.Uniform := by
      rw [← root_workers nodes isRoot held, inOrder.bound root (List.mem_of_getElem? first), start, size, Nat.zero_add]
      exact slice_full _ _ (Nat.le_of_eq (bundles_length nodes))
    exact ⟨uniform, fun splitFirst => kept.ordered_of_bound uniform splitFirst inOrder.bound⟩
  · rintro ⟨uniform, ordered⟩
    exact kept.boundInOrder (kept.bound_of_uniform uniform ordered)

theorem pair_positive : ∀ count ∈ [2, 2], 0 < count := by simp

/-- Two nodes of two processes, the second at the lower address. -/
def reversedPair : Nodes Nat := ⟨[2, 2], pair_positive, fun place => 1 - place⟩

/-- The pool once it has its placement groups, and the halves that it is split into. -/
def reversedPool : Pool := ⟨false, some reversedPair.inOrder, 0, 4⟩
def halves (pgs : List PlacementGroup) : List Pool := [⟨true, some pgs, 0, 2⟩, ⟨true, some pgs, 2, 2⟩]
def splitPools (pgs : List PlacementGroup) : List Node := ⟨reversedPool, true⟩ :: (halves pgs).map (fun pool => ⟨pool, false⟩)

theorem reversedPair_uniform : reversedPair.Uniform := by simp [Nodes.Uniform, reversedPair]

/-- The getter is called before the split. -/
theorem bound_in_order_got : BoundInOrder reversedPair (splitPools reversedPair.inOrder) := by
  have got : PoolRun reversedPair [.getPlacementGroups 0] [⟨reversedPool, false⟩] :=
    Runs.Run.single (@Step.get _ _ reversedPair [⟨reversedPair.pool, false⟩] 0 ⟨reversedPair.pool, false⟩ rfl)
  have run : PoolRun reversedPair ([.getPlacementGroups 0] ++ [.split 0 (.int 2)]) (splitPools reversedPair.inOrder) :=
    .step got (@Step.split _ _ reversedPair [⟨reversedPool, false⟩] 0 reversedPool reversedPool (.int 2)
      (halves reversedPair.inOrder) rfl rfl)
  apply (bound_in_order_iff run).mpr
  constructor
  · exact reversedPair_uniform
  · intro ⟨splitSize, found⟩
    cases found

/-- The pool is split first: the first half is on the node with the higher address. -/
theorem not_bound_in_order :
    PoolRun reversedPair [.split 0 (.int 2)] (splitPools reversedPair.created) ∧
      ¬ BoundInOrder reversedPair (splitPools reversedPair.created) := by
  have run : PoolRun reversedPair [.split 0 (.int 2)] (splitPools reversedPair.created) :=
    Runs.Run.single (@Step.split _ _ reversedPair [⟨reversedPair.pool, false⟩] 0 reversedPair.pool reversedPool (.int 2)
      (halves reversedPair.created) rfl rfl)
  refine ⟨run, fun inOrder => ?_⟩
  have ordered := run.kept.ordered_of_bound reversedPair_uniform ⟨_, rfl⟩ inOrder.bound
  simp [Nodes.Ordered, reversedPair, List.range_succ] at ordered

end LLMFusion.ResourcePool
