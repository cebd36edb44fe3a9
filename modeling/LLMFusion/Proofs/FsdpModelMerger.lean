import LLMFusion.FsdpModelMerger
import LLMFusion.Lib.Grouping

/-! What the merger makes of a checkpoint. The slots hold the files in the order of the ranks,
whichever thread finishes first; a key is merged from what the loaded files hold of it. -/

namespace LLMFusion.FsdpModelMerger
open List hiding mapM_map
open Fallible

variable {α : Type}

/-! ### Loading -/

theorem processOneShard_getElem? (files : Nat → Option (StateDict α)) (slots : List (Option (StateDict α))) (rank index : Nat) :
    (processOneShard files slots rank)[index]? =
      if rank = index ∧ (files rank).isSome then slots[index]?.map (fun _ => files index) else slots[index]? := by
  unfold processOneShard
  split
  next stateDict found =>
    rw [getElem?_set]
    by_cases same : rank = index
    · subst same
      by_cases inside : rank < slots.length
      · simp [found, inside]
      · simp [found, inside]
    · simp [same]
  next missing => simp [missing]

theorem loaded_getElem? (files : Nat → Option (StateDict α)) (finished : List Nat) (slots : List (Option (StateDict α)))
    (index : Nat) : (finished.foldl (processOneShard files) slots)[index]? =
      if index ∈ finished ∧ (files index).isSome then slots[index]?.map (fun _ => files index) else slots[index]? := by
  induction finished generalizing slots with
  | nil => simp
  | cons rank finished ih =>
    rw [foldl_cons, ih, processOneShard_getElem?]
    by_cases same : rank = index
    · subst same
      by_cases found : (files rank).isSome <;> by_cases later : rank ∈ finished <;> simp [found, later, Function.comp_def]
    · simp [same, Ne.symm same]

theorem loadShards_ok {files : Nat → Option (StateDict α)} {totalShards : Nat} {stateDict : Nat → StateDict α}
    (present : ∀ rank < totalShards, files rank = some (stateDict rank)) {finished : List Nat}
    (every : finished.Perm (range totalShards)) :
    loadShards files totalShards finished = .ok ((range totalShards).map stateDict) := by
  have slots : finished.foldl (processOneShard files) (replicate totalShards none) =
      (range totalShards).map (fun rank => some (stateDict rank)) := by
    apply ext_getElem?
    intro index
    have member : index ∈ finished ↔ index < totalShards := every.mem_iff.trans mem_range
    rw [loaded_getElem?, getElem?_map]
    by_cases inside : index < totalShards
    · simp [present index inside, member, inside]
    · simp [inside, member]
  have none_missing : (range totalShards).find? (fun rank => (files rank).isNone) = none := by
    rw [find?_eq_none]
    intro rank member
    simp [present rank (mem_range.mp member)]
  rw [loadShards, none_missing, slots]
  simp only [List.mapM_map]
  exact mapM_map stateDict (fun rank _ => rfl)

/-! ### Collecting -/

/-- The placements of a weight without that of the data parallel dimension. -/
def Weight.kept (meshDimNames : List String) : Weight α → Option (List Placement)
  | .plain _ => none
  | .dtensor _ placements _ =>
    some (if meshDimNames.head? = some "dp" ∨ meshDimNames.head? = some "ddp" then placements.drop 1 else placements)

def Weight.tensor : Weight α → NdTensor α
  | .plain tensor | .dtensor _ _ tensor => tensor

section Collecting
variable (bfloat16 : α → α) {names : List String} {key : String} {kept : Option (List Placement)}

theorem addShard_ok {collected : Collected α} {weight : Weight α} (same : weight.kept names = kept)
    (agree : collected.placements = none ∨ collected.placements = kept) :
    addShard bfloat16 names key collected weight =
      .ok ⟨collected.tensors ++ [weight.tensor.map bfloat16], if kept = none then collected.placements else kept⟩ := by
  cases weight with
  | plain tensor =>
    subst same
    rfl
  | dtensor mesh placements tensor =>
    subst same
    rcases agree with agree | agree
    · simp only [addShard, agree, Weight.kept, Weight.tensor, reduceCtorEq, if_false]
    · simp only [addShard, agree, Weight.kept, Weight.tensor, reduceCtorEq, if_false, if_true]

theorem collectKey_ok {ranks : List Nat} {dict : Nat → StateDict α} {weight : Nat → Weight α}
    (stored : ∀ rank ∈ ranks, (dict rank).lookup key = some (weight rank))
    (agree : ∀ rank ∈ ranks, (weight rank).kept names = kept) :
    collectKey bfloat16 names key (ranks.map dict) =
      .ok (⟨ranks.map (fun rank => (weight rank).tensor.map bfloat16), if ranks = [] then none else kept⟩,
        ranks.map (fun rank => Indexing.remove key (dict rank))) := by
  induction ranks using reverseRecOn with
  | nil => rfl
  | append_singleton ranks rank ih =>
    have before := ih (fun other member => stored other (by simp [member])) (fun other member => agree other (by simp [member]))
    have last : rank ∈ ranks ++ [rank] := by simp
    unfold collectKey at before ⊢
    rw [map_append, foldlM_append, before]
    have added := @addShard_ok _ bfloat16 names key kept
      ⟨ranks.map (fun rank => (weight rank).tensor.map bfloat16), if ranks = [] then none else kept⟩ _ (agree rank last)
      (by by_cases empty : ranks = [] <;> simp [empty])
    simp only [ok_bind, map_singleton, foldlM_cons, foldlM_nil, pop, stored rank last, added]
    by_cases empty : ranks = [] <;> by_cases unplaced : kept = none <;> simp [empty, unplaced] <;> rfl

theorem collectKeys_ok {π : Type} {ranks : List Nat} (loaded : ranks ≠ []) {items : List (String × π)}
    (distinct : (items.map Prod.fst).Nodup) {weight : π → Nat → Weight α} {kept : π → Option (List Placement)}
    (agree : ∀ item ∈ items, ∀ rank ∈ ranks, (weight item.2 rank).kept names = kept item.2) {dict : Nat → StateDict α}
    (stored : ∀ item ∈ items, ∀ rank ∈ ranks, (dict rank).lookup item.1 = some (weight item.2 rank))
    (before : List (String × Collected α)) :
    ∃ rest, (items.map Prod.fst).foldlM (fun state key => do
        let (collected, rest) ← collectKey bfloat16 names key state.2
        .ok (state.1 ++ [(key, collected)], rest)) (before, ranks.map dict) =
      (Except.ok (before ++ items.map (fun item =>
        (item.1, ⟨ranks.map (fun rank => (weight item.2 rank).tensor.map bfloat16), kept item.2⟩)), rest) : Except Failure _) := by
  induction items generalizing dict before with
  | nil => exact ⟨_, by simp; rfl⟩
  | cons item items ih =>
    rw [map_cons, nodup_cons] at distinct
    have first := collectKey_ok bfloat16 (stored item mem_cons_self) (agree item mem_cons_self)
    rw [if_neg loaded] at first
    have others : ∀ other ∈ items, ∀ rank ∈ ranks,
        (Indexing.remove item.1 (dict rank)).lookup other.1 = some (weight other.2 rank) := by
      intro other member rank present
      have different : other.1 ≠ item.1 := fun same => distinct.1 (same ▸ mem_map_of_mem member)
      rw [Indexing.lookup_remove, if_neg different]
      exact stored other (mem_cons_of_mem _ member) rank present
    obtain ⟨rest, looped⟩ := ih distinct.2 (fun other member => agree other (mem_cons_of_mem _ member)) others
      (before ++ [(item.1, _)])
    refine ⟨rest, ?_⟩
    rw [map_cons, foldlM_cons, first]
    refine Eq.trans looped ?_
    simp only [map_cons, append_assoc, singleton_append]

end Collecting

/-! ### Merging a checkpoint -/

namespace Layout
open List hiding mapM_map

theorem line_sized (shards : Nat) : (range shards).length = [shards].prod := by
  rw [length_range, prod_singleton]

theorem grid_sized (replicas shards : Nat) : (range (replicas * shards)).length = [replicas, shards].prod := by
  rw [length_range, prod_cons, prod_singleton]

def mesh : Layout → DeviceMesh
  | fsdp shards => ⟨⟨[shards], List.range shards, line_sized shards⟩, ["fsdp"]⟩
  | ddpFsdp replicas shards => ⟨⟨[replicas, shards], List.range (replicas * shards), grid_sized replicas shards⟩, ["ddp", "fsdp"]⟩
  | plain shards => ⟨singleton shards, ["fsdp"]⟩

/-- The number of files the loader reads. The default mesh has a single place, which holds the
number of ranks. -/
def loaded : Layout → Nat
  | fsdp shards | ddpFsdp _ shards => shards
  | plain _ => 1

def kept (layout : Layout) (parameter : Parameter α layout.shards) : Option (List Placement) :=
  match layout with
  | fsdp _ | ddpFsdp _ _ => some [parameter.placement]
  | plain _ => none

theorem calculated (layout : Layout) :
    calculateShardConfiguration layout.mesh = .ok (layout.loaded, [layout.loaded]) := by
  cases layout <;> rfl

theorem loaded_le {layout : Layout} (written : 0 < layout.worldSize) : 0 < layout.loaded ∧ layout.loaded ≤ layout.worldSize := by
  cases layout with
  | fsdp shards => exact ⟨written, Nat.le_refl _⟩
  | ddpFsdp replicas shards =>
    exact ⟨Nat.pos_of_mul_pos_left written, Nat.le_mul_of_pos_left _ (Nat.pos_of_mul_pos_right written)⟩
  | plain shards => exact ⟨Nat.one_pos, written⟩

theorem weight_mesh (layout : Layout) (parameter : Parameter α layout.shards) (rank : Nat) :
    weightMesh layout.worldSize (layout.weight parameter rank) = layout.mesh := by
  cases layout <;> rfl

theorem weight_kept (layout : Layout) (parameter : Parameter α layout.shards) (rank : Nat) :
    (layout.weight parameter rank).kept layout.mesh.meshDimNames = layout.kept parameter := by
  cases layout <;> rfl

theorem weight_tensor {layout : Layout} (parameter : Parameter α layout.shards) {rank : Nat} (inside : rank < layout.loaded) :
    (layout.weight parameter rank).tensor = parameter.shard rank := by
  cases layout with
  | fsdp shards => rfl
  | ddpFsdp replicas shards => exact congrArg parameter.shard (Nat.mod_eq_of_lt inside)
  | plain shards => rfl

end Layout

section Checkpoint
variable (checkpoint : Checkpoint α) (bfloat16 : α → α)

theorem lookup_stateDict (rank : Nat) (key : String) : (checkpoint.stateDict rank).lookup key =
    (checkpoint.params.lookup key).map (fun parameter => checkpoint.layout.weight parameter rank) :=
  Grouping.lookup_values (fun parameter => checkpoint.layout.weight parameter rank) checkpoint.params key

theorem stateDict_keys (rank : Nat) : (checkpoint.stateDict rank).map Prod.fst = checkpoint.params.map Prod.fst := by
  rw [Checkpoint.stateDict, map_map]
  rfl

theorem extracted (present : checkpoint.params ≠ []) :
    extractDeviceMeshInfo (checkpoint.stateDict 0) checkpoint.layout.worldSize = .ok checkpoint.layout.mesh := by
  obtain ⟨pivot, rest, sorted⟩ : ∃ pivot rest, ((checkpoint.stateDict 0).map Prod.fst).mergeSort = pivot :: rest := by
    apply exists_cons_of_ne_nil
    rw [ne_eq, ← length_eq_zero_iff, length_mergeSort, stateDict_keys, length_map, length_eq_zero_iff]
    exact present
  have member : pivot ∈ checkpoint.params.map Prod.fst := by
    rw [← stateDict_keys checkpoint 0, ← mem_mergeSort, sorted]
    exact mem_cons_self
  obtain ⟨parameter, found⟩ := Option.isSome_iff_exists.mp (Indexing.lookup_isSome_iff.mpr member)
  have weight := lookup_stateDict checkpoint 0 pivot
  rw [found, Option.map_some] at weight
  unfold extractDeviceMeshInfo
  simp only [sorted, head?_cons, weight, Layout.weight_mesh]

theorem mergedStateDict_eq (present : checkpoint.params ≠ []) {finished : Nat → List Nat}
    (every : ∀ count, (finished count).Perm (range count)) :
    mergedStateDict bfloat16 checkpoint.files checkpoint.layout.worldSize finished =
      checkpoint.params.mapM (fun entry => do
        let tensor ← mergeKey [checkpoint.layout.loaded]
          ⟨(range checkpoint.layout.loaded).map (fun rank => (entry.2.shard rank).map bfloat16), checkpoint.layout.kept entry.2⟩
        .ok (entry.1, tensor)) := by
  have sizes := Layout.loaded_le checkpoint.written
  have files : ∀ rank < checkpoint.layout.loaded, checkpoint.files rank = some (checkpoint.stateDict rank) :=
    fun rank inside => if_pos (Nat.lt_of_lt_of_le inside sizes.2)
  have loads := loadShards_ok files (every checkpoint.layout.loaded)
  have ranks : range checkpoint.layout.loaded ≠ [] := by
    rw [ne_eq, range_eq_nil]
    exact Nat.pos_iff_ne_zero.mp sizes.1
  have stored : ∀ item ∈ checkpoint.params, ∀ rank ∈ range checkpoint.layout.loaded,
      (checkpoint.stateDict rank).lookup item.1 = some (checkpoint.layout.weight item.2 rank) := by
    intro item member rank _
    rw [lookup_stateDict, Indexing.lookup_of_mem checkpoint.distinct member, Option.map_some]
  obtain ⟨rest, collected⟩ := collectKeys_ok bfloat16 ranks checkpoint.distinct
    (fun item _ rank _ => checkpoint.layout.weight_kept item.2 rank) stored []
  have first : ((range checkpoint.layout.loaded).map checkpoint.stateDict).head? = some (checkpoint.stateDict 0) := by
    rw [head?_map, head?_range]
    simp [Nat.pos_iff_ne_zero.mp sizes.1]
  rw [mergedStateDict, files 0 sizes.1]
  simp only [extracted checkpoint present, checkpoint.layout.calculated, ok_bind, loadAndMergeStateDicts, loads,
    collect, first, stateDict_keys, collected, nil_append, List.mapM_map]
  apply mapM_congr
  intro entry _
  have tensors : (range checkpoint.layout.loaded).map
      (fun rank => (checkpoint.layout.weight entry.2 rank).tensor.map bfloat16) =
      (range checkpoint.layout.loaded).map (fun rank => (entry.2.shard rank).map bfloat16) :=
    map_congr_left (fun rank member =>
      congrArg (NdTensor.map bfloat16) (Layout.weight_tensor entry.2 (mem_range.mp member)))
  rw [Function.comp_apply, tensors]

end Checkpoint

/-! ### Merging a parameter -/

theorem concatenate_single {tensor full : NdTensor α} :
    concatenate [tensor] 0 = .ok full ↔ 0 < tensor.shape.length ∧ tensor = full := by
  unfold concatenate
  rw [NdTensor.cat_single]
  by_cases ranked : 0 < tensor.shape.length
  · simp [ranked]
  · simp [ranked]

namespace Parameter
open List hiding mapM_map
variable {shards : Nat} (parameter : Parameter α shards) (bfloat16 : α → α)

theorem merge_shards (present : 0 < shards) :
    mergeByPlacement ((range shards).map (fun rank => (parameter.shard rank).map bfloat16)) parameter.placement =
      .ok (parameter.full.map bfloat16) := by
  obtain ⟨full, cut⟩ := parameter
  cases cut with
  | none =>
    have first : ((range shards).map (fun _ => full.map bfloat16)).head? = some (full.map bfloat16) := by
      rw [head?_map, head?_range]
      simp [Nat.pos_iff_ne_zero.mp present]
    simp only [mergeByPlacement, placement, shard, first]
  | some cut =>
    have inside : cut.dim < (full.map bfloat16).shape.length := cut.inside
    have pieces : (range shards).map (fun rank => (Parameter.shard ⟨full, some cut⟩ rank).map bfloat16) =
        (range shards).map (fun rank => (full.map bfloat16).piece cut.dim (cut.offset rank) (cut.offset (rank + 1)) inside) :=
      map_congr_left (fun rank _ => NdTensor.map_piece bfloat16 cut.inside inside _ _)
    have whole := NdTensor.cat_pieces inside cut.grows cut.first present cut.last
    simp only [mergeByPlacement, placement, pieces, concatenate, whole]

/-- The first shard has the whole of the parameter, and a dimension to be concatenated along. -/
def Whole : Prop :=
  0 < parameter.full.shape.length ∧ ∀ cut, parameter.cut = some cut → parameter.full.size cut.dim ≤ cut.offset 1

theorem first_shard_whole : (0 < (parameter.shard 0).shape.length ∧
    (parameter.shard 0).map bfloat16 = parameter.full.map bfloat16) ↔ parameter.Whole := by
  obtain ⟨full, cut⟩ := parameter
  cases cut with
  | none => simp [Whole, shard]
  | some cut =>
    have same : 0 < (Parameter.shard ⟨full, some cut⟩ 0).shape.length ↔ 0 < full.shape.length := by
      rw [shard, NdTensor.piece_shape, length_set]
    have reaches : (Parameter.shard ⟨full, some cut⟩ 0).map bfloat16 = full.map bfloat16 ↔ full.size cut.dim ≤ cut.offset 1 := by
      constructor
      · intro equal
        have sizes := congrArg (NdTensor.size · cut.dim) equal
        simp only [shard, NdTensor.map_size, NdTensor.piece_size, cut.first, Nat.zero_add] at sizes
        omega
      · intro whole
        simp only [shard, cut.first, Nat.zero_add]
        rw [NdTensor.piece_whole cut.inside whole]
    rw [same, reaches, Whole]
    simp

end Parameter

theorem merged_keys {π τ : Type} {entries : List (String × π)} {merge : π → Except Failure τ} {merged : List (String × τ)}
    (related : List.Forall₂ (fun entry value => (do
        let tensor ← merge entry.2
        .ok (entry.1, tensor)) = .ok value) entries merged) : merged.map Prod.fst = entries.map Prod.fst := by
  induction related with
  | nil => rfl
  | cons first _ ih =>
    obtain ⟨tensor, _, same⟩ := bind_eq_ok.mp first
    cases same
    rw [map_cons, map_cons, ih]

theorem merged_lookup_iff {π τ : Type} {entries : List (String × π)} (distinct : (entries.map Prod.fst).Nodup)
    {merge : π → Except Failure τ} {expected : π → τ} :
    (∃ merged, entries.mapM (fun entry => do
        let tensor ← merge entry.2
        .ok (entry.1, tensor)) = .ok merged ∧ ∀ key, merged.lookup key = (entries.lookup key).map expected) ↔
      ∀ entry ∈ entries, merge entry.2 = .ok (expected entry.2) := by
  constructor
  · rintro ⟨merged, returned, lookups⟩ entry member
    have related := mapM_succeeded returned
    have keys := merged_keys related
    obtain ⟨value, present, found⟩ := forall₂_left related member
    obtain ⟨tensor, computed, same⟩ := bind_eq_ok.mp found
    cases same
    have value := Indexing.lookup_of_mem (keys ▸ distinct) present
    rw [lookups, Indexing.lookup_of_mem distinct member, Option.map_some, Option.some.injEq] at value
    rw [computed, value]
  · intro each
    refine ⟨entries.map (fun entry => (entry.1, expected entry.2)), ?_, fun key => Grouping.lookup_values expected entries key⟩
    apply mapM_map
    intro entry member
    rw [each entry member]
    rfl

theorem mergeKey_iff_whole {layout : Layout} (written : 0 < layout.worldSize) (parameter : Parameter α layout.shards)
    (bfloat16 : α → α) : mergeKey [layout.loaded]
        ⟨(range layout.loaded).map (fun rank => (parameter.shard rank).map bfloat16), layout.kept parameter⟩ =
          .ok (parameter.full.map bfloat16) ↔ ∀ shards, layout = .plain shards → parameter.Whole := by
  have loaded := (Layout.loaded_le written).1
  cases layout with
  | fsdp shards => exact iff_of_true (parameter.merge_shards bfloat16 loaded) (fun _ other => by cases other)
  | ddpFsdp replicas shards => exact iff_of_true (parameter.merge_shards bfloat16 loaded) (fun _ other => by cases other)
  | plain shards =>
    have single := @concatenate_single _ ((parameter.shard 0).map bfloat16) (parameter.full.map bfloat16)
    rw [NdTensor.map_shape, parameter.first_shard_whole bfloat16] at single
    exact single.trans ⟨fun whole _ _ => whole, fun whole => whole shards rfl⟩

/-- The merged dictionary has every parameter as it was before it was sharded, in its new type,
exactly when there is a parameter and, for plain tensors, the file of the first rank has them whole. -/
theorem merged_iff_whole (checkpoint : Checkpoint α) (bfloat16 : α → α) {finished : Nat → List Nat}
    (every : ∀ count, (finished count).Perm (List.range count)) :
    (∃ merged, mergedStateDict bfloat16 checkpoint.files checkpoint.layout.worldSize finished = .ok merged ∧
      ∀ key, merged.lookup key = (checkpoint.params.lookup key).map (fun parameter => parameter.full.map bfloat16)) ↔
    checkpoint.params ≠ [] ∧
      ∀ shards, checkpoint.layout = .plain shards → ∀ entry ∈ checkpoint.params, entry.2.Whole := by
  by_cases present : checkpoint.params = []
  · have failed : mergedStateDict bfloat16 checkpoint.files checkpoint.layout.worldSize finished = .error .noKeys := by
      have file : checkpoint.files 0 = some [] := by
        rw [Checkpoint.files, if_pos checkpoint.written, Checkpoint.stateDict, present, List.map_nil]
      rw [mergedStateDict, file]
      simp [extractDeviceMeshInfo]
    constructor
    · rintro ⟨merged, returned, -⟩
      rw [failed] at returned
      cases returned
    · intro holds
      exact absurd present holds.1
  · rw [mergedStateDict_eq checkpoint bfloat16 present every]
    let merge (parameter : Parameter α checkpoint.layout.shards) := mergeKey [checkpoint.layout.loaded]
      ⟨(List.range checkpoint.layout.loaded).map (fun rank => (parameter.shard rank).map bfloat16), checkpoint.layout.kept parameter⟩
    refine (@merged_lookup_iff _ _ _ checkpoint.distinct merge _).trans ?_
    constructor
    · intro merged
      exact ⟨present, fun shards plain entry member =>
        (mergeKey_iff_whole checkpoint.written entry.2 bfloat16).mp (merged entry member) shards plain⟩
    · intro holds entry member
      exact (mergeKey_iff_whole checkpoint.written entry.2 bfloat16).mpr (fun shards plain => holds.2 shards plain entry member)

/-- Three rows over two ranks: the second rank has one of them. -/
def threeRows : Parameter Nat 2 := ⟨⟨[3], [5, 6, 7], rfl⟩, some (.chunk _ 2 0 (by decide) (by decide))⟩

def shardedRows : Checkpoint Nat where
  layout := .fsdp 2
  params := [("weight", threeRows)]
  distinct := by decide
  written := by decide
  leading := fun _ other => by cases other

theorem merged_sharded_rows : ∃ merged,
    mergedStateDict (· % 4) shardedRows.files shardedRows.layout.worldSize (fun count => (List.range count).reverse) = .ok merged ∧
      ∀ key, merged.lookup key = (shardedRows.params.lookup key).map (fun parameter => parameter.full.map (· % 4)) :=
  (merged_iff_whole shardedRows (· % 4) (fun count => List.reverse_perm _)).mpr
    ⟨by simp [shardedRows], fun _ other => by cases other⟩

def plainRows : Checkpoint Nat where
  layout := .plain 2
  params := [("weight", threeRows)]
  distinct := by decide
  written := by decide
  leading := by
    intro _ _ entry member cut cuts
    rw [List.mem_singleton] at member
    subst member
    cases cuts
    rfl

/-- The default mesh lets the loader read one file. -/
theorem plain_rows_dropped :
    mergedStateDict id plainRows.files plainRows.layout.worldSize List.range = .ok [("weight", ⟨[2], [5, 6], rfl⟩)] ∧
      ¬ ∃ merged, mergedStateDict id plainRows.files plainRows.layout.worldSize List.range = .ok merged ∧
        ∀ key, merged.lookup key = (plainRows.params.lookup key).map (fun parameter => parameter.full.map id) := by
  have merged : mergedStateDict id plainRows.files plainRows.layout.worldSize List.range = .ok [("weight", ⟨[2], [5, 6], rfl⟩)] := by
    rw [mergedStateDict_eq plainRows id (by simp [plainRows]) (fun count => .refl _)]
    rfl
  refine ⟨merged, ?_⟩
  rintro ⟨other, returned, lookups⟩
  rw [merged] at returned
  cases returned
  have sizes := congrArg (Option.map (NdTensor.size · 0)) (lookups "weight")
  exact absurd sizes (by decide)

end LLMFusion.FsdpModelMerger
