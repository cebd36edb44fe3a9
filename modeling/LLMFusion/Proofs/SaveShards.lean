import LLMFusion.SaveShards
import LLMFusion.Lib.Fallible
import Mathlib.Data.List.Pairwise
import Mathlib.Tactic.Ring

/-! The files that the ranks write. The files of a rank are numbered from behind those of the ranks
before it, since both count a fixed number of files for every layer; and a rank cuts its own
dictionary into all of its files. -/

namespace LLMFusion.SaveShards
open List

variable {τ : Type} {numel : τ → Nat}

/-! ### Parts of a list -/

section Cut
variable {α : Type}

theorem cutSizes_flatten {sizes : List Nat} {items : List α} (whole : sizes.sum = items.length) : (cutSizes sizes items).flatten = items := by
  induction sizes generalizing items with
  | nil => exact (eq_nil_of_length_eq_zero whole.symm).symm
  | cons size sizes ih =>
    rw [sum_cons] at whole
    have rest : sizes.sum = (items.drop size).length := by
      rw [length_drop]
      omega
    rw [cutSizes, flatten_cons, ih rest, take_append_drop]

theorem cutSizes_length (sizes : List Nat) (items : List α) : (cutSizes sizes items).length = sizes.length := by
  induction sizes generalizing items with
  | nil => rfl
  | cons size sizes ih => rw [cutSizes, length_cons, length_cons, ih]

theorem arraySplit_parts (items : List α) {sections : Nat} (some : 0 < sections) :
    ∃ parts, arraySplit items sections = Option.some parts ∧ parts.length = sections ∧ parts.flatten = items := by
  have extras := Nat.mod_lt items.length some
  have whole := Nat.div_add_mod items.length sections
  refine ⟨_, if_neg some.ne', ?_, cutSizes_flatten ?_⟩
  · rw [cutSizes_length, length_append, length_replicate, length_replicate]
    omega
  · have split : sections = items.length % sections + (sections - items.length % sections) := by omega
    rw [sum_append, sum_replicate, sum_replicate, nsmul_eq_mul, nsmul_eq_mul, Nat.cast_id, Nat.cast_id, Nat.mul_add, Nat.mul_one,
      Nat.add_right_comm, ← Nat.add_mul, ← split, whole]

end Cut

/-! ### Names -/

theorem fiveDigits_injective {first second : Nat} (same : fiveDigits first = fiveDigits second) : first = second := by
  have read : ∀ number, Nat.ofDigitChars 10 (fiveDigits number) 0 = number := by
    intro number
    rw [fiveDigits, leftpad, Nat.ofDigitChars_append, Nat.ofDigitChars_replicate_zero, Nat.mul_zero,
      Nat.ofDigitChars_ten_toDigits]
  rw [← read first, same, read second]

theorem middle_injective {front first second middle total behind : Text}
    (same : front ++ first ++ middle ++ total ++ behind = front ++ second ++ middle ++ total ++ behind) : first = second :=
  append_cancel_left (append_cancel_right (append_cancel_right (append_cancel_right same)))

theorem shardName_injective {first second total : Nat} (same : shardName first total = shardName second total) : first = second :=
  fiveDigits_injective (middle_injective same)

/-! ### One rank -/

variable {stateDict : StateDict τ}

theorem sdToSave_append (stateDict : StateDict τ) (keys keys' : List String) :
    sdToSave stateDict (keys ++ keys') = sdToSave stateDict keys ++ sdToSave stateDict keys' :=
  filterMap_append

theorem sdToSave_parts (stateDict : StateDict τ) (parts : List (List String)) :
    parts.flatMap (sdToSave stateDict) = sdToSave stateDict parts.flatten := by
  induction parts with
  | nil => rfl
  | cons keys parts ih => rw [flatMap_cons, ih, flatten_cons, sdToSave_append]

theorem sdToSave_all (distinct : (stateDict.map Prod.fst).Nodup) : sdToSave stateDict (stateDict.map Prod.fst) = stateDict := by
  rw [sdToSave, filterMap_map]
  have found : ∀ parameter ∈ stateDict, ((fun k => (stateDict.lookup k).map (k, ·)) ∘ Prod.fst) parameter = some parameter := by
    intro parameter member
    rw [Function.comp_apply, Indexing.lookup_of_mem distinct member]
    rfl
  rw [filterMap_congr found, filterMap_some]

theorem sdToSave_keys {keys : List String} (present : ∀ k ∈ keys, k ∈ stateDict.map Prod.fst) :
    (sdToSave stateDict keys).map Prod.fst = keys := by
  induction keys with
  | nil => rfl
  | cons k keys ih =>
    obtain ⟨value, found⟩ := Option.isSome_iff_exists.mp (Indexing.lookup_isSome_iff.mpr (present k mem_cons_self))
    have rest := ih (fun other member => present other (mem_cons_of_mem _ member))
    rw [sdToSave, filterMap_cons, found, Option.map_some, map_cons, ← sdToSave, rest]

structure Written (merger : Merger τ) (rank layers : Nat) (stateDict : StateDict τ) (part : Part τ) : Prop where
  numbers : part.files.map File.number =
    List.range' ((merger.pipelineShards.take rank).sum * merger.savesPerLayer + 1) (layers * merger.savesPerLayer)
  names : ∀ file ∈ part.files, file.name = shardName file.number merger.savesTotal
  parameters : part.files.flatMap File.parameters = stateDict
  indexes : part.savesIndexes = part.files.flatMap (fun file => file.parameters.map (fun parameter => (parameter.1, file.name)))

theorem savesPerLayer_pos (merger : Merger τ) : 0 < merger.savesPerLayer := by
  rw [Merger.savesPerLayer]
  split <;> omega

theorem saveRank_written {merger : Merger τ} {rank layers : Nat} (layersHere : merger.pipelineShards[rank]? = some layers)
    (here : merger.mergedStateDicts[rank]? = some stateDict) (positive : 0 < layers) (distinct : (stateDict.map Prod.fst).Nodup) :
    ∃ part, saveRank numel merger rank = some part ∧ Written merger rank layers stateDict part := by
  obtain ⟨parts, split, count, whole⟩ := arraySplit_parts (stateDict.map Prod.fst) (Nat.mul_pos positive (savesPerLayer_pos merger))
  simp only [saveRank, layersHere, here, split, Option.bind_eq_bind, Option.bind_some]
  have keys : ∀ chunk ∈ parts.zipIdx, (sdToSave stateDict chunk.1).map Prod.fst = chunk.1 := by
    intro chunk member
    apply sdToSave_keys
    intro k inside
    rw [← whole]
    exact mem_flatten.mpr ⟨chunk.1, (mem_zipIdx' member).2 ▸ getElem_mem _, inside⟩
  have allKeys : parts.zipIdx.flatMap Prod.fst = stateDict.map Prod.fst := by
    rw [flatMap_def, zipIdx_map_fst, whole]
  refine ⟨_, rfl, ?_, ?_, ?_, ?_⟩
  · rw [map_map, ← count]
    have places := zipIdx_map_snd 0 parts
    calc parts.zipIdx.map (File.number ∘ _)
        = (parts.zipIdx.map Prod.snd).map (fun i => (merger.pipelineShards.take rank).sum * merger.savesPerLayer + i + 1) := by
          rw [map_map]
          rfl
      _ = range' ((merger.pipelineShards.take rank).sum * merger.savesPerLayer + 1) parts.length := by
          rw [places, ← range_eq_range', range'_eq_map_range]
          apply map_congr_left
          intro i _
          exact Nat.add_right_comm _ _ _
  · intro file member
    obtain ⟨chunk, _, rfl⟩ := mem_map.mp member
    rfl
  · rw [flatMap_map]
    calc parts.zipIdx.flatMap (fun chunk => sdToSave stateDict chunk.1)
        = parts.flatMap (sdToSave stateDict) := by
          rw [← flatMap_map, zipIdx_map_fst]
      _ = stateDict := by rw [sdToSave_parts, whole, sdToSave_all distinct]
  · have entries : parts.zipIdx.flatMap (fun chunk => chunk.1.map (fun k => (k, shardName
        ((merger.pipelineShards.take rank).sum * merger.savesPerLayer + chunk.2 + 1) merger.savesTotal))) =
        parts.zipIdx.flatMap (fun chunk => (sdToSave stateDict chunk.1).map (fun parameter => (parameter.1, shardName
          ((merger.pipelineShards.take rank).sum * merger.savesPerLayer + chunk.2 + 1) merger.savesTotal))) := by
      apply flatMap_congr
      intro chunk member
      nth_rewrite 1 [← keys chunk member]
      rw [map_map]
      rfl
    rw [flatMap_map, ← entries]
    apply Indexing.fromEntries_distinct
    rw [map_flatMap]
    simp only [map_map, Function.comp_def, map_id']
    rw [allKeys]
    exact distinct

/-! ### All ranks -/

/-- A model whose layers are dealt to the ranks; a parameter is in the dictionary of one rank. -/
structure Merged (τ : Type) where
  merger : Merger τ
  ranks : merger.pipelineShards.length = merger.worldSize
  positive : ∀ layers ∈ merger.pipelineShards, 0 < layers
  total : merger.pipelineShards.sum = merger.numHiddenLayers
  distinct : (merger.mergedStateDicts.flatten.map Prod.fst).Nodup

theorem flatMap_places {α : Type} (items : List (List α)) :
    (range items.length).flatMap (fun place => items[place]?.getD []) = items.flatten := by
  have same : (range items.length).map (fun place => items[place]?.getD []) = items := by
    apply ext_getElem
    · rw [length_map, length_range]
    · intro place _ inside
      rw [getElem_map, getElem_range, getElem?_eq_getElem inside, Option.getD_some]
  rw [flatMap_def, same]

theorem flatMap_numbers (shards : List Nat) (each : Nat) {count : Nat} (inside : count ≤ shards.length) :
    (range count).flatMap (fun rank => range' ((shards.take rank).sum * each + 1) (shards[rank]?.getD 0 * each)) =
      range' 1 ((shards.take count).sum * each) := by
  induction count with
  | zero => simp
  | succ count ih =>
    have here : shards[count]? = some shards[count] := getElem?_eq_getElem inside
    rw [range_succ, flatMap_append, flatMap_singleton, ih (by omega), take_add_one, here, Option.toList_some,
      sum_append, sum_singleton, Option.getD_some, Nat.add_mul, Nat.add_comm _ 1]
    exact range'_append_1

namespace Merged
open List
variable (merged : Merged τ)

theorem saveRank_returns {rank : Nat} (inside : rank < merged.merger.worldSize) :
    ∃ part, saveRank numel merged.merger rank = some part ∧
      Written merged.merger rank (merged.merger.pipelineShards[rank]?.getD 0) (merged.merger.mergedStateDicts[rank]?.getD []) part := by
  obtain ⟨stateDict, here⟩ : ∃ stateDict, merged.merger.mergedStateDicts[rank]? = some stateDict :=
    ⟨_, getElem?_eq_getElem inside⟩
  obtain ⟨layers, layersHere⟩ : ∃ layers, merged.merger.pipelineShards[rank]? = some layers :=
    ⟨_, getElem?_eq_getElem (merged.ranks ▸ inside)⟩
  have distinct : (stateDict.map Prod.fst).Nodup :=
    merged.distinct.sublist ((sublist_flatten_of_mem (mem_of_getElem? here)).map _)
  rw [here, layersHere]
  exact saveRank_written layersHere here (merged.positive layers (mem_of_getElem? layersHere)) distinct

theorem saveShards_returns : ∃ files index, saveShards numel merged.merger = some (files, index) ∧
    files.map File.number = range' 1 merged.merger.savesTotal ∧
    (∀ file ∈ files, file.name = shardName file.number merged.merger.savesTotal) ∧
    files.flatMap File.parameters = merged.merger.mergedStateDicts.flatten ∧
    index.weightMap = files.flatMap (fun file => file.parameters.map (fun parameter => (parameter.1, file.name))) := by
  let part : Nat → Part τ := fun rank => (saveRank numel merged.merger rank).getD ⟨[], [], 0⟩
  have each : ∀ rank ∈ range merged.merger.worldSize, saveRank numel merged.merger rank = some (part rank) ∧
      Written merged.merger rank (merged.merger.pipelineShards[rank]?.getD 0)
        (merged.merger.mergedStateDicts[rank]?.getD []) (part rank) := by
    intro rank member
    obtain ⟨result, returned, written⟩ : ∃ result, saveRank numel merged.merger rank = some result ∧ _ :=
      merged.saveRank_returns (mem_range.mp member)
    have same : part rank = result := by
      show (saveRank numel merged.merger rank).getD _ = result
      rw [returned, Option.getD_some]
    rw [same]
    exact ⟨returned, written⟩
  have parts : (range merged.merger.worldSize).mapM (saveRank numel merged.merger) =
      some ((range merged.merger.worldSize).map part) :=
    Fallible.mapM_some part (fun rank member => (each rank member).1)
  have numbers : ((range merged.merger.worldSize).flatMap (fun rank => (part rank).files)).map File.number =
      range' 1 merged.merger.savesTotal := by
    rw [map_flatMap, flatMap_congr (fun rank member => (each rank member).2.numbers), flatMap_numbers _ _ merged.ranks.ge,
      ← merged.ranks, take_length, merged.total, Nat.mul_comm]
    rfl
  have parameters : ((range merged.merger.worldSize).flatMap (fun rank => (part rank).files)).flatMap File.parameters =
      merged.merger.mergedStateDicts.flatten := by
    rw [flatMap_assoc, flatMap_congr (fun rank member => (each rank member).2.parameters)]
    exact flatMap_places _
  have entries : (range merged.merger.worldSize).flatMap (fun rank => (part rank).savesIndexes) =
      ((range merged.merger.worldSize).flatMap (fun rank => (part rank).files)).flatMap
        (fun file => file.parameters.map (fun parameter => (parameter.1, file.name))) := by
    rw [flatMap_assoc, flatMap_congr (fun rank member => (each rank member).2.indexes)]
  have keys : (((range merged.merger.worldSize).flatMap (fun rank => (part rank).files)).flatMap
        (fun file => file.parameters.map (fun parameter => (parameter.1, file.name)))).map Prod.fst =
      merged.merger.mergedStateDicts.flatten.map Prod.fst := by
    rw [← parameters, map_flatMap, map_flatMap]
    simp only [map_map, Function.comp_def]
  refine ⟨_, _, by simp only [saveShards, parts, Option.bind_eq_bind, Option.bind_some]; rfl, ?_, ?_, ?_, ?_⟩
  · rw [flatMap_map]
    exact numbers
  · rw [flatMap_map]
    intro file member
    obtain ⟨rank, member, inside⟩ := mem_flatMap.mp member
    exact (each rank member).2.names file inside
  · rw [flatMap_map]
    exact parameters
  · rw [flatMap_map, flatMap_map, entries]
    exact Indexing.fromEntries_distinct (keys ▸ merged.distinct)

end Merged

end LLMFusion.SaveShards
