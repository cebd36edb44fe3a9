import LLMFusion.McoreWeights
import Mathlib.Tactic.Ring

/-! Merging gives back what was loaded, when the ranks do not share query groups. -/

namespace LLMFusion.McoreWeights
open Slices Blocks Fallible List

theorem lastWrite_eq {κ ν : Type} [DecidableEq κ] {writes : List (κ × ν)} {key : κ} {value : ν}
    (sound : ∀ write ∈ writes, write.1 = key → write.2 = value) (present : key ∈ writes.map Prod.fst) :
    lastWrite writes key = some value := by
  have lookup : ∀ entries : List (κ × ν), (∀ write ∈ entries, write.1 = key → write.2 = value) →
      key ∈ entries.map Prod.fst → entries.lookup key = some value := by
    intro entries
    induction entries with
    | nil =>
      intro _ present
      cases present
    | cons write entries ih =>
      intro sound present
      obtain ⟨name, content⟩ := write
      by_cases same : key = name
      · rw [← sound (name, content) mem_cons_self same.symm, same, lookup_cons_self]
      · rw [lookup_cons, beq_false_of_ne same]
        apply ih (fun other member => sound other (mem_cons_of_mem _ member))
        exact (mem_cons.mp present).resolve_left same
  apply lookup
  · intro write member
    exact sound write (mem_reverse.mp member)
  · rwa [map_reverse, mem_reverse]

/-! ### Places of layers -/

section Places
variable (config : Config) (parallel : Parallel)

def numLayersPerModel : Nat := config.numHiddenLayers / parallel.ppSize / parallel.virtualPpSize

def place (layer : Nat) : Nat × Nat × Nat :=
  let size := numLayersPerModel config parallel
  (layer / size % parallel.ppSize, layer / size / parallel.ppSize, layer % size)

/-- The parallel sizes that the layers are accepted with. -/
structure Staged : Prop where
  ppSize : 0 < parallel.ppSize
  virtualPpSize : 0 < parallel.virtualPpSize
  layers : numLayersPerModel config parallel * parallel.ppSize * parallel.virtualPpSize = config.numHiddenLayers

variable {config parallel}

theorem place_injective {layer other : Nat} (same : place config parallel layer = place config parallel other) : layer = other := by
  simp only [place, Prod.mk.injEq] at same
  obtain ⟨stage, virtual, index⟩ := same
  rw [← Nat.div_add_mod layer (numLayersPerModel config parallel), ← Nat.div_add_mod other (numLayersPerModel config parallel), index,
    ← Nat.div_add_mod (layer / _) parallel.ppSize, ← Nat.div_add_mod (other / _) parallel.ppSize, stage, virtual]

theorem layerMap_place (staged : Staged config parallel) : ∃ layerMap, megatronCalcLayerMap config parallel = some layerMap ∧
    ∀ layer < config.numHiddenLayers, layerMap layer = some (place config parallel layer) := by
  obtain ⟨ppSize, virtualPpSize, layers⟩ := staged
  refine ⟨_, if_pos layers, ?_⟩
  intro layer inside
  have perStage : config.numHiddenLayers / parallel.virtualPpSize = numLayersPerModel config parallel * parallel.ppSize := by
    rw [← layers, Nat.mul_div_cancel _ virtualPpSize]
  have some : 0 < numLayersPerModel config parallel := by
    by_cases none : numLayersPerModel config parallel = 0
    · rw [none, Nat.zero_mul, Nat.zero_mul] at layers
      omega
    · omega
  apply lastWrite_eq
  · intro write member named
    simp only [mem_flatMap, mem_map, mem_range] at member
    obtain ⟨ppRank, stage, virtualPpRank, _, layerIdx, index, rfl⟩ := member
    change virtualPpRank * (config.numHiddenLayers / parallel.virtualPpSize) + ppRank * numLayersPerModel config parallel + layerIdx =
      layer at named
    change layerIdx < numLayersPerModel config parallel at index
    have split : layer = numLayersPerModel config parallel * (parallel.ppSize * virtualPpRank + ppRank) + layerIdx := by
      rw [← named, perStage]
      ring
    have quotient : layer / numLayersPerModel config parallel = parallel.ppSize * virtualPpRank + ppRank := by
      rw [split, Nat.mul_add_div some, Nat.div_eq_of_lt index, Nat.add_zero]
    have remainder : layer % numLayersPerModel config parallel = layerIdx := by
      rw [split, Nat.mul_add_mod, Nat.mod_eq_of_lt index]
    simp only [place, quotient, remainder, Nat.mul_add_mod, Nat.mul_add_div ppSize, Nat.mod_eq_of_lt stage,
      Nat.div_eq_of_lt stage, Nat.add_zero]
  · have blocks : layer / numLayersPerModel config parallel < parallel.ppSize * parallel.virtualPpSize := by
      apply Nat.div_lt_of_lt_mul
      rwa [← Nat.mul_assoc, layers]
    have whole : layer / numLayersPerModel config parallel / parallel.ppSize * (numLayersPerModel config parallel * parallel.ppSize) +
        layer / numLayersPerModel config parallel % parallel.ppSize * numLayersPerModel config parallel +
        layer % numLayersPerModel config parallel = layer := by
      have index := Nat.div_add_mod layer (numLayersPerModel config parallel)
      have stage := Nat.div_add_mod (layer / numLayersPerModel config parallel) parallel.ppSize
      calc _ = numLayersPerModel config parallel * (parallel.ppSize * (layer / numLayersPerModel config parallel / parallel.ppSize) +
            layer / numLayersPerModel config parallel % parallel.ppSize) + layer % numLayersPerModel config parallel := by ring
        _ = layer := by rw [stage, index]
    simp only [mem_map, mem_flatMap, mem_range]
    refine ⟨(layer, place config parallel layer), ⟨(place config parallel layer).1, Nat.mod_lt _ ppSize,
      (place config parallel layer).2.1, Nat.div_lt_of_lt_mul blocks, (place config parallel layer).2.2, Nat.mod_lt layer some, ?_⟩, rfl⟩
    rw [perStage]
    exact Prod.ext whole rfl

end Places

/-! ### Tensors cut into chunks -/

section Tensors
variable {β : Type} {tpSize : Nat}

def Cut (tpSize size : Nat) (whole : List β) (tensor : Nat → List β) : Prop :=
  ∀ rank < tpSize, tensor rank = block size whole rank

variable {tensor : Nat → List β} {size : Nat} {whole : List β}

theorem fullTensor_cut (length : whole.length = tpSize * size)
    (cut : Cut tpSize size whole tensor) : fullTensor tpSize tensor = whole := by
  rw [fullTensor, flatMap_congr (fun rank member => cut rank (mem_range.mp member)), blocks_whole length]

theorem storeChunks_cut (some : 0 < tpSize) (length : whole.length = tpSize * size)
    (sizes : ∀ rank < tpSize, (tensor rank).length = size) :
    ∃ chunks stored, chunk tpSize whole = Option.some chunks ∧ storeChunks tpSize tensor chunks = Option.some stored ∧
      Cut tpSize size whole stored := by
  refine ⟨_, fun rank => ((range tpSize).map (block size whole)).getD rank [], chunk_even some length, ?_, ?_⟩
  · have first : ((range tpSize).map (block size whole))[0]? = Option.some (block size whole 0) := by
      rw [getElem?_map, getElem?_range some]
      rfl
    have accepted : (range tpSize).all (fun rank => (tensor rank).length == (block size whole 0).length) = true := by
      rw [all_eq_true]
      intro rank member
      rw [block_length length some, sizes rank (mem_range.mp member), beq_self_eq_true]
    have synced : (range tpSize).mapM (fun rank => do
        let chunk ← ((range tpSize).map (block size whole))[rank]?
        if chunk.length = (block size whole 0).length then Option.some chunk else none) =
          Option.some ((range tpSize).map (block size whole)) := by
      apply mapM_some
      intro rank member
      have inside := mem_range.mp member
      rw [getElem?_map, getElem?_range inside]
      exact if_pos (by rw [block_length length inside, block_length length some])
    rw [storeChunks, first, Option.bind_eq_bind, Option.bind_some, if_pos accepted, synced]
    rfl
  · intro rank inside
    simp only [getD_eq_getElem?_getD, getElem?_map, getElem?_range inside]
    rfl

variable {stateDict : StateDict β}

theorem broadcastTpShardTensor_cut {name : Name}
    (some : 0 < tpSize) (named : stateDict name = Option.some whole) (length : whole.length = tpSize * size)
    (sizes : ∀ rank < tpSize, (tensor rank).length = size) :
    ∃ stored, broadcastTpShardTensor tpSize stateDict tensor name = Option.some stored ∧ fullTensor tpSize stored = whole := by
  obtain ⟨chunks, stored, cut, kept, blocks⟩ := storeChunks_cut some length sizes
  refine ⟨stored, ?_, fullTensor_cut length blocks⟩
  rw [broadcastTpShardTensor, named]
  change (do storeChunks tpSize tensor (← chunk tpSize whole)) = _
  rw [cut, Option.bind_eq_bind, Option.bind_some, kept]

theorem broadcastTensor_same {name : Name}
    (named : stateDict name = some whole) (sizes : ∀ rank < tpSize, (tensor rank).length = whole.length) :
    broadcastTensor tpSize stateDict tensor name = some (fun _ => whole) := by
  rw [broadcastTensor, named]
  apply if_pos
  rw [all_eq_true]
  intro rank member
  rw [sizes rank (mem_range.mp member), beq_self_eq_true]

def gateUp (size : Nat) (gate up : List β) (rank : Nat) : List β := block size gate rank ++ block size up rank

theorem gateUp_length {gate up : List β} (gates : gate.length = tpSize * size) (ups : up.length = tpSize * size)
    {rank : Nat} (inside : rank < tpSize) : (gateUp size gate up rank).length = size * 2 := by
  rw [gateUp, length_append, block_length gates inside, block_length ups inside, Nat.mul_two]

theorem broadcastGateUp_collect {config : Config}
    {gateName upName : Name} {gate up : List β} (empty : β) (some : 0 < tpSize) (intermediate : config.intermediateSize = tpSize * size)
    (gateNamed : stateDict gateName = Option.some gate) (upNamed : stateDict upName = Option.some up)
    (gates : gate.length = config.intermediateSize) (ups : up.length = config.intermediateSize)
    (sizes : ∀ rank < tpSize, (tensor rank).length = size * 2) :
    ∃ stored, broadcastTpShardTensorGateUp config tpSize empty stateDict tensor gateName upName = Option.some stored ∧
      collectTpShardTensorGateUp config tpSize stored gateName upName = [(gateName, gate), (upName, up)] := by
  rw [intermediate] at gates ups
  have perRank : config.intermediateSize / tpSize = size := by rw [intermediate, Nat.mul_div_cancel_left _ some]
  have parts : ∀ rank < tpSize, (gateUp size gate up rank).length = size * 2 := fun rank inside => gateUp_length gates ups inside
  have written : copyBlocks tpSize (size * 2) (fun _ i => Option.some (block size gate i ++ block size up i))
      (replicate (config.intermediateSize * 2) empty) = Option.some ((range tpSize).flatMap (gateUp size gate up)) := by
    apply copyBlocks_whole (gateUp size gate up)
    · rw [length_replicate, intermediate, Nat.mul_assoc]
    · exact parts
    · intro rank _ buffer _
      rfl
  obtain ⟨chunks, stored, cut, kept, blocks⟩ := storeChunks_cut some (flatMap_length parts) sizes
  refine ⟨stored, ?_, ?_⟩
  · rw [broadcastTpShardTensorGateUp, gateNamed, upNamed]
    simp only [perRank, Option.bind_eq_bind, Option.bind_some, written, cut, kept]
  · have whole := fullTensor_cut (flatMap_length parts) blocks
    have gatesBack : (range tpSize).flatMap (fun i => (block (size * 2) (fullTensor tpSize stored) i).take size) = gate := by
      rw [← blocks_whole gates]
      apply flatMap_congr
      intro rank member
      have inside := mem_range.mp member
      rw [whole, block_flatMap parts inside, gateUp, take_left' (block_length gates inside)]
    have upsBack : (range tpSize).flatMap (fun i => (block (size * 2) (fullTensor tpSize stored) i).drop size) = up := by
      rw [← blocks_whole ups]
      apply flatMap_congr
      intro rank member
      have inside := mem_range.mp member
      rw [whole, block_flatMap parts inside, gateUp, drop_left' (block_length gates inside)]
    simp only [collectTpShardTensorGateUp, perRank, gatesBack, upsBack]

/-! ### Queries, keys and values -/

/-- The rows of one query group: those of its queries, its key and its value. -/
def head (qSize kvSize : Nat) (q k v : List β) (group : Nat) : List β :=
  block qSize q group ++ block kvSize k group ++ block kvSize v group

def rankHeads (groups qSize kvSize : Nat) (q k v : List β) (rank : Nat) : List β :=
  (List.range groups).flatMap (fun j => head qSize kvSize q k v (rank * groups + j))

section Heads
variable {groups qSize kvSize : Nat} {q k v : List β}

/-- The lengths of the three weights, for ranks with some groups each. -/
structure Heads (tpSize groups qSize kvSize : Nat) (q k v : List β) : Prop where
  ranked : 0 < tpSize
  grouped : 0 < groups
  queries : q.length = tpSize * groups * qSize
  keys : k.length = tpSize * groups * kvSize
  values : v.length = tpSize * groups * kvSize

theorem group_lt {rank j : Nat} (inside : rank < tpSize) (within : j < groups) : rank * groups + j < tpSize * groups := by
  have bound := Nat.mul_le_mul_right groups inside
  rw [Nat.succ_mul] at bound
  omega

section
variable (lengths : Heads tpSize groups qSize kvSize q k v)
include lengths

theorem head_length {group : Nat} (inside : group < tpSize * groups) :
    (head qSize kvSize q k v group).length = qSize + 2 * kvSize := by
  rw [head, length_append, length_append, block_length lengths.queries inside, block_length lengths.keys inside,
    block_length lengths.values inside]
  omega

theorem head_parts {group : Nat} (inside : group < tpSize * groups) :
    (head qSize kvSize q k v group).take qSize = block qSize q group ∧
      slice (head qSize kvSize q k v group) qSize (qSize + kvSize) = block kvSize k group ∧
        (head qSize kvSize q k v group).drop (qSize + kvSize) = block kvSize v group := by
  have qs := block_length lengths.queries inside
  have ks := block_length lengths.keys inside
  refine ⟨?_, ?_, ?_⟩
  · rw [head, append_assoc, take_left' qs]
  · have middle := slice_shift (block qSize q group) (block kvSize k group ++ block kvSize v group) 0 kvSize
    rw [qs, Nat.add_zero, slice_append_left _ _ _ _ (Nat.le_of_eq ks.symm), slice_full _ _ (Nat.le_of_eq ks)] at middle
    rw [head, append_assoc, middle]
  · rw [head, drop_left' (by rw [length_append, qs, ks])]

theorem rankHeads_length {rank : Nat} (inside : rank < tpSize) :
    (rankHeads groups qSize kvSize q k v rank).length = groups * (qSize + 2 * kvSize) :=
  flatMap_length (fun _ within => head_length lengths (group_lt inside within))

theorem interleaveHeads_rank {rank : Nat} (inside : rank < tpSize)
    {view : List β} (size : view.length = groups * (qSize + 2 * kvSize)) :
    interleaveHeads groups (groups * (qSize + 2 * kvSize)) (block (groups * qSize) q rank) (block (groups * kvSize) k rank)
      (block (groups * kvSize) v rank) view = some (rankHeads groups qSize kvSize q k v rank) := by
  have part : ∀ {size : Nat} {items : List β}, items.length = tpSize * groups * size →
      (block (groups * size) items rank).length = groups * size := by
    intro size items whole
    exact block_length (by rw [whole, Nat.mul_assoc]) inside
  have heads : ∀ {size : Nat} {items : List β} {j : Nat}, j < groups →
      ((range groups).map (block size (block (groups * size) items rank)))[j]? =
        some (block size items (rank * groups + j)) := by
    intro size items j within
    rw [getElem?_map, getElem?_range within, Option.map_some, block_block size groups items rank within]
  simp only [interleaveHeads, chunk_even lengths.grouped (part lengths.queries), chunk_even lengths.grouped (part lengths.keys),
    chunk_even lengths.grouped (part lengths.values), Option.bind_eq_bind, Option.bind_some, Nat.mul_div_cancel_left _ lengths.grouped]
  apply copyBlocks_whole (fun j => head qSize kvSize q k v (rank * groups + j)) size
  · intro j within
    exact head_length lengths (group_lt inside within)
  · intro j within buffer _
    simp only [heads within]
    rfl

theorem takeApart_rank {rank : Nat} (inside : rank < tpSize) :
    takeApart groups (groups * qSize + 2 * (groups * kvSize)) (groups * qSize) (groups * kvSize)
      ((range tpSize).flatMap (rankHeads groups qSize kvSize q k v)) rank =
        some ((range groups).flatMap (fun j => block qSize q (rank * groups + j)),
          (range groups).flatMap (fun j => block kvSize k (rank * groups + j)),
          (range groups).flatMap (fun j => block kvSize v (rank * groups + j))) := by
  have total : groups * qSize + 2 * (groups * kvSize) = groups * (qSize + 2 * kvSize) := by ring
  have here : block (groups * (qSize + 2 * kvSize)) ((range tpSize).flatMap (rankHeads groups qSize kvSize q k v)) rank =
      rankHeads groups qSize kvSize q k v rank := block_flatMap (fun _ within => rankHeads_length lengths within) inside
  have chunks : chunk groups (rankHeads groups qSize kvSize q k v rank) =
      some ((range groups).map (fun j => head qSize kvSize q k v (rank * groups + j))) := by
    rw [chunk_even lengths.grouped (rankHeads_length lengths inside)]
    congr 1
    apply map_congr_left
    intro j member
    exact block_flatMap (fun _ within => head_length lengths (group_lt inside within)) (mem_range.mp member)
  have sizes : floorDiv (groups * qSize) groups = some qSize ∧ floorDiv (groups * kvSize) groups = some kvSize := by
    have positive := lengths.grouped
    constructor
    · rw [floorDiv, if_neg (by omega), Nat.mul_div_cancel_left _ positive]
    · rw [floorDiv, if_neg (by omega), Nat.mul_div_cancel_left _ positive]
  simp only [takeApart, total, here, sizes, chunks, Option.bind_eq_bind, Option.bind_some, flatMap_map]
  have part (piece : List β → List β) (size : Nat) (items : List β)
      (same : ∀ group < tpSize * groups, piece (head qSize kvSize q k v group) = block size items group) :
      (range groups).flatMap (fun j => piece (head qSize kvSize q k v (rank * groups + j))) =
        (range groups).flatMap (fun j => block size items (rank * groups + j)) := by
    apply flatMap_congr
    intro j member
    exact same _ (group_lt inside (mem_range.mp member))
  rw [part (take qSize) qSize q (fun _ within => (head_parts lengths within).1),
    part (fun chunk => slice chunk qSize (qSize + kvSize)) kvSize k (fun _ within => (head_parts lengths within).2.1),
    part (drop (qSize + kvSize)) kvSize v (fun _ within => (head_parts lengths within).2.2)]
  rfl

end

theorem ranks_whole {items : List β} (whole : items.length = tpSize * groups * size) :
    (range tpSize).flatMap (fun rank => (range groups).flatMap (fun j => block size items (rank * groups + j))) = items := by
  rw [flatMap_range_mul, blocks_whole whole]

theorem broadcastQkv_collect {config : Config} {per : Nat} {qName kName vName : Name}
    (empty : β) (kvHeads : config.numKeyValueHeads = tpSize * groups) (heads : config.numAttentionHeads = tpSize * groups * per)
    (lengths : Heads tpSize groups (config.hiddenSizePerHead * per) config.hiddenSizePerHead q k v)
    (qNamed : stateDict qName = some q) (kNamed : stateDict kName = some k) (vNamed : stateDict vName = some v)
    (sizes : ∀ rank < tpSize, (tensor rank).length = groups * (config.hiddenSizePerHead * per + 2 * config.hiddenSizePerHead)) :
    ∃ stored, broadcastTpShardTensorQkv config tpSize empty stateDict tensor qName kName vName = some stored ∧
      collectTpShardTensorQkv config tpSize stored qName kName vName = some [(qName, q), (kName, k), (vName, v)] := by
  have ranked := lengths.ranked
  have enough : config.numKeyValueHeads ≥ tpSize := by
    rw [kvHeads]
    exact Nat.le_mul_of_pos_right _ lengths.grouped
  have perRank : config.numQueryGroups / tpSize = groups := by
    rw [Config.numQueryGroups, kvHeads, Nat.mul_div_cancel_left _ ranked]
  have qSizeTp : config.hiddenSizePerHead * config.numAttentionHeads / tpSize = groups * (config.hiddenSizePerHead * per) := by
    rw [heads, show config.hiddenSizePerHead * (tpSize * groups * per) = tpSize * (groups * (config.hiddenSizePerHead * per)) by ring,
      Nat.mul_div_cancel_left _ ranked]
  have kvSizeTp : config.hiddenSizePerHead * config.numKeyValueHeads / tpSize = groups * config.hiddenSizePerHead := by
    rw [kvHeads, show config.hiddenSizePerHead * (tpSize * groups) = tpSize * (groups * config.hiddenSizePerHead) by ring,
      Nat.mul_div_cancel_left _ ranked]
  have total : groups * (config.hiddenSizePerHead * per) + 2 * (groups * config.hiddenSizePerHead) =
      groups * (config.hiddenSizePerHead * per + 2 * config.hiddenSizePerHead) := by ring
  have rows : ∀ rank < tpSize, (rankHeads groups (config.hiddenSizePerHead * per) config.hiddenSizePerHead q k v rank).length =
      groups * (config.hiddenSizePerHead * per + 2 * config.hiddenSizePerHead) := fun _ inside => rankHeads_length lengths inside
  have written : newWeightQkv config tpSize empty q k v = some ((range tpSize).flatMap
      (rankHeads groups (config.hiddenSizePerHead * per) config.hiddenSizePerHead q k v)) := by
    simp only [newWeightQkv, if_pos enough, perRank, qSizeTp, kvSizeTp, total]
    apply copyBlocks_whole
    · rw [length_replicate, Nat.mul_comm]
    · exact rows
    · intro rank inside buffer whole
      exact interleaveHeads_rank lengths inside (block_length whole inside)
  obtain ⟨chunks, stored, cut, kept, blocks⟩ := storeChunks_cut ranked (flatMap_length rows) sizes
  refine ⟨stored, ?_, ?_⟩
  · simp only [broadcastTpShardTensorQkv, qNamed, kNamed, vNamed, Option.bind_eq_bind, Option.bind_some, written, cut, kept]
  · have whole := fullTensor_cut (flatMap_length rows) blocks
    have parts := mapM_some (fun rank => ((range groups).flatMap (fun j =>
          block (config.hiddenSizePerHead * per) q (rank * groups + j)),
        (range groups).flatMap (fun j => block config.hiddenSizePerHead k (rank * groups + j)),
        (range groups).flatMap (fun j => block config.hiddenSizePerHead v (rank * groups + j))))
      (fun rank member => takeApart_rank lengths (mem_range.mp member))
    simp only [collectTpShardTensorQkv, if_pos enough, perRank, qSizeTp, kvSizeTp, whole, parts, Option.bind_eq_bind, Option.bind_some,
      flatMap_map, ranks_whole lengths.queries, ranks_whole lengths.keys, ranks_whole lengths.values]
    rfl

end Heads

/-- Without a whole group for every rank the weights are not collected, whatever the ranks hold. -/
theorem collectQkv_shared {config : Config} (ranked : 0 < tpSize) (shared : config.numKeyValueHeads < tpSize)
    (tensor : Nat → List β) (qName kName vName : Name) :
    collectTpShardTensorQkv config tpSize tensor qName kName vName = none := by
  have groups : config.numQueryGroups / tpSize = 0 := Nat.div_eq_of_lt shared
  have apart : ∀ totalSize qSizeTp kvSizeTp : Nat, ∀ whole : List β, ∀ i, takeApart 0 totalSize qSizeTp kvSizeTp whole i = none := by
    intro totalSize qSizeTp kvSizeTp whole i
    rfl
  obtain ⟨more, rfl⟩ := Nat.exists_eq_succ_of_ne_zero (Nat.ne_of_gt ranked)
  simp only [collectTpShardTensorQkv, if_neg (Nat.not_le_of_gt shared), groups, range_succ_eq_map, mapM_cons, apart]
  rfl

end Tensors

/-! ### Checkpoints -/

/-- The size of a weight of a layer, if there is one. -/
def Config.partSize (config : Config) : Part → Option Nat
  | .inputLayernorm | .postAttentionLayernorm => some config.hiddenSize
  | .qNorm | .kNorm => if config.qkLayernorm then some config.hiddenSizePerHead else none
  | .qWeight | .oProj => some (config.hiddenSizePerHead * config.numAttentionHeads)
  | .kWeight | .vWeight => some (config.hiddenSizePerHead * config.numKeyValueHeads)
  | .qBias => if config.addQkvBias then some (config.hiddenSizePerHead * config.numAttentionHeads) else none
  | .kBias | .vBias => if config.addQkvBias then some (config.hiddenSizePerHead * config.numKeyValueHeads) else none
  | .gateProj | .upProj | .downProj => some config.intermediateSize

/-- The rows of the fused weight on a rank. -/
def Config.qkvRows (config : Config) (tpSize : Nat) : Nat :=
  config.hiddenSizePerHead * config.numAttentionHeads / tpSize +
    2 * (if config.numKeyValueHeads ≥ tpSize then config.hiddenSizePerHead * config.numKeyValueHeads / tpSize
      else config.hiddenSizePerHead)

/-- The sizes of the weights of a layer on a rank. -/
structure LayerSizes {β : Type} (config : Config) (tpSize : Nat) (layer : Layer β) : Prop where
  inputLayernorm : layer.inputLayernorm.length = config.hiddenSize
  qLayernorm : config.qkLayernorm = true → layer.qLayernorm.length = config.hiddenSizePerHead
  kLayernorm : config.qkLayernorm = true → layer.kLayernorm.length = config.hiddenSizePerHead
  linearQkv : layer.linearQkv.length = config.qkvRows tpSize
  linearQkvBias : config.addQkvBias = true → layer.linearQkvBias.length = config.qkvRows tpSize
  linearProj : layer.linearProj.length = config.hiddenSizePerHead * config.numAttentionHeads / tpSize
  postAttentionLayernorm : layer.postAttentionLayernorm.length = config.hiddenSize
  linearFc1 : layer.linearFc1.length = config.intermediateSize / tpSize * 2
  linearFc2 : layer.linearFc2.length = config.intermediateSize / tpSize

/-- A state dict and the modules for it, of the sizes that are accepted. -/
structure Checkpoint (β : Type) where
  config : Config
  parallel : Parallel
  isValueModel : Bool
  tieWordEmbeddings : Bool
  vocabSize : Nat
  stateDict : StateDict β
  models : Models β
  heads : 0 < config.numAttentionHeads
  queryGroups : config.numKeyValueHeads ∣ config.numAttentionHeads
  /-- the sizes that tensor parallel layers divide -/
  tpSize : 0 < parallel.tpSize
  tpHeads : parallel.tpSize ∣ config.numAttentionHeads
  tpIntermediate : parallel.tpSize ∣ config.intermediateSize
  tpVocab : parallel.tpSize ∣ vocabSize
  tpKeyValueHeads : parallel.tpSize ∣ config.numKeyValueHeads ∨ config.numKeyValueHeads ∣ parallel.tpSize
  staged : Staged config parallel
  embedTokens : (stateDict .embedTokens).map List.length = some vocabSize
  layers : ∀ index part, (stateDict (.layer index part)).map List.length =
    if index < config.numHiddenLayers then config.partSize part else none
  norm : (stateDict .norm).map List.length = some config.hiddenSize
  lmHead : (stateDict .lmHead).map List.length =
    if tieWordEmbeddings then none else some (if isValueModel then 1 else vocabSize)
  otherHeads : stateDict .rewardHead = none ∧ stateDict .score = none
  embedding : ∀ rank < parallel.tpSize, (models.embedding rank).length = vocabSize / parallel.tpSize
  layerSizes : ∀ place, ∀ rank < parallel.tpSize, LayerSizes config parallel.tpSize (models.layers place rank)
  finalLayernorm : ∀ rank < parallel.tpSize, (models.finalLayernorm rank).length = config.hiddenSize
  outputLayer : tieWordEmbeddings = false → ∀ rank < parallel.tpSize,
    (models.outputLayer rank).length = if isValueModel then 1 else vocabSize / parallel.tpSize

section Checkpoints
variable {β : Type} (checkpoint : Checkpoint β)

/-- Merging what was loaded gives every entry back. -/
def Checkpoint.RoundTrip (empty : β) : Prop :=
  ∃ models entries,
    loadStateDictToMegatronGptmodel checkpoint.config checkpoint.parallel empty checkpoint.isValueModel checkpoint.stateDict
      checkpoint.models = some models ∧
    mergeMegatronCkptGptmodel checkpoint.config checkpoint.parallel checkpoint.isValueModel checkpoint.tieWordEmbeddings models =
      some entries ∧
    ∀ name tensor, checkpoint.stateDict name = some tensor → lastWrite entries name = some tensor

def Checkpoint.Sound (entries : Entries β) : Prop := ∀ entry ∈ entries, checkpoint.stateDict entry.1 = some entry.2

theorem sound_nil : checkpoint.Sound [] := by
  intro entry member
  cases member

theorem sound_append {entries others : Entries β} (sound : checkpoint.Sound entries) (soundToo : checkpoint.Sound others) :
    checkpoint.Sound (entries ++ others) := by
  intro entry member
  cases mem_append.mp member with
  | inl earlier => exact sound entry earlier
  | inr later => exact soundToo entry later

theorem sound_single {name : Name} {tensor : List β} (named : checkpoint.stateDict name = some tensor) :
    checkpoint.Sound [(name, tensor)] := by
  intro entry member
  rw [mem_singleton.mp member]
  exact named

theorem named_of_length {name : Name} {size : Nat} (sized : (checkpoint.stateDict name).map length = some size) :
    ∃ tensor, checkpoint.stateDict name = some tensor ∧ tensor.length = size := Option.map_eq_some_iff.mp sized

theorem tensor_collect {name : Name} {size : Nat} {tensor : Nat → List β}
    (sized : (checkpoint.stateDict name).map length = some size)
    (sizes : ∀ rank < checkpoint.parallel.tpSize, (tensor rank).length = size) :
    ∃ stored, broadcastTensor checkpoint.parallel.tpSize checkpoint.stateDict tensor name = some stored ∧
      checkpoint.Sound (collectTensor stored name) := by
  obtain ⟨whole, named, rfl⟩ := named_of_length checkpoint sized
  exact ⟨_, broadcastTensor_same named sizes, sound_single checkpoint named⟩

theorem shard_collect {name : Name} {size : Nat} {tensor : Nat → List β} (sized : (checkpoint.stateDict name).map length = some size)
    (even : checkpoint.parallel.tpSize ∣ size)
    (sizes : ∀ rank < checkpoint.parallel.tpSize, (tensor rank).length = size / checkpoint.parallel.tpSize) :
    ∃ stored, broadcastTpShardTensor checkpoint.parallel.tpSize checkpoint.stateDict tensor name = some stored ∧
      checkpoint.Sound (collectTpShardTensor checkpoint.parallel.tpSize stored name) := by
  obtain ⟨whole, named, rfl⟩ := named_of_length checkpoint sized
  obtain ⟨stored, loaded, full⟩ := broadcastTpShardTensor_cut checkpoint.tpSize named (Nat.mul_div_cancel' even).symm sizes
  refine ⟨stored, loaded, ?_⟩
  rw [collectTpShardTensor, full]
  exact sound_single checkpoint named

theorem part_length {index : Nat} (inside : index < checkpoint.config.numHiddenLayers) (part : Part) {size : Nat}
    (sized : checkpoint.config.partSize part = some size) :
    (checkpoint.stateDict (.layer index part)).map length = some size := by
  rw [checkpoint.layers, if_pos inside, sized]

theorem gateUp_collect (empty : β) {index : Nat} (inside : index < checkpoint.config.numHiddenLayers) {tensor : Nat → List β}
    (sizes : ∀ rank < checkpoint.parallel.tpSize,
      (tensor rank).length = checkpoint.config.intermediateSize / checkpoint.parallel.tpSize * 2) :
    ∃ stored, broadcastTpShardTensorGateUp checkpoint.config checkpoint.parallel.tpSize empty checkpoint.stateDict tensor
        (.layer index .gateProj) (.layer index .upProj) = some stored ∧
      checkpoint.Sound (collectTpShardTensorGateUp checkpoint.config checkpoint.parallel.tpSize stored
        (.layer index .gateProj) (.layer index .upProj)) := by
  obtain ⟨gate, gateNamed, gates⟩ := named_of_length checkpoint (part_length checkpoint inside .gateProj rfl)
  obtain ⟨up, upNamed, ups⟩ := named_of_length checkpoint (part_length checkpoint inside .upProj rfl)
  obtain ⟨stored, loaded, collected⟩ := broadcastGateUp_collect empty checkpoint.tpSize
    (Nat.mul_div_cancel' checkpoint.tpIntermediate).symm gateNamed upNamed gates ups sizes
  refine ⟨stored, loaded, ?_⟩
  rw [collected]
  exact sound_append checkpoint (sound_single checkpoint gateNamed) (sound_single checkpoint upNamed)

theorem part_present {index : Nat} (inside : index < checkpoint.config.numHiddenLayers) (part : Part) :
    (checkpoint.stateDict (.layer index part)).isSome = (checkpoint.config.partSize part).isSome := by
  have sized := checkpoint.layers index part
  rw [if_pos inside] at sized
  rw [← sized, Option.isSome_map]

variable {syncLayer : Nat → Layer β}

theorem norms_collect {index : Nat} (inside : index < checkpoint.config.numHiddenLayers)
    (sizes : ∀ rank < checkpoint.parallel.tpSize, LayerSizes checkpoint.config checkpoint.parallel.tpSize (syncLayer rank)) :
    ∃ norms : (Nat → List β) × (Nat → List β),
      loadQkNorms checkpoint.parallel.tpSize checkpoint.stateDict index syncLayer = some norms ∧
      checkpoint.Sound (if checkpoint.config.qkLayernorm then
        collectTensor norms.1 (.layer index .qNorm) ++ collectTensor norms.2 (.layer index .kNorm) else []) := by
  rw [loadQkNorms, part_present checkpoint inside]
  cases flag : checkpoint.config.qkLayernorm with
  | true =>
    obtain ⟨q, qLoaded, qSound⟩ := tensor_collect checkpoint (part_length checkpoint inside .qNorm (if_pos flag))
      (fun rank below => (sizes rank below).qLayernorm flag)
    obtain ⟨k, kLoaded, kSound⟩ := tensor_collect checkpoint (part_length checkpoint inside .kNorm (if_pos flag))
      (fun rank below => (sizes rank below).kLayernorm flag)
    refine ⟨(q, k), ?_, sound_append checkpoint qSound kSound⟩
    simp only [Config.partSize, flag, if_true, Option.isSome_some, qLoaded, kLoaded, Option.bind_eq_bind, Option.bind_some]
    rfl
  | false =>
    refine ⟨(fun rank => (syncLayer rank).qLayernorm, fun rank => (syncLayer rank).kLayernorm), ?_, sound_nil checkpoint⟩
    simp only [Config.partSize, flag, Bool.false_eq_true, if_false, Option.isSome_none]

theorem heads_split (enough : checkpoint.parallel.tpSize ≤ checkpoint.config.numKeyValueHeads) : ∃ groups per, 0 < groups ∧
    checkpoint.config.numKeyValueHeads = checkpoint.parallel.tpSize * groups ∧
    checkpoint.config.numAttentionHeads = checkpoint.parallel.tpSize * groups * per := by
  have positive : 0 < checkpoint.config.numKeyValueHeads := Nat.lt_of_lt_of_le checkpoint.tpSize enough
  have divides : checkpoint.parallel.tpSize ∣ checkpoint.config.numKeyValueHeads := by
    cases checkpoint.tpKeyValueHeads with
    | inl whole => exact whole
    | inr shared => rw [Nat.le_antisymm (Nat.le_of_dvd checkpoint.tpSize shared) enough]
  obtain ⟨groups, whole⟩ := divides
  obtain ⟨per, queries⟩ := checkpoint.queryGroups
  refine ⟨groups, per, ?_, whole, by rw [queries, whole]⟩
  by_cases none : groups = 0
  · rw [whole, none, Nat.mul_zero] at positive
    exact absurd positive (Nat.lt_irrefl 0)
  · omega

section Layers
variable {groups per : Nat} (grouped : 0 < groups) (kvHeads : checkpoint.config.numKeyValueHeads = checkpoint.parallel.tpSize * groups)
  (heads : checkpoint.config.numAttentionHeads = checkpoint.parallel.tpSize * groups * per)
include grouped kvHeads heads

theorem qkvRows_groups : checkpoint.config.qkvRows checkpoint.parallel.tpSize =
    groups * (checkpoint.config.hiddenSizePerHead * per + 2 * checkpoint.config.hiddenSizePerHead) := by
  have ranked := checkpoint.tpSize
  have enough : checkpoint.config.numKeyValueHeads ≥ checkpoint.parallel.tpSize := by
    rw [kvHeads]
    exact Nat.le_mul_of_pos_right _ grouped
  have queries : checkpoint.config.hiddenSizePerHead * checkpoint.config.numAttentionHeads =
      checkpoint.parallel.tpSize * (groups * (checkpoint.config.hiddenSizePerHead * per)) := by
    rw [heads]
    ring
  have keys : checkpoint.config.hiddenSizePerHead * checkpoint.config.numKeyValueHeads =
      checkpoint.parallel.tpSize * (groups * checkpoint.config.hiddenSizePerHead) := by
    rw [kvHeads]
    ring
  rw [Config.qkvRows, if_pos enough, queries, keys, Nat.mul_div_cancel_left _ ranked, Nat.mul_div_cancel_left _ ranked]
  ring

section
variable (empty : β) {index : Nat} (inside : index < checkpoint.config.numHiddenLayers)
include empty index inside

theorem qkv_collect (qPart kPart vPart : Part)
    (queries : checkpoint.config.partSize qPart = some (checkpoint.config.hiddenSizePerHead * checkpoint.config.numAttentionHeads))
    (keys : checkpoint.config.partSize kPart = some (checkpoint.config.hiddenSizePerHead * checkpoint.config.numKeyValueHeads))
    (values : checkpoint.config.partSize vPart = some (checkpoint.config.hiddenSizePerHead * checkpoint.config.numKeyValueHeads))
    {tensor : Nat → List β}
    (sizes : ∀ rank < checkpoint.parallel.tpSize, (tensor rank).length = checkpoint.config.qkvRows checkpoint.parallel.tpSize) :
    ∃ stored entries, broadcastTpShardTensorQkv checkpoint.config checkpoint.parallel.tpSize empty checkpoint.stateDict tensor
        (.layer index qPart) (.layer index kPart) (.layer index vPart) = some stored ∧
      collectTpShardTensorQkv checkpoint.config checkpoint.parallel.tpSize stored
        (.layer index qPart) (.layer index kPart) (.layer index vPart) = some entries ∧ checkpoint.Sound entries ∧
      entries.map Prod.fst = [.layer index qPart, .layer index kPart, .layer index vPart] := by
  obtain ⟨q, qNamed, qLength⟩ := named_of_length checkpoint (part_length checkpoint inside _ queries)
  obtain ⟨k, kNamed, kLength⟩ := named_of_length checkpoint (part_length checkpoint inside _ keys)
  obtain ⟨v, vNamed, vLength⟩ := named_of_length checkpoint (part_length checkpoint inside _ values)
  have kvLength : checkpoint.config.hiddenSizePerHead * checkpoint.config.numKeyValueHeads =
      checkpoint.parallel.tpSize * groups * checkpoint.config.hiddenSizePerHead := by rw [kvHeads, Nat.mul_comm]
  have lengths : Heads checkpoint.parallel.tpSize groups (checkpoint.config.hiddenSizePerHead * per)
      checkpoint.config.hiddenSizePerHead q k v := by
    refine ⟨checkpoint.tpSize, grouped, ?_, kLength.trans kvLength, vLength.trans kvLength⟩
    rw [qLength, heads]
    ring
  rw [qkvRows_groups checkpoint grouped kvHeads heads] at sizes
  obtain ⟨stored, loaded, collected⟩ := broadcastQkv_collect empty kvHeads heads lengths qNamed kNamed vNamed sizes
  refine ⟨stored, _, loaded, collected, ?_, rfl⟩
  intro entry member
  simp only [mem_cons, not_mem_nil, or_false] at member
  obtain rfl | rfl | rfl := member
  · exact qNamed
  · exact kNamed
  · exact vNamed

theorem bias_collect
    (sizes : ∀ rank < checkpoint.parallel.tpSize, LayerSizes checkpoint.config checkpoint.parallel.tpSize (syncLayer rank)) :
    ∃ stored entries,
      loadQkvBias checkpoint.config checkpoint.parallel.tpSize empty checkpoint.stateDict index syncLayer = some stored ∧
      (if checkpoint.config.addQkvBias then
        collectTpShardTensorQkv checkpoint.config checkpoint.parallel.tpSize stored
          (.layer index .qBias) (.layer index .kBias) (.layer index .vBias)
      else some []) = some entries ∧
      checkpoint.Sound entries ∧ entries.map Prod.fst =
        if checkpoint.config.addQkvBias then [.layer index .qBias, .layer index .kBias, .layer index .vBias] else [] := by
  rw [loadQkvBias, part_present checkpoint inside]
  cases flag : checkpoint.config.addQkvBias with
  | true =>
    obtain ⟨stored, entries, loaded, collected, sound, names⟩ := qkv_collect checkpoint grouped kvHeads heads empty inside
      .qBias .kBias .vBias (if_pos flag) (if_pos flag) (if_pos flag) (fun rank below => (sizes rank below).linearQkvBias flag)
    refine ⟨stored, entries, ?_, collected, sound, names⟩
    simp only [Config.partSize, flag, if_true, Option.isSome_some, loaded]
  | false =>
    refine ⟨fun rank => (syncLayer rank).linearQkvBias, [], ?_, rfl, sound_nil checkpoint, rfl⟩
    simp only [Config.partSize, flag, Bool.false_eq_true, if_false, Option.isSome_none]

/-- What is loaded into a layer is merged again, under the names the state dict has for it. -/
theorem loadLayer_merge
    (sizes : ∀ rank < checkpoint.parallel.tpSize, LayerSizes checkpoint.config checkpoint.parallel.tpSize (syncLayer rank)) :
    ∃ loaded entries,
      loadLayer checkpoint.config checkpoint.parallel.tpSize empty checkpoint.stateDict index syncLayer = some loaded ∧
      mergeLayer checkpoint.config checkpoint.parallel.tpSize index loaded = some entries ∧ checkpoint.Sound entries ∧
      ∀ part, (checkpoint.stateDict (.layer index part)).isSome = true → Name.layer index part ∈ entries.map Prod.fst := by
  have proj : checkpoint.parallel.tpSize ∣ checkpoint.config.hiddenSizePerHead * checkpoint.config.numAttentionHeads :=
    Dvd.dvd.mul_left checkpoint.tpHeads _
  obtain ⟨input, inputLoaded, inputSound⟩ := tensor_collect checkpoint (part_length checkpoint inside .inputLayernorm rfl)
    (fun rank below => (sizes rank below).inputLayernorm)
  obtain ⟨post, postLoaded, postSound⟩ := tensor_collect checkpoint (part_length checkpoint inside .postAttentionLayernorm rfl)
    (fun rank below => (sizes rank below).postAttentionLayernorm)
  obtain ⟨linearProj, projLoaded, projSound⟩ := shard_collect checkpoint (part_length checkpoint inside .oProj rfl) proj
    (fun rank below => (sizes rank below).linearProj)
  obtain ⟨down, downLoaded, downSound⟩ := shard_collect checkpoint (part_length checkpoint inside .downProj rfl)
    checkpoint.tpIntermediate (fun rank below => (sizes rank below).linearFc2)
  obtain ⟨gateUp, gateUpLoaded, gateUpSound⟩ := gateUp_collect checkpoint empty inside (fun rank below => (sizes rank below).linearFc1)
  obtain ⟨qkv, weights, qkvLoaded, qkvCollected, qkvSound, qkvNames⟩ := qkv_collect checkpoint grouped kvHeads heads empty inside
    .qWeight .kWeight .vWeight rfl rfl rfl (fun rank below => (sizes rank below).linearQkv)
  obtain ⟨norms, normsLoaded, normsSound⟩ := norms_collect checkpoint inside sizes
  obtain ⟨bias, biases, biasLoaded, biasCollected, biasSound, biasNames⟩ :=
    bias_collect checkpoint grouped kvHeads heads empty inside sizes
  have loaded : loadLayer checkpoint.config checkpoint.parallel.tpSize empty checkpoint.stateDict index syncLayer = some (fun rank =>
      ⟨input rank, norms.1 rank, norms.2 rank, qkv rank, bias rank, linearProj rank, post rank, gateUp rank, down rank⟩) := by
    simp only [loadLayer, inputLoaded, normsLoaded, qkvLoaded, biasLoaded, projLoaded, postLoaded, gateUpLoaded, downLoaded]
    rfl
  have merged : mergeLayer checkpoint.config checkpoint.parallel.tpSize index (fun rank =>
      ⟨input rank, norms.1 rank, norms.2 rank, qkv rank, bias rank, linearProj rank, post rank, gateUp rank, down rank⟩) =
      some (collectTensor input (.layer index .inputLayernorm) ++
        (if checkpoint.config.qkLayernorm then
          collectTensor norms.1 (.layer index .qNorm) ++ collectTensor norms.2 (.layer index .kNorm) else []) ++
        weights ++ biases ++ collectTpShardTensor checkpoint.parallel.tpSize linearProj (.layer index .oProj) ++
        collectTensor post (.layer index .postAttentionLayernorm) ++
        collectTpShardTensorGateUp checkpoint.config checkpoint.parallel.tpSize gateUp (.layer index .gateProj) (.layer index .upProj) ++
        collectTpShardTensor checkpoint.parallel.tpSize down (.layer index .downProj)) := by
    simp only [mergeLayer, collectQkvBias, qkvCollected, biasCollected]
    rfl
  refine ⟨_, _, loaded, merged, ?_, ?_⟩
  · have attention := sound_append checkpoint (sound_append checkpoint (sound_append checkpoint inputSound normsSound) qkvSound) biasSound
    have outputs := sound_append checkpoint (sound_append checkpoint attention projSound) postSound
    exact sound_append checkpoint (sound_append checkpoint outputs gateUpSound) downSound
  · intro part present
    rw [part_present checkpoint inside] at present
    simp only [map_append, qkvNames, biasNames]
    cases part with
    | qNorm | kNorm | qBias | kBias | vBias =>
      have flag := Option.isSome_ite.mp present
      simp [flag, collectTensor]
    | _ => simp [collectTensor, collectTpShardTensor, collectTpShardTensorGateUp]

end

/-- Once some layers are loaded, their places hold what merges to their entries, and the others hold what they held. -/
def LoadedLayers (count : Nat) (layers : Nat × Nat × Nat → Nat → Layer β) : Prop :=
  (∀ layer < count, ∃ entries,
    mergeLayer checkpoint.config checkpoint.parallel.tpSize layer (layers (place checkpoint.config checkpoint.parallel layer)) =
      some entries ∧ checkpoint.Sound entries ∧
    ∀ part, (checkpoint.stateDict (.layer layer part)).isSome = true → Name.layer layer part ∈ entries.map Prod.fst) ∧
  ∀ layer, count ≤ layer → layers (place checkpoint.config checkpoint.parallel layer) =
    checkpoint.models.layers (place checkpoint.config checkpoint.parallel layer)

theorem loadLayers_run (empty : β) {layerMap : Nat → Option (Nat × Nat × Nat)}
    (mapped : ∀ layer < checkpoint.config.numHiddenLayers, layerMap layer = some (place checkpoint.config checkpoint.parallel layer))
    {count : Nat} (bound : count ≤ checkpoint.config.numHiddenLayers) :
    ∃ layers, (range count).foldlM (fun layers layer => do
        let place ← layerMap layer
        let syncLayer ← loadLayer checkpoint.config checkpoint.parallel.tpSize empty checkpoint.stateDict layer (layers place)
        return Function.update layers place syncLayer) checkpoint.models.layers = some layers ∧
      LoadedLayers checkpoint count layers := by
  induction count with
  | zero =>
    refine ⟨_, rfl, ?_, fun _ _ => rfl⟩
    intro layer inside
    cases inside
  | succ count ih =>
    obtain ⟨layers, before, done, untouched⟩ := ih (Nat.le_of_succ_le bound)
    have sizes : ∀ rank < checkpoint.parallel.tpSize, LayerSizes checkpoint.config checkpoint.parallel.tpSize
        (layers (place checkpoint.config checkpoint.parallel count) rank) := by
      rw [untouched count (Nat.le_refl count)]
      exact checkpoint.layerSizes _
    obtain ⟨loaded, entries, stored, merged⟩ := loadLayer_merge checkpoint grouped kvHeads heads empty bound sizes
    refine ⟨Function.update layers (place checkpoint.config checkpoint.parallel count) loaded, ?_, ?_, ?_⟩
    · rw [range_succ, foldlM_append, before]
      simp only [Option.bind_eq_bind, Option.bind_some, foldlM_cons, foldlM_nil, mapped count bound, stored]
      rfl
    · intro layer inside
      by_cases last : layer = count
      · rw [last, Function.update_self]
        exact ⟨entries, merged⟩
      · rw [Function.update_of_ne (fun same => last (place_injective same))]
        exact done layer (by omega)
    · intro layer later
      rw [Function.update_of_ne (fun same => absurd (place_injective same) (by omega))]
      exact untouched layer (by omega)

end Layers

theorem mergeLayers_run {layerMap : Nat → Option (Nat × Nat × Nat)}
    (mapped : ∀ layer < checkpoint.config.numHiddenLayers, layerMap layer = some (place checkpoint.config checkpoint.parallel layer))
    {layers : Nat × Nat × Nat → Nat → Layer β} (loaded : LoadedLayers checkpoint checkpoint.config.numHiddenLayers layers) :
    ∃ entries, (range checkpoint.config.numHiddenLayers).mapM (fun layer => do
        mergeLayer checkpoint.config checkpoint.parallel.tpSize layer (layers (← layerMap layer))) = some entries ∧
      checkpoint.Sound entries.flatten ∧
      ∀ layer < checkpoint.config.numHiddenLayers, ∀ part, (checkpoint.stateDict (.layer layer part)).isSome = true →
        Name.layer layer part ∈ entries.flatten.map Prod.fst := by
  have each : ∀ layer ∈ range checkpoint.config.numHiddenLayers, ∃ entries, (do
      mergeLayer checkpoint.config checkpoint.parallel.tpSize layer (layers (← layerMap layer))) = some entries ∧
      (checkpoint.Sound entries ∧
        ∀ part, (checkpoint.stateDict (.layer layer part)).isSome = true → Name.layer layer part ∈ entries.map Prod.fst) := by
    intro layer member
    have inside := mem_range.mp member
    rw [mapped layer inside]
    exact loaded.1 layer inside
  obtain ⟨entries, merged, related⟩ := mapM_related each
  refine ⟨entries, merged, ?_, ?_⟩
  · intro entry member
    obtain ⟨row, rows, within⟩ := mem_flatten.mp member
    obtain ⟨layer, _, sound, _⟩ := forall₂_right related rows
    exact sound entry within
  · intro layer inside part present
    obtain ⟨row, rows, _, names⟩ := forall₂_left related (mem_range.mpr inside)
    rw [map_flatten]
    exact mem_flatten.mpr ⟨_, mem_map_of_mem rows, names part present⟩

theorem layers_loaded (empty : β)
    (allowed : checkpoint.config.numHiddenLayers = 0 ∨ checkpoint.parallel.tpSize ≤ checkpoint.config.numKeyValueHeads)
    {layerMap : Nat → Option (Nat × Nat × Nat)}
    (mapped : ∀ layer < checkpoint.config.numHiddenLayers, layerMap layer = some (place checkpoint.config checkpoint.parallel layer)) :
    ∃ layers, (range checkpoint.config.numHiddenLayers).foldlM (fun layers layer => do
        let place ← layerMap layer
        let syncLayer ← loadLayer checkpoint.config checkpoint.parallel.tpSize empty checkpoint.stateDict layer (layers place)
        return Function.update layers place syncLayer) checkpoint.models.layers = some layers ∧
      LoadedLayers checkpoint checkpoint.config.numHiddenLayers layers := by
  cases allowed with
  | inl none =>
    rw [none]
    refine ⟨_, rfl, ?_, fun _ _ => rfl⟩
    intro layer inside
    cases inside
  | inr enough =>
    obtain ⟨groups, per, grouped, kvHeads, heads⟩ := heads_split checkpoint enough
    exact loadLayers_run checkpoint grouped kvHeads heads empty mapped (Nat.le_refl _)

theorem outputLayer_collect : ∃ stored,
    loadOutputLayer checkpoint.isValueModel checkpoint.parallel.tpSize checkpoint.stateDict checkpoint.models.outputLayer = some stored ∧
    checkpoint.Sound (if checkpoint.tieWordEmbeddings then []
      else if checkpoint.isValueModel then collectTensor stored .lmHead
      else collectTpShardTensor checkpoint.parallel.tpSize stored .lmHead) := by
  have sized := checkpoint.lmHead
  have sizes := checkpoint.outputLayer
  obtain ⟨noReward, noScore⟩ := checkpoint.otherHeads
  cases tied : checkpoint.tieWordEmbeddings with
  | true =>
    rw [tied, if_pos rfl, Option.map_eq_none_iff] at sized
    refine ⟨checkpoint.models.outputLayer, ?_, sound_nil checkpoint⟩
    simp [loadOutputLayer, broadcastTpShardTensor, sized, noReward, noScore]
  | false =>
    have sizes := sizes tied
    rw [tied, if_neg Bool.false_ne_true] at sized
    cases value : checkpoint.isValueModel with
    | true =>
      rw [value, if_pos rfl] at sized
      rw [value] at sizes
      obtain ⟨whole, named, length⟩ := named_of_length checkpoint sized
      obtain ⟨stored, loaded, sound⟩ := tensor_collect checkpoint sized sizes
      refine ⟨stored, ?_, sound⟩
      rw [loadOutputLayer, if_neg (by simp), if_pos (by simp [named, length]), loaded]
    | false =>
      rw [value, if_neg Bool.false_ne_true] at sized
      rw [value] at sizes
      obtain ⟨stored, loaded, sound⟩ := shard_collect checkpoint sized checkpoint.tpVocab sizes
      exact ⟨stored, loaded, sound⟩

theorem written_names {entries : List (Entries β)} {embedding norm output : Nat → List β}
    (layersNamed : ∀ layer < checkpoint.config.numHiddenLayers, ∀ part,
      (checkpoint.stateDict (.layer layer part)).isSome = true → Name.layer layer part ∈ entries.flatten.map Prod.fst)
    {name : Name} {tensor : List β} (named : checkpoint.stateDict name = some tensor) :
    ((name ∈ (collectTpShardTensor checkpoint.parallel.tpSize embedding .embedTokens).map Prod.fst ∨
      name ∈ entries.flatten.map Prod.fst) ∨ name ∈ (collectTensor norm .norm).map Prod.fst) ∨
      name ∈ (if checkpoint.tieWordEmbeddings then []
        else if checkpoint.isValueModel then collectTensor output .lmHead
        else collectTpShardTensor checkpoint.parallel.tpSize output .lmHead).map Prod.fst := by
  cases name with
  | embedTokens => exact Or.inl (Or.inl (Or.inl mem_cons_self))
  | norm => exact Or.inl (Or.inr mem_cons_self)
  | layer index part =>
    have sized := checkpoint.layers index part
    have inside : index < checkpoint.config.numHiddenLayers := by
      by_cases inside : index < checkpoint.config.numHiddenLayers
      · exact inside
      · rw [named, if_neg inside] at sized
        cases sized
    exact Or.inl (Or.inl (Or.inr (layersNamed index inside part (by rw [named]; rfl))))
  | lmHead =>
    have sized := checkpoint.lmHead
    right
    cases tied : checkpoint.tieWordEmbeddings with
    | true =>
      rw [named, tied] at sized
      cases sized
    | false =>
      cases checkpoint.isValueModel with
      | true => exact mem_cons_self
      | false => exact mem_cons_self
  | rewardHead =>
    rw [checkpoint.otherHeads.1] at named
    cases named
  | score =>
    rw [checkpoint.otherHeads.2] at named
    cases named

theorem mergeModel_shared (some : 0 < checkpoint.config.numHiddenLayers)
    (shared : checkpoint.config.numKeyValueHeads < checkpoint.parallel.tpSize) (models : Models β) :
    mergeMegatronCkptGptmodel checkpoint.config checkpoint.parallel checkpoint.isValueModel checkpoint.tieWordEmbeddings models =
      none := by
  obtain ⟨layerMap, map, mapped⟩ := layerMap_place checkpoint.staged
  obtain ⟨more, count⟩ := Nat.exists_eq_succ_of_ne_zero (Nat.ne_of_gt some)
  have first : mergeLayer checkpoint.config checkpoint.parallel.tpSize 0
      (models.layers (place checkpoint.config checkpoint.parallel 0)) = none := by
    rw [mergeLayer, collectQkv_shared checkpoint.tpSize shared]
    rfl
  rw [mergeMegatronCkptGptmodel, map, Option.bind_eq_bind, Option.bind_some, count, range_succ_eq_map, mapM_cons,
    mapped 0 some]
  simp only [Option.bind_eq_bind, Option.bind_some, first, Option.bind_none]

/-- Merging gives everything back exactly when every rank has a whole query group, or there are no layers. -/
theorem roundTrip_iff (empty : β) : checkpoint.RoundTrip empty ↔
    checkpoint.config.numHiddenLayers = 0 ∨ checkpoint.parallel.tpSize ≤ checkpoint.config.numKeyValueHeads := by
  obtain ⟨layerMap, map, mapped⟩ := layerMap_place checkpoint.staged
  constructor
  · intro trip
    obtain ⟨models, entries, _, merged, _⟩ := trip
    by_cases none : checkpoint.config.numHiddenLayers = 0
    · exact Or.inl none
    · right
      by_cases enough : checkpoint.parallel.tpSize ≤ checkpoint.config.numKeyValueHeads
      · exact enough
      · rw [mergeModel_shared checkpoint (Nat.pos_of_ne_zero none) (Nat.lt_of_not_le enough)] at merged
        cases merged
  · intro allowed
    obtain ⟨layers, layersLoaded, holds⟩ := layers_loaded checkpoint empty allowed mapped
    obtain ⟨entries, layersMerged, layersSound, layersNamed⟩ := mergeLayers_run checkpoint mapped holds
    obtain ⟨embedding, embeddingLoaded, embeddingSound⟩ := shard_collect checkpoint checkpoint.embedTokens checkpoint.tpVocab
      checkpoint.embedding
    obtain ⟨norm, normLoaded, normSound⟩ := tensor_collect checkpoint checkpoint.norm checkpoint.finalLayernorm
    obtain ⟨output, outputLoaded, outputSound⟩ := outputLayer_collect checkpoint
    have loaded : loadStateDictToMegatronGptmodel checkpoint.config checkpoint.parallel empty checkpoint.isValueModel
        checkpoint.stateDict checkpoint.models = some ⟨embedding, layers, norm, output⟩ := by
      rw [loadStateDictToMegatronGptmodel, embeddingLoaded, Option.bind_eq_bind, Option.bind_some, map, Option.bind_eq_bind,
        Option.bind_some, layersLoaded, Option.bind_eq_bind, Option.bind_some, normLoaded, Option.bind_some, outputLoaded]
      rfl
    have merged : mergeMegatronCkptGptmodel checkpoint.config checkpoint.parallel checkpoint.isValueModel
        checkpoint.tieWordEmbeddings ⟨embedding, layers, norm, output⟩ =
        some (collectTpShardTensor checkpoint.parallel.tpSize embedding .embedTokens ++ entries.flatten ++ collectTensor norm .norm ++
          (if checkpoint.tieWordEmbeddings then []
          else if checkpoint.isValueModel then collectTensor output .lmHead
          else collectTpShardTensor checkpoint.parallel.tpSize output .lmHead)) := by
      rw [mergeMegatronCkptGptmodel, map, Option.bind_eq_bind, Option.bind_some, layersMerged]
      rfl
    refine ⟨_, _, loaded, merged, ?_⟩
    intro name tensor named
    have sound := sound_append checkpoint (sound_append checkpoint (sound_append checkpoint embeddingSound layersSound) normSound)
      outputSound
    apply lastWrite_eq
    · intro write member same
      have written := sound write member
      rw [same, named] at written
      exact (Option.some.inj written).symm
    · simp only [List.map_append, List.mem_append]
      exact written_names checkpoint layersNamed named

end Checkpoints

/-- Two ranks and one group of two query heads. -/
def sharedConfig : Config := ⟨1, 2, 1, 2, some 2, 2, false, false⟩

def sharedStateDict : StateDict Nat
  | .embedTokens | .norm | .lmHead => some [1, 2]
  | .layer index part => if index < 1 then (sharedConfig.partSize part).map List.range else none
  | .rewardHead | .score => none

def sharedLayer : Layer Nat := ⟨[0, 0], [], [], List.replicate 6 0, [], [0, 0], [0, 0], [0, 0], [0]⟩

theorem shared_layers (index : Nat) (part : Part) : (sharedStateDict (.layer index part)).map length =
    if index < sharedConfig.numHiddenLayers then sharedConfig.partSize part else none := by
  by_cases first : index < 1
  · cases part <;> simp [sharedStateDict, first, sharedConfig, Config.partSize]
  · simp [sharedStateDict, first, sharedConfig]

theorem shared_sizes : LayerSizes sharedConfig 2 sharedLayer := by
  constructor <;> decide

def sharedGroup : Checkpoint Nat where
  config := sharedConfig
  parallel := ⟨2, 1, 1⟩
  isValueModel := false
  tieWordEmbeddings := false
  vocabSize := 2
  stateDict := sharedStateDict
  models := ⟨fun _ => [0], fun _ _ => sharedLayer, fun _ => [0, 0], fun _ => [0]⟩
  heads := by decide
  queryGroups := by decide
  tpSize := by decide
  tpHeads := by decide
  tpIntermediate := by decide
  tpVocab := by decide
  tpKeyValueHeads := by decide
  staged := ⟨by decide, by decide, by decide⟩
  embedTokens := rfl
  layers := shared_layers
  norm := rfl
  lmHead := rfl
  otherHeads := ⟨rfl, rfl⟩
  embedding := fun _ _ => rfl
  layerSizes := fun _ _ _ => shared_sizes
  finalLayernorm := fun _ _ => rfl
  outputLayer := fun _ _ _ => rfl

/-- Its shards are written, but the number of groups of a rank, by which the saver divides, is zero. -/
theorem not_roundTrip : ¬ sharedGroup.RoundTrip 0 := by
  intro trip
  obtain ⟨models, entries, _, merged, _⟩ := trip
  rw [mergeModel_shared sharedGroup (by decide) (by decide)] at merged
  cases merged

end LLMFusion.McoreWeights
