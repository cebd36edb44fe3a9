import LLMFusion.Lib.Blocks

/-! Loading a state dict into the modules of a tensor and pipeline parallel model, and merging the
modules into a state dict. A tensor is the list of its slices along the dimension it is cut in:
rows, or columns for the projections that are cut by columns, or numbers for a vector. -/

namespace LLMFusion.McoreWeights
open Slices Blocks

/-- The configuration; the module's `num_query_groups` is `num_key_value_heads`. -/
structure Config where
  numHiddenLayers : Nat
  numAttentionHeads : Nat
  numKeyValueHeads : Nat
  hiddenSize : Nat
  headDim : Option Nat
  intermediateSize : Nat
  qkLayernorm : Bool
  addQkvBias : Bool
  deriving DecidableEq, Repr

def Config.hiddenSizePerHead (config : Config) : Nat :=
  config.headDim.getD (config.hiddenSize / config.numAttentionHeads)

def Config.numQueryGroups (config : Config) : Nat := config.numKeyValueHeads

/-- The tensor, pipeline and virtual pipeline sizes. -/
structure Parallel where
  tpSize : Nat
  ppSize : Nat
  virtualPpSize : Nat
  deriving DecidableEq, Repr

/-- The weights of a layer, by the ends of their names. -/
inductive Part where
  | inputLayernorm | qNorm | kNorm | qWeight | kWeight | vWeight | qBias | kBias | vBias
  | oProj | postAttentionLayernorm | gateProj | upProj | downProj
  deriving DecidableEq, Repr

inductive Name where
  | embedTokens
  | layer (index : Nat) (part : Part)
  | norm
  | lmHead
  | rewardHead
  | score
  deriving DecidableEq, Repr

abbrev StateDict (β : Type) := Name → Option (List β)

/-- The last value that was written under a key. -/
def lastWrite {κ ν : Type} [DecidableEq κ] (writes : List (κ × ν)) (key : κ) : Option ν := writes.reverse.lookup key

/-- Which pipeline rank, virtual rank and place in the module a layer has. -/
def megatronCalcLayerMap (config : Config) (parallel : Parallel) : Option (Nat → Option (Nat × Nat × Nat)) :=
  let numLayersPerModel := config.numHiddenLayers / parallel.ppSize / parallel.virtualPpSize
  if numLayersPerModel * parallel.ppSize * parallel.virtualPpSize = config.numHiddenLayers then
    some (lastWrite ((List.range parallel.ppSize).flatMap (fun ppRank =>
      (List.range parallel.virtualPpSize).flatMap (fun virtualPpRank =>
        let layerOffset := virtualPpRank * (config.numHiddenLayers / parallel.virtualPpSize) + ppRank * numLayersPerModel
        (List.range numLayersPerModel).map (fun layerIdx => (layerOffset + layerIdx, (ppRank, virtualPpRank, layerIdx)))))))
  else none

variable {β : Type}

/-- The weights of a layer on one rank. -/
structure Layer (β : Type) where
  inputLayernorm : List β
  qLayernorm : List β
  kLayernorm : List β
  linearQkv : List β
  linearQkvBias : List β
  linearProj : List β
  postAttentionLayernorm : List β
  linearFc1 : List β
  linearFc2 : List β

/-- The modules of all ranks, by tensor parallel rank: the embedding is on the first stage, the last
norm and the output layer on the last one, and the layers at their places. -/
structure Models (β : Type) where
  embedding : Nat → List β
  layers : Nat × Nat × Nat → Nat → Layer β
  finalLayernorm : Nat → List β
  outputLayer : Nat → List β

/-! ### Loading -/

/-- Every rank gets the weight; its own tensor has to have that size. -/
def broadcastTensor (tpSize : Nat) (stateDict : StateDict β) (tensor : Nat → List β) (name : Name) : Option (Nat → List β) :=
  match stateDict name with
  | none => some tensor
  | some weight =>
    if (List.range tpSize).all (fun rank => (tensor rank).length == weight.length) then some (fun _ => weight) else none

/-- Every rank gets its chunk; its own tensor has to have the size of the first one, and so has every chunk. -/
def storeChunks (tpSize : Nat) (tensor : Nat → List β) (tensorChunk : List (List β)) : Option (Nat → List β) := do
  let first ← tensorChunk[0]?
  if (List.range tpSize).all (fun rank => (tensor rank).length == first.length) then do
    let synced ← (List.range tpSize).mapM (fun rank => do
      let chunk ← tensorChunk[rank]?
      if chunk.length = first.length then some chunk else none)
    return fun rank => synced.getD rank []
  else none

def broadcastTpShardTensor (tpSize : Nat) (stateDict : StateDict β) (tensor : Nat → List β) (name : Name) :
    Option (Nat → List β) :=
  match stateDict name with
  | none => some tensor
  | some fullWeight => do storeChunks tpSize tensor (← chunk tpSize fullWeight)

/-- `empty` stands for what a new buffer holds. -/
def broadcastTpShardTensorGateUp (config : Config) (tpSize : Nat) (empty : β) (stateDict : StateDict β)
    (tensor : Nat → List β) (gateName upName : Name) : Option (Nat → List β) := do
  let gateWeight ← stateDict gateName
  let upWeight ← stateDict upName
  let intermediateSizeTp := config.intermediateSize / tpSize
  let newGateUpWeight ← copyBlocks tpSize (intermediateSizeTp * 2)
    (fun _ i => some (block intermediateSizeTp gateWeight i ++ block intermediateSizeTp upWeight i))
    (List.replicate (config.intermediateSize * 2) empty)
  storeChunks tpSize tensor (← chunk tpSize newGateUpWeight)

/-- The parts of one rank, head by head. -/
def interleaveHeads (heads totalSize : Nat) (qPart kPart vPart newWeightQkvThisTp : List β) : Option (List β) := do
  let qPartPerHead ← chunk heads qPart
  let kPartPerHead ← chunk heads kPart
  let vPartPerHead ← chunk heads vPart
  copyBlocks heads (totalSize / heads)
    (fun _ j => do return (← qPartPerHead[j]?) ++ (← kPartPerHead[j]?) ++ (← vPartPerHead[j]?)) newWeightQkvThisTp

/-- The weight of all ranks. With fewer groups than ranks, ranks share a group. -/
def newWeightQkv (config : Config) (tpSize : Nat) (empty : β) (fullWeightQ fullWeightK fullWeightV : List β) :
    Option (List β) :=
  let hiddenSizePerHead := config.hiddenSizePerHead
  let qSizeTp := hiddenSizePerHead * config.numAttentionHeads / tpSize
  if config.numKeyValueHeads ≥ tpSize then
    let kvSizeTp := hiddenSizePerHead * config.numKeyValueHeads / tpSize
    let totalSize := qSizeTp + 2 * kvSizeTp
    copyBlocks tpSize totalSize (fun weight i =>
      interleaveHeads (config.numQueryGroups / tpSize) totalSize (block qSizeTp fullWeightQ i) (block kvSizeTp fullWeightK i)
        (block kvSizeTp fullWeightV i) (block totalSize weight i)) (List.replicate (totalSize * tpSize) empty)
  else
    let kvSizeTp := hiddenSizePerHead
    let totalSize := qSizeTp + 2 * kvSizeTp
    copyBlocks tpSize totalSize (fun weight i =>
      let startIdx := i * config.numKeyValueHeads / tpSize * hiddenSizePerHead
      let endIdx := (i * config.numKeyValueHeads / tpSize + 1) * hiddenSizePerHead
      interleaveHeads config.numAttentionHeads totalSize (block qSizeTp fullWeightQ i) (slice fullWeightK startIdx endIdx)
        (slice fullWeightV startIdx endIdx) (block totalSize weight i)) (List.replicate (totalSize * tpSize) empty)

def broadcastTpShardTensorQkv (config : Config) (tpSize : Nat) (empty : β) (stateDict : StateDict β)
    (tensor : Nat → List β) (qName kName vName : Name) : Option (Nat → List β) := do
  let fullWeightQ ← stateDict qName
  let fullWeightK ← stateDict kName
  let fullWeightV ← stateDict vName
  let weight ← newWeightQkv config tpSize empty fullWeightQ fullWeightK fullWeightV
  storeChunks tpSize tensor (← chunk tpSize weight)

/-- The norms of queries and keys, when the state dict has them. -/
def loadQkNorms (tpSize : Nat) (stateDict : StateDict β) (layer : Nat) (syncLayer : Nat → Layer β) :
    Option ((Nat → List β) × (Nat → List β)) :=
  if (stateDict (.layer layer .qNorm)).isSome then do
    let q ← broadcastTensor tpSize stateDict (fun rank => (syncLayer rank).qLayernorm) (.layer layer .qNorm)
    let k ← broadcastTensor tpSize stateDict (fun rank => (syncLayer rank).kLayernorm) (.layer layer .kNorm)
    return (q, k)
  else some (fun rank => (syncLayer rank).qLayernorm, fun rank => (syncLayer rank).kLayernorm)

/-- The fused bias, when the state dict has one. -/
def loadQkvBias (config : Config) (tpSize : Nat) (empty : β) (stateDict : StateDict β) (layer : Nat) (syncLayer : Nat → Layer β) :
    Option (Nat → List β) :=
  if (stateDict (.layer layer .qBias)).isSome then
    broadcastTpShardTensorQkv config tpSize empty stateDict (fun rank => (syncLayer rank).linearQkvBias)
      (.layer layer .qBias) (.layer layer .kBias) (.layer layer .vBias)
  else some (fun rank => (syncLayer rank).linearQkvBias)

/-- The weights of one layer. -/
def loadLayer (config : Config) (tpSize : Nat) (empty : β) (stateDict : StateDict β) (layer : Nat) (syncLayer : Nat → Layer β) :
    Option (Nat → Layer β) := do
  let name := Name.layer layer
  let inputLayernorm ← broadcastTensor tpSize stateDict (fun rank => (syncLayer rank).inputLayernorm) (name .inputLayernorm)
  let norms ← loadQkNorms tpSize stateDict layer syncLayer
  let linearQkv ← broadcastTpShardTensorQkv config tpSize empty stateDict (fun rank => (syncLayer rank).linearQkv)
    (name .qWeight) (name .kWeight) (name .vWeight)
  let linearQkvBias ← loadQkvBias config tpSize empty stateDict layer syncLayer
  let linearProj ← broadcastTpShardTensor tpSize stateDict (fun rank => (syncLayer rank).linearProj) (name .oProj)
  let postAttentionLayernorm ← broadcastTensor tpSize stateDict (fun rank => (syncLayer rank).postAttentionLayernorm)
    (name .postAttentionLayernorm)
  let linearFc1 ← broadcastTpShardTensorGateUp config tpSize empty stateDict (fun rank => (syncLayer rank).linearFc1)
    (name .gateProj) (name .upProj)
  let linearFc2 ← broadcastTpShardTensor tpSize stateDict (fun rank => (syncLayer rank).linearFc2) (name .downProj)
  return fun rank => ⟨inputLayernorm rank, norms.1 rank, norms.2 rank, linearQkv rank, linearQkvBias rank, linearProj rank,
    postAttentionLayernorm rank, linearFc1 rank, linearFc2 rank⟩

/-- The head of a value model has one row, under one of three names. -/
def loadOutputLayer (isValueModel : Bool) (tpSize : Nat) (stateDict : StateDict β) (lmHeadWeight : Nat → List β) : Option (Nat → List β) :=
  let single (name : Name) : Bool := (stateDict name).any (fun weight => weight.length == 1)
  if isValueModel = false then broadcastTpShardTensor tpSize stateDict lmHeadWeight .lmHead
  else if single .lmHead then broadcastTensor tpSize stateDict lmHeadWeight .lmHead
  else if single .rewardHead then broadcastTensor tpSize stateDict lmHeadWeight .rewardHead
  else if single .score then broadcastTensor tpSize stateDict lmHeadWeight .score
  else some lmHeadWeight

def loadStateDictToMegatronGptmodel (config : Config) (parallel : Parallel) (empty : β) (isValueModel : Bool)
    (stateDict : StateDict β) (models : Models β) : Option (Models β) := do
  let embedding ← broadcastTpShardTensor parallel.tpSize stateDict models.embedding .embedTokens
  let layerMap ← megatronCalcLayerMap config parallel
  let layers ← (List.range config.numHiddenLayers).foldlM (fun layers layer => do
    let place ← layerMap layer
    let syncLayer ← loadLayer config parallel.tpSize empty stateDict layer (layers place)
    return Function.update layers place syncLayer) models.layers
  let finalLayernorm ← broadcastTensor parallel.tpSize stateDict models.finalLayernorm .norm
  let outputLayer ← loadOutputLayer isValueModel parallel.tpSize stateDict models.outputLayer
  return ⟨embedding, layers, finalLayernorm, outputLayer⟩

/-! ### Merging -/

/-- What is written into the state dict. -/
abbrev Entries (β : Type) := List (Name × List β)

def collectTensor (tensor : Nat → List β) (name : Name) : Entries β := [(name, tensor 0)]

def fullTensor (tpSize : Nat) (tensor : Nat → List β) : List β := (List.range tpSize).flatMap tensor

def collectTpShardTensor (tpSize : Nat) (tensor : Nat → List β) (name : Name) : Entries β := [(name, fullTensor tpSize tensor)]

def collectTpShardTensorGateUp (config : Config) (tpSize : Nat) (tensor : Nat → List β) (gateName upName : Name) : Entries β :=
  let intermediateSizeTp := config.intermediateSize / tpSize
  let gateUpWeightTp := block (intermediateSizeTp * 2) (fullTensor tpSize tensor)
  [(gateName, (List.range tpSize).flatMap (fun i => (gateUpWeightTp i).take intermediateSizeTp)),
    (upName, (List.range tpSize).flatMap (fun i => (gateUpWeightTp i).drop intermediateSizeTp))]

/-- Division by zero raises. -/
def floorDiv (number divisor : Nat) : Option Nat := if divisor = 0 then none else some (number / divisor)

/-- The parts of one rank. -/
def takeApart (groups totalSize qSizeTp kvSizeTp : Nat) (whole : List β) (i : Nat) : Option (List β × List β × List β) := do
  let qkvPart := block totalSize whole i
  let qSizeChunk ← floorDiv qSizeTp groups
  let kvSizeChunk ← floorDiv kvSizeTp groups
  let chunks ← chunk groups qkvPart
  return (chunks.flatMap (List.take qSizeChunk),
    chunks.flatMap (fun chunk => slice chunk qSizeChunk (qSizeChunk + kvSizeChunk)),
    chunks.flatMap (List.drop (qSizeChunk + kvSizeChunk)))

def collectTpShardTensorQkv (config : Config) (tpSize : Nat) (tensor : Nat → List β) (qName kName vName : Name) :
    Option (Entries β) := do
  let whole := fullTensor tpSize tensor
  let hiddenSizePerHead := config.hiddenSizePerHead
  let qSizeTp := hiddenSizePerHead * config.numAttentionHeads / tpSize
  let numQueryGroupsPerPartition := config.numQueryGroups / tpSize
  let parts ← (List.range tpSize).mapM (fun i =>
    if config.numKeyValueHeads ≥ tpSize then
      let kvSizeTp := hiddenSizePerHead * config.numKeyValueHeads / tpSize
      takeApart numQueryGroupsPerPartition (qSizeTp + 2 * kvSizeTp) qSizeTp kvSizeTp whole i
    else do
      let kvSizeTp := hiddenSizePerHead
      let (q, k, v) ← takeApart numQueryGroupsPerPartition (qSizeTp + 2 * kvSizeTp) qSizeTp kvSizeTp whole i
      -- ranks that share a group hold the same keys and values
      return if i * config.numKeyValueHeads % tpSize = 0 then (q, k, v) else (q, [], []))
  return [(qName, parts.flatMap Prod.fst), (kName, parts.flatMap (fun part => part.2.1)), (vName, parts.flatMap (fun part => part.2.2))]

/-- The norms of queries and keys, when the module has them. -/
def collectQkNorms (config : Config) (layer : Nat) (syncLayer : Nat → Layer β) : Entries β :=
  if config.qkLayernorm then
    collectTensor (fun rank => (syncLayer rank).qLayernorm) (.layer layer .qNorm) ++
      collectTensor (fun rank => (syncLayer rank).kLayernorm) (.layer layer .kNorm)
  else []

def collectQkvBias (config : Config) (tpSize layer : Nat) (syncLayer : Nat → Layer β) : Option (Entries β) :=
  if config.addQkvBias then
    collectTpShardTensorQkv config tpSize (fun rank => (syncLayer rank).linearQkvBias)
      (.layer layer .qBias) (.layer layer .kBias) (.layer layer .vBias)
  else some []

def mergeLayer (config : Config) (tpSize : Nat) (layer : Nat) (syncLayer : Nat → Layer β) : Option (Entries β) := do
  let name := Name.layer layer
  let weights ← collectTpShardTensorQkv config tpSize (fun rank => (syncLayer rank).linearQkv)
    (name .qWeight) (name .kWeight) (name .vWeight)
  let biases ← collectQkvBias config tpSize layer syncLayer
  return collectTensor (fun rank => (syncLayer rank).inputLayernorm) (name .inputLayernorm) ++
    collectQkNorms config layer syncLayer ++ weights ++ biases ++
    collectTpShardTensor tpSize (fun rank => (syncLayer rank).linearProj) (name .oProj) ++
    collectTensor (fun rank => (syncLayer rank).postAttentionLayernorm) (name .postAttentionLayernorm) ++
    collectTpShardTensorGateUp config tpSize (fun rank => (syncLayer rank).linearFc1) (name .gateProj) (name .upProj) ++
    collectTpShardTensor tpSize (fun rank => (syncLayer rank).linearFc2) (name .downProj)

def mergeMegatronCkptGptmodel (config : Config) (parallel : Parallel) (isValueModel tieWordEmbeddings : Bool) (models : Models β) :
    Option (Entries β) := do
  let layerMap ← megatronCalcLayerMap config parallel
  let layers ← (List.range config.numHiddenLayers).mapM (fun layer => do
    mergeLayer config parallel.tpSize layer (models.layers (← layerMap layer)))
  return collectTpShardTensor parallel.tpSize models.embedding .embedTokens ++ layers.flatten ++
    collectTensor models.finalLayernorm .norm ++
    (if tieWordEmbeddings then []
    else if isValueModel then collectTensor models.outputLayer .lmHead
    else collectTpShardTensor parallel.tpSize models.outputLayer .lmHead)

end LLMFusion.McoreWeights
