import LLMFusion.Lib.Indexing
import Mathlib.Algebra.BigOperators.Group.List.Basic
import Mathlib.Algebra.Ring.Nat

/-! Saving a model that is merged by several ranks. Every rank writes the files of its own layers, and
the first one writes which file holds which parameter. -/

namespace LLMFusion.SaveShards

abbrev Text := List Char

variable {τ : Type}

/-- The parameters of a rank, in the order of its dictionary. -/
abbrev StateDict (τ : Type) := List (String × τ)

structure File (τ : Type) where
  number : Nat
  name : Text
  parameters : StateDict τ
  deriving DecidableEq, Repr

/-- `model.safetensors.index.json` -/
structure Index where
  totalSize : Nat
  weightMap : List (String × Text)
  deriving DecidableEq, Repr

/-- What the ranks have: `pipeline_shards` and their merged state dicts. -/
structure Merger (τ : Type) where
  numHiddenLayers : Nat
  pipelineShards : List Nat
  mergedStateDicts : List (StateDict τ)

def Merger.worldSize (merger : Merger τ) : Nat := merger.mergedStateDicts.length

def Merger.savesPerLayer (merger : Merger τ) : Nat := if merger.numHiddenLayers < 30 then 1 else 2

def Merger.savesTotal (merger : Merger τ) : Nat := merger.savesPerLayer * merger.numHiddenLayers

/-- `f"{number:05d}"` -/
def fiveDigits (number : Nat) : Text := (Nat.toDigits 10 number).leftpad 5 '0'

def shardName (number total : Nat) : Text :=
  "model-".toList ++ fiveDigits number ++ "-of-".toList ++ fiveDigits total ++ ".safetensors".toList

/-- The items that the sizes take one after the other. -/
def cutSizes {α : Type} : List Nat → List α → List (List α)
  | [], _ => []
  | size :: sizes, items => items.take size :: cutSizes sizes (items.drop size)

/-- `np.array_split`: the first parts have one item more. -/
def arraySplit {α : Type} (items : List α) (sections : Nat) : Option (List (List α)) :=
  if sections = 0 then none
  else
    let extras := items.length % sections
    let each := items.length / sections
    some (cutSizes (List.replicate extras (each + 1) ++ List.replicate (sections - extras) each) items)

variable (numel : τ → Nat)

/-- What a rank writes, its part of the index and its number of elements. -/
structure Part (τ : Type) where
  files : List (File τ)
  savesIndexes : List (String × Text)
  numel : Nat

/-- `{k: merged_state_dict[k] for k in keys}` -/
def sdToSave (mergedStateDict : StateDict τ) (keys : List String) : StateDict τ :=
  keys.filterMap (fun k => (mergedStateDict.lookup k).map (k, ·))

def saveRank (merger : Merger τ) (rank : Nat) : Option (Part τ) := do
  let layerThisRank ← merger.pipelineShards[rank]?
  let mergedStateDict ← merger.mergedStateDicts[rank]?
  -- `pipeline_cumsum[self.rank - 1]`
  let layerStart := (merger.pipelineShards.take rank).sum
  let keysChunk ← arraySplit (mergedStateDict.map Prod.fst) (layerThisRank * merger.savesPerLayer)
  let number := fun i => layerStart * merger.savesPerLayer + i + 1
  let name := fun i => shardName (number i) merger.savesTotal
  return {
    files := keysChunk.zipIdx.map (fun chunk => ⟨number chunk.2, name chunk.2, sdToSave mergedStateDict chunk.1⟩)
    savesIndexes := Indexing.fromEntries (keysChunk.zipIdx.flatMap (fun chunk => chunk.1.map (fun k => (k, name chunk.2))))
    numel := (keysChunk.map (fun keys => ((sdToSave mergedStateDict keys).map (fun parameter => numel parameter.2)).sum)).sum }

def saveShards (merger : Merger τ) : Option (List (File τ) × Index) := do
  let parts ← (List.range merger.worldSize).mapM (saveRank numel merger)
  return (parts.flatMap Part.files, ⟨(parts.map Part.numel).sum, Indexing.fromEntries (parts.flatMap Part.savesIndexes)⟩)

inductive Saved (τ : Type) where
  /-- `super().save_hf_model_and_tokenizer` -/
  | whole (stateDict : StateDict τ)
  | shards (files : List (File τ)) (index : Index)

def saveHfModelAndTokenizer (merger : Merger τ) : Option (Saved τ) :=
  match merger.mergedStateDicts with
  | [stateDict] => some (.whole stateDict)
  | _ => (saveShards numel merger).map (fun saved => .shards saved.1 saved.2)

end LLMFusion.SaveShards
