import LLMFusion.Lib.Sorting
import Mathlib.Algebra.BigOperators.Group.List.Basic
import Mathlib.Algebra.Ring.Int.Defs

/-! The layers of each pipeline rank of a checkpoint that is merged. The middle ranks have one
number of layers, and the first and the last share what is left; of the numbers that fit, one is
taken that differs least from the first rank's. -/

namespace LLMFusion.MegatronModelMerger
open Sorting

inductive Failure where
  | valueError (message : String)
  | indexError
  | assertion (message : String)
  deriving DecidableEq, Repr

/-- A list of layer numbers, and how far the first is from the middle ones. -/
structure ShardsStrategy where
  shards : List Int
  diff : Nat
  deriving DecidableEq, Repr

/-- The body of the loop over `middle_layer_num`. -/
def shardsStrategy (layerNum middleSize middleLayerNum : Int) : Option ShardsStrategy :=
  let firstLastLayerNum := layerNum - middleLayerNum * middleSize
  let firstLayerNum := firstLastLayerNum / 2
  let lastLayerNum := firstLastLayerNum - firstLastLayerNum / 2
  if (0 < firstLayerNum ∧ firstLayerNum ≤ middleLayerNum) ∧ 0 < lastLayerNum ∧ lastLayerNum ≤ middleLayerNum then
    some ⟨[firstLayerNum] ++ List.replicate middleSize.toNat middleLayerNum ++ [lastLayerNum],
      (firstLayerNum - middleLayerNum).natAbs⟩
  else none

def shardsStrategies (layerNum middleSize : Int) : List ShardsStrategy :=
  (List.range layerNum.toNat).filterMap (fun middleLayerNum : Nat => shardsStrategy layerNum middleSize middleLayerNum)

def getDynamicPipelineShards (layerNum ppSize : Int) : Except Failure (List Int) :=
  if layerNum < ppSize then .error (.valueError s!"layer_num {layerNum} must be greater than pp_size {ppSize}.")
  else if ppSize < 1 then .error (.valueError s!"pp_size must be at least 1, got {ppSize}.")
  else if ppSize = 1 then .ok [layerNum]
  else if ppSize = 2 then .ok [layerNum / 2, layerNum - layerNum / 2]
  else
    match sorted (fun first second => first.diff < second.diff) (shardsStrategies layerNum (ppSize - 2)) with
    | [] => .error .indexError
    | best :: _ =>
      if best.shards.sum = layerNum then .ok best.shards
      else .error (.assertion s!"sum(res)={best.shards.sum} != layer_num={layerNum}, pp_size={ppSize}")

end LLMFusion.MegatronModelMerger
