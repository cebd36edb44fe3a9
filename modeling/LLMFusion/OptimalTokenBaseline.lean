import LLMFusion.CoreAlgos
import LLMFusion.Lib.Masking
import LLMFusion.Lib.Slices

/-! A baseline for every time step of a group, weighted by the variance that the trajectories have
accumulated. There are two versions: one works on the tokens where they lie, the other first
brings the valid tokens of every trajectory together. `exp` is the function of that name. -/

namespace LLMFusion.CoreAlgos
open TorchFunctional Grouping

/-- A token with its log-probability and the sum of the squared probabilities of the vocabulary. -/
structure PathToken (K : Type) extends Token K where
  oldLogProb : K
  sumPiSquared : K

structure PathBatch (ι K : Type) (count width : Nat) where
  tokens : Vector (Vector (PathToken K) width) count
  index : Vector ι count
  rolloutIsWeights : Option (Vector (Vector K width) count)

variable {ι K : Type} [Field K] {count width : Nat}

/-! ### Energies -/

/-- `cumsum(dim=-1)` -/
def cumsumFrom (start : K) : List K → List K
  | [] => []
  | value :: values => (start + value) :: cumsumFrom (start + value) values

/-- The reward-to-go of every time step. -/
def tokenReturns (row : List (PathToken K)) : List K :=
  (cumsumFrom 0 (row.map (fun token => token.reward * weight token.valid)).reverse).reverse

def wPerTimestep (exp : K → K) (row : List (PathToken K)) (rolloutIsWeights : Option (List K)) : List K :=
  let wPerTimestep := row.map (fun token => 1 - 2 * exp token.oldLogProb + token.sumPiSquared)
  match rolloutIsWeights with
  | some weights => List.zipWith (fun w rho => w * rho ^ 2) wPerTimestep weights
  | none => wPerTimestep

def wCumulative (exp : K → K) (row : List (PathToken K)) (rolloutIsWeights : Option (List K)) : List K :=
  cumsumFrom 0 (List.zipWith (fun w token => w * weight token.valid) (wPerTimestep exp row rolloutIsWeights) row)

/-- What the baselines are computed from. -/
structure Trajectory (K : Type) where
  mask : List Bool
  returns : List K
  wCumulative : List K

def trajectories (exp : K → K) (batch : PathBatch ι K count width) : Vector (Trajectory K) count :=
  Vector.ofFn (fun i =>
    let row := (batch.tokens.get i).toList
    ⟨row.map (fun token => token.valid), tokenReturns row,
      wCumulative exp row (batch.rolloutIsWeights.map (fun weights => (weights.get i).toList))⟩)

def Trajectory.responseLength (trajectory : Trajectory K) : Nat := trajectory.mask.count true

/-! ### Baselines of a group -/

/-- `sum(dim=0)` -/
def sumRows (width : Nat) (rows : List (List K)) : List K :=
  (List.range width).map (fun t => (rows.map (fun row => row.getD t 0)).sum)

/-- B_t = Σ[G_t × W_t] / Σ[W_t] -/
def baselinePerStep (width : Nat) (epsilon : K) (weighted weights : List (List K)) : List K :=
  List.zipWith (fun numerator denominator => numerator / (denominator + epsilon)) (sumRows width weighted)
    (sumRows width weights)

/-- `tensor[i] = row` -/
def setRow {α : Type} (tensor : Vector α count) (i : Fin count) (row : α) : Vector α count := tensor.set i row i.isLt

/-- Zero out the portion of the longest trajectory that extends beyond the second-longest one. -/
def zeroTail (responseLengths : Vector Nat count) (trajectoryIndices : List (Fin count))
    (baselines : Vector (List K) count) : Vector (List K) count :=
  match ((trajectoryIndices.map (fun i => responseLengths.get i)).mergeSort (fun a b => decide (a ≤ b))).reverse with
  | maxLength :: secondMaxLength :: _ =>
    match trajectoryIndices.filter (fun i => responseLengths.get i = maxLength) with
    | [longest] =>
      if maxLength > secondMaxLength then
        setRow baselines longest (Slices.fill (baselines.get longest) secondMaxLength (baselines.get longest).length 0)
      else baselines
    | _ => baselines
  | _ => baselines

/-- All rows of a group get the same baselines. -/
def assignBaselines (handleZeroTail : Bool) (responseLengths : Vector Nat count) (trajectoryIndices : List (Fin count))
    (row : List K) (baselines : Vector (List K) count) : Vector (List K) count :=
  let baselines := trajectoryIndices.foldl (fun baselines i => setRow baselines i row) baselines
  if handleZeroTail then zeroTail responseLengths trajectoryIndices baselines else baselines

/-- The rows of every prompt. -/
def promptGroups [DecidableEq ι] (index : Vector ι count) (rows : List (Fin count)) : List (ι × List (Fin count)) :=
  collect (rows.map (fun i => (index.get i, i)))

/-! ### The two versions -/

/-- One group of the first version. -/
def tokenStep (paths : Vector (Trajectory K) count) (width : Nat) (handleZeroTail : Bool) (epsilon : K)
    (baselines : Vector (List K) count) (trajectoryIndices : List (Fin count)) : Vector (List K) count :=
  -- Single trajectory - no baseline (advantage = return)
  if trajectoryIndices.length = 1 then baselines
  else
    let masked (row : List K) (i : Fin count) := List.zipWith (fun value valid => value * weight valid) row (paths.get i).mask
    let numerator := trajectoryIndices.map (fun i =>
      masked (List.zipWith (· * ·) (paths.get i).returns (paths.get i).wCumulative) i)
    let denominator := trajectoryIndices.map (fun i => masked (paths.get i).wCumulative i)
    assignBaselines handleZeroTail (paths.map Trajectory.responseLength) trajectoryIndices
      (baselinePerStep width epsilon numerator denominator) baselines

def tokenBaselines [DecidableEq ι] (paths : Vector (Trajectory K) count) (width : Nat) (index : Vector ι count) (handleZeroTail : Bool)
    (epsilon : K) : Vector (List K) count :=
  (promptGroups index (List.finRange count)).foldl
    (fun baselines group => tokenStep paths width handleZeroTail epsilon baselines group.2)
    (Vector.replicate count (List.replicate width 0))

def computeOptimalTokenBaselineAdvantage [DecidableEq ι] (exp : K → K) (batch : PathBatch ι K count width)
    (handleZeroTail : Bool) (epsilon : K) : Vector (List K) count × Vector (List K) count :=
  let paths := trajectories exp batch
  let baselines := tokenBaselines paths width batch.index handleZeroTail epsilon
  let advantages := Vector.ofFn (fun i =>
    List.zipWith (fun advantage valid => advantage * weight valid)
      (List.zipWith (· - ·) (paths.get i).returns (baselines.get i)) (paths.get i).mask)
  (advantages, paths.map Trajectory.returns)

/-- The valid places of a row, brought together and followed by zeros. -/
def compact (maxResponseLength : Nat) (mask : List Bool) (row : List K) : List K :=
  Slices.pad (Masking.select mask row) maxResponseLength

/-- One group of the second version. -/
def turnStep (allReturns allWValues : Vector (List K) count) (responseLengths : Vector Nat count)
    (maxResponseLength : Nat) (handleZeroTail : Bool) (epsilon : K)
    (baselines : Vector (List K) count) (trajectoryIndices : List (Fin count)) : Vector (List K) count :=
  match trajectoryIndices with
  -- Single trajectory - no baseline (keep original reward as advantage)
  | [i] => setRow baselines i (List.replicate maxResponseLength 0)
  | _ =>
    let weighted := trajectoryIndices.map (fun i => List.zipWith (· * ·) (allReturns.get i) (allWValues.get i))
    let weights := trajectoryIndices.map (fun i => allWValues.get i)
    assignBaselines handleZeroTail responseLengths trajectoryIndices
      (baselinePerStep maxResponseLength epsilon weighted weights) baselines

def turnBaselines [DecidableEq ι] (allReturns allWValues : Vector (List K) count) (responseLengths : Vector Nat count)
    (maxResponseLength : Nat) (index : Vector ι count) (handleZeroTail : Bool) (epsilon : K) : Vector (List K) count :=
  (promptGroups index ((List.finRange count).filter (fun i => responseLengths.get i ≠ 0))).foldl
    (fun baselines group =>
      turnStep allReturns allWValues responseLengths maxResponseLength handleZeroTail epsilon baselines group.2)
    (Vector.replicate count (List.replicate maxResponseLength 0))

def computeMultiTurnOptimalTokenBaselineAdvantage [DecidableEq ι] (exp : K → K) (batch : PathBatch ι K count width)
    (handleZeroTail : Bool) (epsilon : K) : Vector (List K) count × Vector (List K) count :=
  let paths := trajectories exp batch
  let responseLengths := paths.map Trajectory.responseLength
  let maxResponseLength := responseLengths.toList.max?.getD 0
  -- The row of a trajectory without tokens stays zero.
  let allWValues := paths.map (fun path => compact maxResponseLength path.mask path.wCumulative)
  let allReturns := paths.map (fun path => compact maxResponseLength path.mask path.returns)
  let baselines := turnBaselines allReturns allWValues responseLengths maxResponseLength batch.index handleZeroTail epsilon
  let advantages := Vector.ofFn (fun i =>
    let allAdvantages := List.zipWith (· - ·) (allReturns.get i) (baselines.get i)
    let advantages := Masking.scatter 0 (paths.get i).mask (allAdvantages.take (responseLengths.get i))
    List.zipWith (fun advantage valid => advantage * weight valid) advantages (paths.get i).mask)
  (advantages, paths.map Trajectory.returns)

end LLMFusion.CoreAlgos
