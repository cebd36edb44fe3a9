import Mathlib.Algebra.Field.Defs
import Mathlib.Algebra.Ring.Nat
import Mathlib.Algebra.Ring.Int.Defs
import Mathlib.Order.Lattice
import Mathlib.Data.List.Dedup

/-! The reward for tool calls. The names of the calls are compared as a whole, and each true call
takes the best of the predicted calls that are left. A parameter has a value of `ω`, compared as
Python compares it. -/

namespace LLMFusion.Rlla

structure Tool (ω : Type) where
  name : String
  parameters : List (String × ω)
  distinct : (parameters.map Prod.fst).Nodup

variable {K : Type} [Field K] [LinearOrder K] {ω : Type} [DecidableEq ω]

/-- `==` of two calls; the order of the parameters does not count. -/
def Tool.Same (first second : Tool ω) : Prop := first.name = second.name ∧ first.parameters.Perm second.parameters

instance : DecidableRel (Tool.Same (ω := ω)) := fun _ _ => inferInstanceAs (Decidable (_ ∧ _))

/-- `sum(min(count1[k], count2[k]) for k in count1.keys() & count2.keys())` -/
def intersection (list1 list2 : List String) : Nat :=
  ((list1.dedup.filter (· ∈ list2)).map (fun k => min (list1.count k) (list2.count k))).sum

def matchScore (list1 list2 : List String) : K :=
  if list1 = list2 then 1
  else if list1 = [] ∨ list2 = [] then 0
  else
    let maxPossible : Int := list1.length + list2.length - intersection list1 list2
    if 0 < maxPossible then (intersection list1 list2 : K) / (maxPossible : K) else 0

/-- How many parameters have the right value. -/
def correctnessScore (gtParams pdParams : List (String × ω)) : Nat :=
  gtParams.countP (fun parameter => pdParams.lookup parameter.1 = some parameter.2)

def totalScore (gtTool pdTool : Tool ω) : K :=
  matchScore (gtTool.parameters.map Prod.fst) (pdTool.parameters.map Prod.fst) +
    correctnessScore gtTool.parameters pdTool.parameters

/-- The best score so far, and the predicted call that has it. -/
structure Best (K : Type) where
  score : K
  index : Option Nat

/-- The body of the loop over the predicted calls. -/
def consider (gtTool : Tool ω) (used : List Nat) (best : Best K) (pdTool : Tool ω × Nat) : Best K :=
  if pdTool.2 ∈ used ∨ pdTool.1.name ≠ gtTool.name then best
  else if best.score < totalScore gtTool pdTool.1 then ⟨totalScore gtTool pdTool.1, some pdTool.2⟩
  else best

/-- Find the best matching unused `pd_tool`. -/
def bestMatch (gtTool : Tool ω) (used : List Nat) (pdTools : List (Tool ω)) : Best K :=
  pdTools.zipIdx.foldl (consider gtTool used) ⟨0, none⟩

structure Tally (K : Type) where
  score : K
  localMaxPossible : K
  used : List Nat

/-- The body of the loop over the true calls. -/
def tally (pdTools : List (Tool ω)) (state : Tally K) (gtTool : Tool ω) : Tally K :=
  let localMaxPossible := state.localMaxPossible + (1 + gtTool.parameters.length)
  let best : Best K := bestMatch gtTool state.used pdTools
  match best.index with
  | some index => ⟨state.score + best.score, localMaxPossible, index :: state.used⟩
  | none => ⟨state.score, localMaxPossible, state.used⟩

def computeToolCallReward (gtTools pdTools : List (Tool ω)) (maxPossibleReward minPossibleReward : K) : K :=
  if List.Forall₂ Tool.Same gtTools pdTools then maxPossibleReward
  else
    let score : K := matchScore (gtTools.map Tool.name) (pdTools.map Tool.name)
    let result := gtTools.foldl (tally pdTools) ⟨score, 1, []⟩
    (maxPossibleReward - minPossibleReward) * result.score / result.localMaxPossible + minPossibleReward

end LLMFusion.Rlla
