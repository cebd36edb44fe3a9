import Mathlib
import LLMFusion.Lib.Sorting
import LLMFusion.Lib.Differencing

/-! Sequence-length balancing and dynamic micro-batches. Lengths and workloads are
natural numbers; every parameter that is a Python integer is an `Int`, so that
floor division and a division by zero are those of the source. An assertion or an
exception is an error of the `Except` result. -/

namespace LLMFusion.SeqlenBalancing
open Sorting Differencing

universe u v w

/-- The assertions of the balancing functions, with the values their messages
report, and the exceptions of the Python operations they use. -/
inductive Failure where
  | itemCount (items kPartitions : Nat)
  | unequalSizes (items kPartitions : Nat)
  | partitionSize (size kPartitions items : Nat)
  | tooFewItems (items kPartitions : Nat)
  | partitionCount (partitions kPartitions : Nat)
  | emptyPartition (index : Nat)
  | seenIndices
  | maxTokenLen (maxTokenLen : Int) (maxSeqLen : Nat)
  | forceGroupSize (batchSize : Nat) (forceGroupSize : Int)
  | numMicroBatches (numMicroBatches numGroups : Int)
  | restoredLength (indices batchSize : Nat)
  | columnLength (key : String) (length batchSize : Nat)
  | indexError
  | valueError
  | zeroDivision
  deriving DecidableEq, Repr

namespace KarmarkarKarp

/-- A set of items `(idx, val)` with the sum of their values. -/
structure Set where
  items : List (Nat × Nat)
  sum : Nat
  sum_items : sum = (items.map Prod.snd).sum

def Set.empty : Set := ⟨[], 0, rfl⟩

def Set.add (set : Set) (idx val : Nat) : Set :=
  ⟨set.items ++ [(idx, val)], set.sum + val, by simp [set.sum_items]⟩

def Set.merge (set other : Set) : Set :=
  other.items.foldl (fun set item => set.add item.1 item.2) set

/-- Python's comparison of two pairs of integers. -/
def pairLess : Nat × Nat → Nat × Nat → Bool :=
  byKey Prod.fst (byKey Prod.snd (fun _ _ => false))

/-- `Set.__lt__`: by sum, then by number of items, then by the items. -/
def Set.less : Set → Set → Bool :=
  byKey Set.sum (byKey (fun set => set.items.length)
    (fun set other => lexLess pairLess set.items other.items))

theorem pairLess_weak : Weak pairLess :=
  Weak.byKey (Weak.byKey ⟨fun _ => rfl, fun _ _ => rfl⟩ _) _

theorem pairLess_total {a b : Nat × Nat} (notLess : pairLess a b = false)
    (notGreater : pairLess b a = false) : a = b := by
  obtain ⟨a, x⟩ := a
  obtain ⟨b, y⟩ := b
  simp only [pairLess, byKey] at notLess notGreater
  grind

theorem Set.less_weak : Weak Set.less :=
  Weak.byKey (Weak.byKey (by
    have items := Weak.lexLess pairLess_weak pairLess_total
    exact ⟨fun smaller => items.asymm smaller, fun first second => items.trans first second⟩) _) _

/-- `k` sets, always in decreasing order. -/
structure State (k : Nat) where
  sets : List Set
  count : sets.length = k
  decreasing : sets.Pairwise (fun a b => a.less b = false)

def State.ofSets {k : Nat} (sets : List Set) (count : sets.length = k) : State k :=
  ⟨sortedReverse Set.less sets, by rw [(sortedReverse_perm _ _).length_eq, count],
    Set.less_weak.sortedReverse_pairwise sets⟩

/-- `State.__init__`: the items fill the first sets, the other sets are empty. -/
def State.ofItems (items : List (Nat × Nat)) (k : Nat) : Except Failure (State k) :=
  if items.length ≠ 1 ∧ items.length ≠ k then .error (.itemCount items.length k)
  else if inside : items.length ≤ k then
    .ok (.ofSets (items.map (fun item => Set.empty.add item.1 item.2) ++
      List.replicate (k - items.length) Set.empty) (by simp; omega))
  else .error .indexError

def State.getPartitions {k : Nat} (state : State k) : List (List Nat) :=
  state.sets.map (fun set => set.items.map Prod.fst)

/-- Set `i` of the first state takes set `k - 1 - i` of the other. -/
def State.merge {k : Nat} (state other : State k) : State k :=
  .ofSets (fold Set.merge state.sets other.sets)
    (by rw [fold_length _ (other.count.trans state.count.symm), state.count])

def State.spread {k : Nat} (state : State k) : Nat :=
  (state.sets.headD .empty).sum - (state.sets.getLastD .empty).sum

/-- `State.__lt__`: the largest spread is popped first, then the largest set. -/
def State.less {k : Nat} (state other : State k) : Bool :=
  if state.spread ≠ other.spread then other.spread < state.spread
  else (other.sets.headD .empty).less (state.sets.headD .empty)

/-- The loop `while len(states_pq) > 1`: pop two states and push their merge.
Every iteration removes one state, so the number of states is enough fuel. -/
def mergeStates {k : Nat} : Nat → List (State k) → List (State k)
  | 0, statesPq => statesPq
  | fuel + 1, statesPq => match popLeast State.less statesPq with
    | none => statesPq
    | some (state0, others) => match popLeast State.less others with
      | none => statesPq
      | some (state1, rest) => mergeStates fuel (state0.merge state1 :: rest)

end KarmarkarKarp

open KarmarkarKarp

/-- The states pushed on the heap before the merge loop. -/
def initialStates (seqlenList : List Nat) (kPartitions : Nat) (equalSize : Bool) :
    Except Failure (List (State kPartitions)) :=
  let sortedSeqlenList := sorted pairLess seqlenList.zipIdx
  if equalSize then
    if kPartitions = 0 then .error .zeroDivision
    else if seqlenList.length % kPartitions ≠ 0 then
      .error (.unequalSizes seqlenList.length kPartitions)
    else ((List.range (seqlenList.length / kPartitions)).map (fun offset =>
      ((sortedSeqlenList.drop (offset * kPartitions)).take kPartitions).map Prod.swap)).mapM
        (fun items => State.ofItems items kPartitions)
  else sortedSeqlenList.mapM (fun item => State.ofItems [item.swap] kPartitions)

def karmarkarKarp (seqlenList : List Nat) (kPartitions : Nat) (equalSize : Bool) :
    Except Failure (List (List Nat)) :=
  match initialStates seqlenList kPartitions equalSize with
  | .error failure => .error failure
  | .ok statesPq => match mergeStates statesPq.length statesPq with
    | [] => .error .indexError
    | finalState :: _ =>
      let partitions := finalState.getPartitions
      match partitions.find? (fun partition =>
        equalSize && partition.length * kPartitions ≠ seqlenList.length) with
      | some partition => .error (.partitionSize partition.length kPartitions seqlenList.length)
      | none => .ok partitions

/-- `_check_and_sort_partitions` for `items` items. -/
def checkAndSortPartitions (items kPartitions : Nat) (partitions : List (List Nat)) :
    Except Failure (List (List Nat)) :=
  if partitions.length ≠ kPartitions then .error (.partitionCount partitions.length kPartitions)
  else match partitions.findIdx? (fun partition => partition.length = 0) with
    | some index => .error (.emptyPartition index)
    | none =>
      if (∀ idx ∈ partitions.flatten, idx < items) ∧ ∀ idx < items, idx ∈ partitions.flatten then
        .ok (partitions.map (sorted (fun a b => a < b)))
      else .error .seenIndices

def getSeqlenBalancedPartitions (seqlenList : List Nat) (kPartitions : Nat) (equalSize : Bool) :
    Except Failure (List (List Nat)) :=
  if seqlenList.length < kPartitions then .error (.tooFewItems seqlenList.length kPartitions)
  else match karmarkarKarp seqlenList kPartitions equalSize with
    | .error failure => .error failure
    | .ok partitions => checkAndSortPartitions seqlenList.length kPartitions partitions

end LLMFusion.SeqlenBalancing
