import LLMFusion.SeqlenBalancing
import LLMFusion.Lib.Fallible

/-! The largest differencing method partitions its items. Nothing here depends on
the order in which the heap returns the states: the merge loop is one of the
reductions of the pool, and the facts below hold of every reduction. -/

namespace LLMFusion.SeqlenBalancing.KarmarkarKarp
open List
open Sorting Differencing

@[simp] theorem Set.merge_items (set other : Set) : (set.merge other).items = set.items ++ other.items := by
  have added : ∀ (items : List (Nat × Nat)) (start : Set),
      (items.foldl (fun set item => set.add item.1 item.2) start).items = start.items ++ items := by
    intro items
    induction items with
    | nil => simp
    | cons item items ih =>
      intro start
      rw [foldl_cons, ih]
      simp [Set.add]
  exact added other.items set

@[simp] theorem Set.merge_sum (set other : Set) : (set.merge other).sum = set.sum + other.sum := by
  rw [Set.sum_items, Set.sum_items set, Set.sum_items other, Set.merge_items, map_append,
    sum_append]

def Set.filled (set : Set) : Bool := !set.items.isEmpty

theorem Set.filled_merge (set other : Set) : (set.merge other).filled = (set.filled || other.filled) := by
  cases first : set.items <;> cases second : other.items <;> simp [Set.filled, first, second]

theorem Set.sum_le_of_less {set other : Set} (notLess : set.less other = false) : other.sum ≤ set.sum := by
  by_cases same : set.sum = other.sum
  · exact Nat.le_of_eq same.symm
  · simpa [Set.less, byKey, same] using notLess

/-- An empty set is smaller than every set that holds an item, also when all its
items are zero: the number of items decides what the sums do not. -/
theorem Set.filled_of_less {set other : Set} (notLess : set.less other = false)
    (filled : other.filled = true) : set.filled = true := by
  cases items : set.items with
  | cons _ _ => simp [Set.filled, items]
  | nil =>
    have zero : set.sum = 0 := by simp [Set.sum_items, items]
    have bound := Set.sum_le_of_less notLess
    have same : set.sum = other.sum := by omega
    cases otherItems : other.items with
    | nil => simp [Set.filled, otherItems] at filled
    | cons _ _ => simp [Set.less, byKey, same, items, otherItems] at notLess

namespace State
variable {k : Nat}

theorem frontLoaded (state : State k) : FrontLoaded Set.filled state.sets :=
  state.decreasing.imp Set.filled_of_less

theorem ofSets_perm (sets : List Set) (count : sets.length = k) : (ofSets sets count).sets.Perm sets :=
  sortedReverse_perm _ _

theorem merge_perm (state other : State k) : (state.merge other).sets.Perm (fold Set.merge state.sets other.sets) :=
  ofSets_perm _ _

def contents (state : State k) : Multiset (Nat × Nat) :=
  (state.sets.map (fun set => (set.items : Multiset (Nat × Nat)))).sum

theorem contents_merge (state other : State k) : (state.merge other).contents = state.contents + other.contents := by
  have adds := sum_fold (fun set : Set => (set.items : Multiset (Nat × Nat)))
    (fun a b => by rw [Set.merge_items, Multiset.coe_add]) (other.count.trans state.count.symm)
  exact ((merge_perm state other).map _).sum_eq.trans adds

def Spread (state : State k) : Prop :=
  min state.contents.card k ≤ state.sets.countP Set.filled

theorem spread_merge {state other : State k} (first : state.Spread) (second : other.Spread) :
    (state.merge other).Spread := by
  have folded := countP_fold Set.filled_merge (other.count.trans state.count.symm)
    state.frontLoaded other.frontLoaded
  rw [state.count, ← (merge_perm state other).countP_eq] at folded
  simp only [Spread, contents_merge, Multiset.card_add] at *
  omega

def Level (state : State k) : Prop :=
  ∃ size, ∀ set ∈ state.sets, set.items.length = size

theorem level_merge {state other : State k} (first : state.Level) (second : other.Level) : (state.merge other).Level := by
  obtain ⟨size, level⟩ := first
  obtain ⟨size', level'⟩ := second
  refine ⟨size + size', ?_⟩
  intro set member
  have same := other.count.trans state.count.symm
  obtain ⟨index, inside, rfl⟩ := mem_iff_getElem.mp ((merge_perm state other).mem_iff.mp member)
  have left : index < state.sets.length := by simpa [same] using inside
  rw [getElem_fold _ index inside left (by omega), Set.merge_items, length_append,
    level _ (getElem_mem _), level' _ (getElem_mem _)]

def sums (state : State k) : List Nat := state.sets.map Set.sum

theorem sums_descending (state : State k) : state.sums.Pairwise (fun a b => b ≤ a) :=
  pairwise_map.mpr (state.decreasing.imp Set.sum_le_of_less)

theorem within_merge {bound : Nat} {state other : State k} (first : Within bound state.sums)
    (second : Within bound other.sums) : Within bound (state.merge other).sums := by
  have same : other.sums.length = state.sums.length := by
    simp [sums, other.count, state.count]
  apply (first.fold second same state.sums_descending other.sums_descending).perm
  have mapped := (merge_perm state other).map Set.sum
  have folded : (fold Set.merge state.sets other.sets).map Set.sum =
      fold (fun a b => a + b) state.sums other.sums := by
    simp only [fold, sums, map_zipWith, Set.merge_sum, ← map_reverse, zipWith_map]
  rwa [folded] at mapped

theorem ofItems_spec {items : List (Nat × Nat)} (shape : items.length = 1 ∨ items.length = k)
    (inside : items.length ≤ k) : ∃ state, ofItems items k = .ok state ∧
      state.sets.Perm (items.map (fun item => Set.empty.add item.1 item.2) ++
        replicate (k - items.length) Set.empty) := by
  have allowed : ¬ (items.length ≠ 1 ∧ items.length ≠ k) := by omega
  simp only [ofItems, allowed, inside, ite_false, dite_true]
  exact ⟨_, rfl, ofSets_perm _ _⟩

/-- What the merge loop starts from: a state holding exactly these items, one a
set, with every sum at most the largest of their values. -/
structure Holds (items : List (Nat × Nat)) (state : State k) : Prop where
  contents : state.contents = (items : Multiset (Nat × Nat))
  spread : state.Spread
  level : items.length = k → state.Level
  within : ∀ bound, (∀ item ∈ items, item.2 ≤ bound) → Within bound state.sums

theorem ofItems_holds {items : List (Nat × Nat)} (shape : items.length = 1 ∨ items.length = k)
    (inside : items.length ≤ k) : ∃ state, ofItems items k = .ok state ∧ Holds items state := by
  obtain ⟨state, built, perm⟩ := ofItems_spec shape inside
  have contents : state.contents = (items : Multiset (Nat × Nat)) := by
    have zeros : ∀ count, ((replicate count Set.empty).map
        (fun set => (set.items : Multiset (Nat × Nat)))).sum = 0 := by
      intro count
      induction count with
      | zero => rfl
      | succ count ih => simp only [replicate_succ, map_cons, sum_cons, ih]; rfl
    have singles : ∀ items : List (Nat × Nat), ((items.map (fun item => Set.empty.add item.1 item.2)).map
        (fun set => (set.items : Multiset (Nat × Nat)))).sum = (items : Multiset (Nat × Nat)) := by
      intro items
      induction items with
      | nil => rfl
      | cons item items ih => simp only [map_cons, sum_cons, ih]; rfl
    rw [State.contents, (perm.map _).sum_eq, map_append, sum_append, zeros, singles, add_zero]
  refine ⟨state, built, contents, ?_, ?_, ?_⟩
  · have filled : ∀ items : List (Nat × Nat),
        (items.map (fun item => Set.empty.add item.1 item.2)).countP Set.filled = items.length := by
      intro items
      simp [Set.filled, Set.add, Set.empty, countP_map, Function.comp_def]
    rw [Spread, contents, perm.countP_eq, countP_append, filled, Multiset.coe_card]
    omega
  · intro full
    refine ⟨1, ?_⟩
    intro set member
    have member := perm.mem_iff.mp member
    simp only [full, Nat.sub_self, replicate_zero, append_nil, mem_map] at member
    obtain ⟨item, _, rfl⟩ := member
    rfl
  · intro bound bounded sum member other _
    obtain ⟨set, holds, rfl⟩ := mem_map.mp member
    rcases mem_append.mp (perm.mem_iff.mp holds) with single | blank
    · obtain ⟨item, inside, rfl⟩ := mem_map.mp single
      have := bounded item inside
      simp only [Set.add, Set.empty]
      omega
    · rw [(mem_replicate.mp blank).2]
      exact Nat.zero_le _

end State

theorem mergeStates_reduces {k : Nat} (fuel : Nat) (statesPq : List (State k))
    (nonempty : statesPq ≠ []) (enough : statesPq.length ≤ fuel) :
    ∃ final, mergeStates fuel statesPq = [final] ∧ Reduces State.merge statesPq final := by
  induction fuel generalizing statesPq with
  | zero => exact absurd (length_eq_zero_iff.mp (by omega)) nonempty
  | succ fuel ih =>
    obtain ⟨state0, others, popped⟩ := popLeast_isSome State.less nonempty
    have perm := popLeast_perm popped
    simp only [mergeStates, popped]
    by_cases last : others = []
    · subst others
      have single := perm_singleton.mp perm.symm
      subst statesPq
      exact ⟨state0, rfl, .single state0⟩
    · obtain ⟨state1, rest, popped'⟩ := popLeast_isSome State.less last
      have perm' := popLeast_perm popped'
      have size := perm.length_eq
      have size' := perm'.length_eq
      simp only [length_cons] at size size'
      simp only [popped']
      obtain ⟨final, ended, reduces⟩ := ih (state0.merge state1 :: rest) (by simp)
        (by simp only [length_cons]; omega)
      exact ⟨final, ended, .step ((perm'.cons state0).trans perm) reduces⟩

end LLMFusion.SeqlenBalancing.KarmarkarKarp
