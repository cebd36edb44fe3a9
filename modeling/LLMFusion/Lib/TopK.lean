import Mathlib.Data.List.Perm.Subperm
import Mathlib.Data.List.Sort
import Mathlib.Algebra.Order.BigOperators.Group.List
import Mathlib.Algebra.Order.Ring.Nat

/-! The largest items of a list. An item is among them when few enough items are above it, so
that the largest of the largest of some shards are the largest of all. -/

namespace TopK
open List

universe u v
variable {α : Type u} {κ : Type v} [LinearOrder κ] (value : α → κ)

/-- The items with the largest values, from the largest on. -/
def largest (count : Nat) (items : List α) : List α :=
  (items.mergeSort (fun first second => decide (value second ≤ value first))).take count

/-- The number of items above a bound. -/
def above (items : List α) (bound : κ) : Nat := items.countP (fun item => decide (bound < value item))

section Sorted
variable {items : List α} {count : Nat}

theorem sorted_perm (items : List α) :
    (items.mergeSort (fun first second => decide (value second ≤ value first))).Perm items := mergeSort_perm _ _

theorem sorted_pairwise (items : List α) : (items.mergeSort (fun first second => decide (value second ≤ value first))).Pairwise
    (fun first second => value second ≤ value first) := by
  have sorted := @pairwise_mergeSort _ (fun first second : α => decide (value second ≤ value first))
    (fun a b c first second => by
      simp only [decide_eq_true_eq] at first second ⊢
      exact le_trans second first)
    (fun a b => by simpa using le_total (value b) (value a)) items
  exact sorted.imp (fun related => of_decide_eq_true related)

theorem largest_length (items : List α) : (largest value count items).length = min count items.length := by
  rw [largest, length_take, length_mergeSort]

theorem largest_subperm (items : List α) : (largest value count items).Subperm items :=
  (take_sublist _ _).subperm.trans (sorted_perm value items).subperm

theorem largest_min (items : List α) : largest value (min count items.length) items = largest value count items := by
  rw [largest, largest, ← length_mergeSort items, ← take_eq_take_min]

theorem largest_map {β : Type*} {value' : β → κ} {f : α → β} (keeps : ∀ item, value' (f item) = value item) (items : List α) :
    (largest value count items).map f = largest value' count (items.map f) := by
  rw [largest, largest, map_take, map_mergeSort]
  intro first _ second _
  rw [keeps, keeps]

theorem above_largest (items : List α) (bound : κ) : above value (largest value count items) bound = min count (above value items bound) := by
  have sorted := sorted_pairwise value items
  rw [above, above, largest, ← (sorted_perm value items).countP_eq]
  generalize items.mergeSort (fun first second => decide (value second ≤ value first)) = sorting at sorted
  induction sorting generalizing count with
  | nil => simp
  | cons item rest ih =>
    rw [pairwise_cons] at sorted
    cases count with
    | zero => simp
    | succ count =>
      rw [take_succ_cons, countP_cons, countP_cons, ih sorted.2]
      by_cases exceeds : bound < value item
      · simp only [exceeds, decide_true, if_true]
        omega
      · have none_over : rest.countP (fun item => decide (bound < value item)) = 0 := by
          rw [countP_eq_zero]
          intro other member
          simp only [decide_eq_true_eq, not_lt]
          exact le_trans (sorted.1 other member) (not_lt.mp exceeds)
        simp [exceeds, none_over]

theorem mem_largest (distinct : (items.map value).Nodup) {item : α} :
    item ∈ largest value count items ↔ item ∈ items ∧ above value items (value item) < count := by
  have sorted := sorted_pairwise value items
  have distinct' := ((sorted_perm value items).map value).nodup_iff.mpr distinct
  rw [above, largest, ← (sorted_perm value items).countP_eq, ← (sorted_perm value items).mem_iff]
  generalize items.mergeSort (fun first second => decide (value second ≤ value first)) = sorting at sorted distinct'
  clear distinct
  induction sorting generalizing count with
  | nil => simp
  | cons first rest ih =>
    rw [pairwise_cons] at sorted
    rw [map_cons, nodup_cons] at distinct'
    cases count with
    | zero => simp
    | succ count =>
      have later : item ∈ rest.take count ↔ item ∈ rest ∧ rest.countP (fun other => decide (value item < value other)) < count :=
        ih sorted.2 distinct'.2
      rw [take_succ_cons, mem_cons, later, mem_cons, countP_cons]
      by_cases same : item = first
      · subst same
        have none_over : rest.countP (fun other => decide (value item < value other)) = 0 := by
          rw [countP_eq_zero]
          intro other member
          simpa using sorted.1 other member
        simp [none_over]
      · by_cases member : item ∈ rest
        · have below : value item < value first := by
            apply lt_of_le_of_ne (sorted.1 item member)
            intro equal
            exact distinct'.1 (equal ▸ mem_map_of_mem member)
          simp [same, member, below]
        · simp [same, member]

end Sorted

/-! ### Shards -/

theorem sum_min_lt {counts : List Nat} {count : Nat} (few : (counts.map (min count)).sum < count) :
    (counts.map (min count)).sum = counts.sum := by
  induction counts with
  | nil => rfl
  | cons first rest ih =>
    rw [map_cons, sum_cons] at few ⊢
    rw [sum_cons, ih (by omega)]
    omega

theorem sum_min_le (counts : List Nat) (count : Nat) : (counts.map (min count)).sum ≤ counts.sum := by
  induction counts with
  | nil => exact Nat.le_refl _
  | cons first rest ih =>
    rw [map_cons, sum_cons, sum_cons]
    omega

section Shards
variable {shards : List (List α)} {count : Nat}

theorem above_flatten (shards : List (List α)) (bound : κ) :
    above value shards.flatten bound = (shards.map (fun shard => above value shard bound)).sum := by
  rw [above, countP_flatten]
  rfl

theorem above_candidates (shards : List (List α)) (bound : κ) : above value (shards.flatMap (largest value count)) bound =
    ((shards.map (fun shard => above value shard bound)).map (min count)).sum := by
  rw [flatMap_def, above_flatten, map_map, map_map]
  exact congrArg sum (map_congr_left (fun shard _ => above_largest value shard bound))

theorem candidates_subperm (shards : List (List α)) : (shards.flatMap (largest value count)).Subperm shards.flatten := by
  induction shards with
  | nil => exact List.Subperm.refl _
  | cons shard shards ih =>
    rw [flatMap_cons, flatten_cons]
    exact (largest_subperm value shard).append ih

theorem candidates_distinct (distinct : (shards.flatten.map value).Nodup) :
    ((shards.flatMap (largest value count)).map value).Nodup := by
  obtain ⟨chosen, permuted, sublist⟩ := @candidates_subperm _ _ _ value count shards
  exact (permuted.map value).nodup_iff.mp ((sublist.map value).nodup distinct)

theorem mem_largest_candidates (distinct : (shards.flatten.map value).Nodup) {item : α} :
    item ∈ largest value count (shards.flatMap (largest value count)) ↔ item ∈ largest value count shards.flatten := by
  rw [mem_largest value (candidates_distinct value distinct), mem_largest value distinct, above_candidates, above_flatten]
  constructor
  · rintro ⟨member, few⟩
    obtain ⟨shard, present, chosen⟩ := mem_flatMap.mp member
    rw [sum_min_lt few] at few
    exact ⟨mem_flatten_of_mem present ((largest_subperm value shard).subset chosen), few⟩
  · rintro ⟨member, few⟩
    obtain ⟨shard, present, inside⟩ := mem_flatten.mp member
    refine ⟨mem_flatMap.mpr ⟨shard, present, ?_⟩, Nat.lt_of_le_of_lt (sum_min_le _ _) few⟩
    have distinct' : (shard.map value).Nodup := ((sublist_flatten_of_mem present).map value).nodup distinct
    rw [mem_largest value distinct']
    refine ⟨inside, Nat.lt_of_le_of_lt ?_ few⟩
    exact le_sum_of_mem (mem_map_of_mem present)

end Shards

end TopK
