import LLMFusion.OptimalTokenBaseline
import LLMFusion.Proofs.TokenAdvantage

/-! The two versions of the optimal token baseline, on responses that start at the first place.
They take the same baselines off the returns, except where an empty response gives the only other
one of its group a baseline in one of them. -/

namespace LLMFusion.CoreAlgos
open List hiding Vector
open TorchFunctional Grouping

variable {ι K : Type} [Field K] {count width : Nat}

/-! ### Rows of a group -/

theorem setRow_self {α : Type} (tensor : Vector α count) (i : Fin count) (row : α) : (setRow tensor i row).get i = row := by
  simp [setRow, Vector.get_eq_getElem]

theorem setRow_other {α : Type} (tensor : Vector α count) {i j : Fin count} (different : j ≠ i) (row : α) :
    (setRow tensor j row).get i = tensor.get i := by
  have different : j.val ≠ i.val := Fin.val_ne_of_ne different
  simp [setRow, Vector.get_eq_getElem, different]

theorem assigned_get {α : Type} (trajectoryIndices : List (Fin count)) (row : α) (baselines : Vector α count)
    (i : Fin count) :
    (trajectoryIndices.foldl (fun baselines i => setRow baselines i row) baselines).get i =
      if i ∈ trajectoryIndices then row else baselines.get i := by
  induction trajectoryIndices generalizing baselines with
  | nil => simp
  | cons j rest ih =>
    rw [foldl_cons, ih]
    by_cases later : i ∈ rest
    · rw [if_pos later, if_pos (mem_cons_of_mem _ later)]
    · rw [if_neg later]
      by_cases same : i = j
      · subst same
        rw [setRow_self, if_pos mem_cons_self]
      · rw [setRow_other _ (fun equal => same equal.symm), if_neg (fun member => (mem_cons.mp member).elim same later)]

def tailStart (responseLengths : Vector Nat count) (trajectoryIndices : List (Fin count)) (i : Fin count) : Option Nat :=
  match ((trajectoryIndices.map (fun i => responseLengths.get i)).mergeSort (fun a b => decide (a ≤ b))).reverse with
  | maxLength :: secondMaxLength :: _ =>
    if trajectoryIndices.filter (fun i => responseLengths.get i = maxLength) = [i] ∧ secondMaxLength < maxLength then
      some secondMaxLength
    else none
  | _ => none

def zeroFrom (row : List K) : Option Nat → List K
  | some start => Slices.fill row start row.length 0
  | none => row

theorem zeroTail_get (responseLengths : Vector Nat count) (trajectoryIndices : List (Fin count))
    (baselines : Vector (List K) count) (i : Fin count) : (zeroTail responseLengths trajectoryIndices baselines).get i =
      zeroFrom (baselines.get i) (tailStart responseLengths trajectoryIndices i) := by
  rw [zeroTail, tailStart]
  generalize ((trajectoryIndices.map (fun i => responseLengths.get i)).mergeSort (fun a b => decide (a ≤ b))).reverse = sorted
  rcases sorted with _ | ⟨maxLength, _ | ⟨secondMaxLength, _⟩⟩
  · rfl
  · rfl
  · dsimp only
    generalize found : trajectoryIndices.filter (fun i => responseLengths.get i = maxLength) = longest
    rcases longest with _ | ⟨j, _ | ⟨_, _⟩⟩
    · simp [zeroFrom]
    · by_cases longer : secondMaxLength < maxLength
      · by_cases same : j = i
        · subst same
          simp [longer, zeroFrom, setRow_self]
        · simp [longer, same, zeroFrom, setRow_other _ same]
      · simp [longer, zeroFrom]
    · simp [zeroFrom]

variable {trajectoryIndices : List (Fin count)}

theorem tailStart_outside {responseLengths : Vector Nat count} {i : Fin count}
    (outside : i ∉ trajectoryIndices) : tailStart responseLengths trajectoryIndices i = none := by
  have different (maxLength : Nat) : trajectoryIndices.filter (fun i => responseLengths.get i = maxLength) ≠ [i] := by
    intro single
    exact outside (mem_of_mem_filter (single ▸ mem_singleton_self i))
  rw [tailStart]
  split
  · exact if_neg (fun both => different _ both.1)
  · rfl

def groupRow (handleZeroTail : Bool) (responseLengths : Vector Nat count) (trajectoryIndices : List (Fin count))
    (row : List K) (i : Fin count) : List K :=
  if handleZeroTail then zeroFrom row (tailStart responseLengths trajectoryIndices i) else row

theorem assignBaselines_get (handleZeroTail : Bool) (responseLengths : Vector Nat count)
    (trajectoryIndices : List (Fin count)) (row : List K) (baselines : Vector (List K) count) (i : Fin count) :
    (assignBaselines handleZeroTail responseLengths trajectoryIndices row baselines).get i =
      if i ∈ trajectoryIndices then groupRow handleZeroTail responseLengths trajectoryIndices row i else baselines.get i := by
  cases handleZeroTail with
  | false => exact assigned_get trajectoryIndices row baselines i
  | true =>
    simp only [assignBaselines, if_true, zeroTail_get, assigned_get, groupRow]
    by_cases inside : i ∈ trajectoryIndices
    · rw [if_pos inside, if_pos inside]
    · rw [if_neg inside, if_neg inside, tailStart_outside inside, zeroFrom]

/-! ### Groups -/

section Groups
variable [DecidableEq ι]

theorem promptGroups_members (index : Vector ι count) (rows : List (Fin count)) (label : ι) :
    members (rows.map (fun i => (index.get i, i))) label = rows.filter (fun i => index.get i = label) := by
  induction rows with
  | nil => rfl
  | cons i rows ih =>
    rw [map_cons, members_cons, ih, filter_cons]
    by_cases same : index.get i = label
    · simp [same]
    · rw [if_neg same, if_neg (by simpa using same)]

def peers (index : Vector ι count) (rows : List (Fin count)) (i : Fin count) : List (Fin count) :=
  rows.filter (fun j => index.get j = index.get i)

theorem foldl_promptGroups {α : Type} {step : Vector α count → List (Fin count) → Vector α count} {i : Fin count}
    {effect : List (Fin count) → α → α} (inside : ∀ baselines trajectoryIndices, i ∈ trajectoryIndices →
      (step baselines trajectoryIndices).get i = effect trajectoryIndices (baselines.get i))
    (outside : ∀ baselines trajectoryIndices, i ∉ trajectoryIndices →
      (step baselines trajectoryIndices).get i = baselines.get i)
    (index : Vector ι count) {rows : List (Fin count)} (member : i ∈ rows) (baselines : Vector α count) :
    ((promptGroups index rows).foldl (fun baselines group => step baselines group.2) baselines).get i =
      effect (peers index rows i) (baselines.get i) := by
  apply @foldl_collect _ _ _ _ _ step (fun baselines => baselines.get i) (effect (peers index rows i))
    (rows.map (fun i => (index.get i, i))) (index.get i)
  · intro state
    rw [promptGroups_members]
    exact inside state _ (mem_filter.mpr ⟨member, by simp⟩)
  · intro state other different
    rw [promptGroups_members]
    apply outside
    intro here
    exact different (of_decide_eq_true (mem_filter.mp here).2).symm
  · rw [map_map]
    exact mem_map_of_mem member

end Groups

/-! ### Masks of ones and then zeros -/

variable {row : List K}

theorem masked_front {ones zeros : Nat} (whole : row.length = ones + zeros) :
    zipWith (fun value valid => value * weight valid) row
      (replicate ones true ++ replicate zeros false) = row.take ones ++ replicate zeros 0 := by
  induction row generalizing ones zeros with
  | nil =>
    have none : zeros = 0 := by rw [length_nil] at whole; omega
    rw [none]
    simp
  | cons value row ih =>
    cases ones with
    | succ ones =>
      have rest : row.length = ones + zeros := by rw [length_cons] at whole; omega
      rw [replicate_succ, cons_append, zipWith_cons_cons, ih rest, take_succ_cons, cons_append,
        weight_true, mul_one]
    | zero =>
      cases zeros with
      | zero => cases whole
      | succ zeros =>
        have rest : row.length = 0 + zeros := by rw [length_cons] at whole; omega
        have tail := ih rest
        rw [replicate_zero, nil_append, take_zero, nil_append] at tail ⊢
        rw [replicate_succ, zipWith_cons_cons, tail, weight_false, mul_zero, replicate_succ]

theorem front_getD {ones : Nat} (inside : ones ≤ row.length) (zeros t : Nat) :
    (row.take ones ++ replicate zeros 0).getD t 0 = if t < ones then row.getD t 0 else 0 := by
  have front : (row.take ones).length = ones := length_take_of_le inside
  rw [getD_eq_getElem?_getD, getD_eq_getElem?_getD]
  by_cases valid : t < ones
  · rw [if_pos valid, getElem?_append_left (by omega), getElem?_take_of_lt valid]
  · rw [if_neg valid, getElem?_append_right (by omega), getElem?_replicate]
    split <;> rfl

theorem product_getD {row row' : List K} (same : row.length = row'.length) (t : Nat) :
    (zipWith (· * ·) row row').getD t 0 = row.getD t 0 * row'.getD t 0 := by
  rw [getD_eq_getElem?_getD, getD_eq_getElem?_getD, getD_eq_getElem?_getD, getElem?_zipWith]
  by_cases inside : t < row.length
  · rw [getElem?_eq_getElem inside, getElem?_eq_getElem (same ▸ inside)]
    rfl
  · rw [getElem?_eq_none (by omega), getElem?_eq_none (by omega)]
    simp

/-- What the valid places of a trajectory hold, when they come first. -/
structure Trajectory.Prefix (path : Trajectory K) (width : Nat) : Prop where
  returns : path.returns.length = width
  wCumulative : path.wCumulative.length = width
  bound : path.responseLength ≤ width
  mask : path.mask = List.replicate path.responseLength true ++ List.replicate (width - path.responseLength) false

namespace Trajectory.Prefix
variable {path : Trajectory K} (first : path.Prefix width)
include first

theorem masked (whole : row.length = width) (t : Nat) :
    (zipWith (fun value valid => value * weight valid) row path.mask).getD t 0 =
      if t < path.responseLength then row.getD t 0 else 0 := by
  rw [first.mask, masked_front (whole.trans (Nat.add_sub_of_le first.bound).symm)]
  exact front_getD (whole ▸ first.bound) _ t

theorem compact_row (size : Nat) (row : List K) :
    compact size path.mask row = Slices.pad (row.take path.responseLength) size := by
  rw [compact, first.mask, Masking.select_front]

theorem compacted (whole : row.length = width) (size t : Nat) :
    (compact size path.mask row).getD t 0 = if t < path.responseLength then row.getD t 0 else 0 := by
  rw [first.compact_row, Slices.pad]
  exact front_getD (whole ▸ first.bound) _ t

end Trajectory.Prefix

/-! ### Baselines of a time step -/

/-- The sum over a group of what the responses that reach a time step have there. -/
def reachingSum (paths : Vector (Trajectory K) count) (value : Trajectory K → Nat → K) (group : List (Fin count))
    (t : Nat) : K :=
  (group.map (fun i => if t < (paths.get i).responseLength then value (paths.get i) t else 0)).sum

def groupBaseline (paths : Vector (Trajectory K) count) (epsilon : K) (group : List (Fin count)) (t : Nat) : K :=
  reachingSum paths (fun path t => path.returns.getD t 0 * path.wCumulative.getD t 0) group t /
    (reachingSum paths (fun path t => path.wCumulative.getD t 0) group t + epsilon)

theorem baselinePerStep_map (size : Nat) (epsilon : K) (group : List (Fin count)) (weighted weights : Fin count → List K) :
    baselinePerStep size epsilon (group.map weighted) (group.map weights) =
      (range size).map (fun t => (group.map (fun i => (weighted i).getD t 0)).sum /
        ((group.map (fun i => (weights i).getD t 0)).sum + epsilon)) := by
  rw [baselinePerStep, sumRows, sumRows, zipWith_map, zipWith_self]
  simp only [map_map, Function.comp_def]

theorem groupBaseline_of {paths : Vector (Trajectory K) count} {epsilon : K} {group : List (Fin count)}
    {weighted weights : Fin count → List K} {t : Nat}
    (products : ∀ i, (weighted i).getD t 0 =
      if t < (paths.get i).responseLength then (paths.get i).returns.getD t 0 * (paths.get i).wCumulative.getD t 0 else 0)
    (energies : ∀ i, (weights i).getD t 0 =
      if t < (paths.get i).responseLength then (paths.get i).wCumulative.getD t 0 else 0) :
    (group.map (fun i => (weighted i).getD t 0)).sum / ((group.map (fun i => (weights i).getD t 0)).sum + epsilon) =
      groupBaseline paths epsilon group t := by
  simp only [products, energies, groupBaseline, reachingSum]

section Versions
variable {paths : Vector (Trajectory K) count} (first : ∀ i : Fin count, (paths.get i).Prefix width)
include first

theorem masked_baselines (epsilon : K) (group : List (Fin count)) : baselinePerStep width epsilon
        (group.map (fun i => zipWith (fun value valid => value * weight valid)
          (zipWith (· * ·) (paths.get i).returns (paths.get i).wCumulative) (paths.get i).mask))
        (group.map (fun i => zipWith (fun value valid => value * weight valid) (paths.get i).wCumulative (paths.get i).mask)) =
      (range width).map (groupBaseline paths epsilon group) := by
  rw [baselinePerStep_map]
  apply map_congr_left
  intro t _
  apply groupBaseline_of
  · intro i
    have same : (paths.get i).returns.length = (paths.get i).wCumulative.length := (first i).returns.trans (first i).wCumulative.symm
    rw [(first i).masked (by rw [length_zipWith, ← same, Nat.min_self, (first i).returns]), product_getD same]
  · intro i
    exact (first i).masked (first i).wCumulative t

theorem compacted_baselines (epsilon : K) (size : Nat) (group : List (Fin count)) : baselinePerStep size epsilon
        (group.map (fun i => zipWith (· * ·) (compact size (paths.get i).mask (paths.get i).returns)
          (compact size (paths.get i).mask (paths.get i).wCumulative)))
        (group.map (fun i => compact size (paths.get i).mask (paths.get i).wCumulative)) =
      (range size).map (groupBaseline paths epsilon group) := by
  rw [baselinePerStep_map]
  apply map_congr_left
  intro t _
  apply groupBaseline_of
  · intro i
    have same : (compact size (paths.get i).mask (paths.get i).returns).length =
        (compact size (paths.get i).mask (paths.get i).wCumulative).length := by
      simp only [(first i).compact_row, Slices.pad, length_append, length_take, length_replicate,
        (first i).returns, (first i).wCumulative]
    rw [product_getD same, (first i).compacted (first i).returns, (first i).compacted (first i).wCumulative]
    split
    · rfl
    · exact mul_zero 0
  · intro i
    exact (first i).compacted (first i).wCumulative size t

end Versions

/-! ### Baselines of a row -/

theorem zeroFrom_range (size start : Nat) (baseline : Nat → K) :
    zeroFrom ((range size).map baseline) (some start) =
      (range size).map (fun t => if start ≤ t then 0 else baseline t) := by
  have length : ((range size).map baseline).length = size := by rw [length_map, length_range]
  rw [zeroFrom, length]
  by_cases inside : start ≤ size
  · apply ext_getElem?
    intro t
    rw [Slices.fill_getElem? _ _ (by rw [length]; exact inside), length, getElem?_map, getElem?_map]
    by_cases bound : t < size
    · rw [getElem?_range bound, Option.map_some, Option.map_some]
      by_cases late : start ≤ t
      · rw [if_pos ⟨late, bound, bound⟩, if_pos late]
      · rw [if_neg (fun both => late both.1), if_neg late]
    · rw [getElem?_eq_none (by rw [length_range]; omega), if_neg (fun both => bound both.2.1)]
      rfl
  · have whole : Slices.fill ((range size).map baseline) start size 0 = (range size).map baseline := by
      rw [Slices.fill, take_of_length_le (by rw [length]; omega), drop_eq_nil_of_le (by rw [length]; omega),
        Nat.sub_eq_zero_of_le (by omega)]
      simp
    rw [whole]
    apply map_congr_left
    intro t bound
    rw [if_neg (by have := mem_range.mp bound; omega)]

def rowBaseline (handleZeroTail : Bool) (paths : Vector (Trajectory K) count) (epsilon : K) (group : List (Fin count))
    (i : Fin count) (t : Nat) : K :=
  if group.length = 1 then 0
  else if handleZeroTail && (tailStart (paths.map Trajectory.responseLength) group i).any (fun start => start ≤ t) then 0
  else groupBaseline paths epsilon group t

variable {handleZeroTail : Bool}

theorem groupRow_range {paths : Vector (Trajectory K) count} {epsilon : K}
    {group : List (Fin count)} {i : Fin count} (several : group.length ≠ 1) (size : Nat) :
    groupRow handleZeroTail (paths.map Trajectory.responseLength) group
        ((range size).map (groupBaseline paths epsilon group)) i =
      (range size).map (rowBaseline handleZeroTail paths epsilon group i) := by
  unfold groupRow rowBaseline
  simp only [several, if_false]
  cases handleZeroTail with
  | false => simp
  | true =>
    cases tailStart (paths.map Trajectory.responseLength) group i with
    | none => simp [zeroFrom]
    | some start => rw [if_pos rfl, zeroFrom_range]; simp

theorem zero_range (size : Nat) {paths : Vector (Trajectory K) count} {epsilon : K}
    {group : List (Fin count)} (single : group.length = 1) (i : Fin count) :
    replicate size 0 = (range size).map (rowBaseline handleZeroTail paths epsilon group i) := by
  have zero : rowBaseline handleZeroTail paths epsilon group i = fun _ => 0 := funext (fun _ => if_pos single)
  rw [zero, map_const', length_range]

theorem tokenStep_outside (paths : Vector (Trajectory K) count) (handleZeroTail : Bool) (epsilon : K)
    {i : Fin count} (outside : i ∉ trajectoryIndices) (baselines : Vector (List K) count) :
    (tokenStep paths width handleZeroTail epsilon baselines trajectoryIndices).get i = baselines.get i := by
  rw [tokenStep]
  by_cases single : trajectoryIndices.length = 1
  · rw [if_pos single]
  · rw [if_neg single]
    dsimp only
    rw [assignBaselines_get, if_neg outside]

/-- The places of the valid tokens as the second version brings them together. -/
def compactedRows (paths : Vector (Trajectory K) count) (size : Nat) (row : Trajectory K → List K) : Vector (List K) count :=
  paths.map (fun path => compact size path.mask (row path))

theorem compactedRows_get (paths : Vector (Trajectory K) count) (size : Nat) (row : Trajectory K → List K)
    (i : Fin count) : (compactedRows paths size row).get i = compact size (paths.get i).mask (row (paths.get i)) := by
  simp [compactedRows]

theorem turnStep_outside (allReturns allWValues : Vector (List K) count) (responseLengths : Vector Nat count) (size : Nat)
    (handleZeroTail : Bool) (epsilon : K) {i : Fin count}
    (outside : i ∉ trajectoryIndices) (baselines : Vector (List K) count) :
    (turnStep allReturns allWValues responseLengths size handleZeroTail epsilon baselines trajectoryIndices).get i =
      baselines.get i := by
  unfold turnStep
  split
  · rename_i j
    exact setRow_other _ (fun same => outside (mem_singleton.mpr same.symm)) _
  · dsimp only
    rw [assignBaselines_get, if_neg outside]

section Rows
variable {paths : Vector (Trajectory K) count} (first : ∀ i : Fin count, (paths.get i).Prefix width)
include first

theorem tokenStep_inside (handleZeroTail : Bool) (epsilon : K) {i : Fin count}
    (inside : i ∈ trajectoryIndices) (baselines : Vector (List K) count) :
    (tokenStep paths width handleZeroTail epsilon baselines trajectoryIndices).get i =
      if trajectoryIndices.length = 1 then baselines.get i
      else (range width).map (rowBaseline handleZeroTail paths epsilon trajectoryIndices i) := by
  rw [tokenStep]
  by_cases single : trajectoryIndices.length = 1
  · rw [if_pos single, if_pos single]
  · rw [if_neg single, if_neg single]
    dsimp only
    rw [masked_baselines first, assignBaselines_get, if_pos inside, groupRow_range single]

theorem tokenBaselines_get [DecidableEq ι] (index : Vector ι count) (handleZeroTail : Bool) (epsilon : K)
    (i : Fin count) : (tokenBaselines paths width index handleZeroTail epsilon).get i =
      (range width).map (rowBaseline handleZeroTail paths epsilon (peers index (finRange count) i) i) := by
  have folded := @foldl_promptGroups ι count _ _ (tokenStep paths width handleZeroTail epsilon) i
    (fun group row => if group.length = 1 then row
      else (range width).map (rowBaseline handleZeroTail paths epsilon group i))
    (fun baselines _ inside => tokenStep_inside first handleZeroTail epsilon inside baselines)
    (fun baselines _ outside => tokenStep_outside paths handleZeroTail epsilon outside baselines)
    index _ (mem_finRange i) (Vector.replicate count (replicate width 0))
  rw [tokenBaselines, folded]
  split
  · rename_i single
    rw [← zero_range width single i]
    simp
  · rfl

theorem turnStep_inside (size : Nat) (handleZeroTail : Bool) (epsilon : K)
    {i : Fin count} (inside : i ∈ trajectoryIndices) (baselines : Vector (List K) count) :
    (turnStep (compactedRows paths size Trajectory.returns) (compactedRows paths size Trajectory.wCumulative)
        (paths.map Trajectory.responseLength) size handleZeroTail epsilon baselines trajectoryIndices).get i =
      (range size).map (rowBaseline handleZeroTail paths epsilon trajectoryIndices i) := by
  unfold turnStep
  split
  · rename_i j
    have same : i = j := mem_singleton.mp inside
    rw [← zero_range size rfl i, same]
    exact setRow_self _ _ _
  · rename_i several
    have single : trajectoryIndices.length ≠ 1 := by
      intro one
      obtain ⟨j, only⟩ := length_eq_one_iff.mp one
      exact several j only
    dsimp only
    rw [assignBaselines_get, if_pos inside]
    simp only [compactedRows_get]
    rw [compacted_baselines first, groupRow_range single]

theorem turnBaselines_get [DecidableEq ι] (index : Vector ι count) (size : Nat) (handleZeroTail : Bool) (epsilon : K)
    {i : Fin count} (nonempty : (paths.get i).responseLength ≠ 0) :
    (turnBaselines (compactedRows paths size Trajectory.returns) (compactedRows paths size Trajectory.wCumulative)
        (paths.map Trajectory.responseLength) size index handleZeroTail epsilon).get i =
      (range size).map (rowBaseline handleZeroTail paths epsilon (peers index
        ((finRange count).filter (fun i => (paths.map Trajectory.responseLength).get i ≠ 0)) i) i) := by
  apply @foldl_promptGroups ι count _ _
    (turnStep (compactedRows paths size Trajectory.returns) (compactedRows paths size Trajectory.wCumulative)
      (paths.map Trajectory.responseLength) size handleZeroTail epsilon) i
    (fun group _ => (range size).map (rowBaseline handleZeroTail paths epsilon group i))
  · intro baselines group inside
    exact turnStep_inside first size handleZeroTail epsilon inside baselines
  · intro baselines group outside
    exact turnStep_outside _ _ _ size handleZeroTail epsilon outside baselines
  · simpa using nonempty

end Rows

/-! ### Empty responses -/

theorem sorted_zeros (lengths : List Nat) : (lengths.mergeSort (fun a b => decide (a ≤ b))).reverse =
      ((lengths.filter (fun length => length ≠ 0)).mergeSort (fun a b => decide (a ≤ b))).reverse ++
        replicate (lengths.count 0) 0 := by
  have sorted (lengths : List Nat) := pairwise_mergeSort' (· ≤ ·) lengths
  have parts : (lengths.filter (fun length => length ≠ 0) ++ replicate (lengths.count 0) 0).Perm lengths := by
    rw [← filter_eq]
    simpa using filter_append_perm (fun length => length ≠ 0) lengths
  rw [← reverse_replicate, ← reverse_append]
  congr 1
  apply List.Perm.eq_of_pairwise (fun _ _ _ _ => Nat.le_antisymm) (sorted lengths)
  · apply pairwise_append.mpr
    refine ⟨pairwise_replicate.mpr (Or.inr (Nat.le_refl 0)), sorted _, ?_⟩
    intro length member _ _
    rw [eq_of_mem_replicate member]
    exact Nat.zero_le _
  · apply (mergeSort_perm lengths _).trans
    apply (parts.symm.trans perm_append_comm).trans
    exact (mergeSort_perm _ _).symm.append_left _

def filled (responseLengths : Vector Nat count) (group : List (Fin count)) : List (Fin count) :=
  group.filter (fun i => responseLengths.get i ≠ 0)

section Filled
variable {responseLengths : Vector Nat count} {group : List (Fin count)} {i : Fin count}

theorem longest_filled (responseLengths : Vector Nat count) (group : List (Fin count)) :
    ((group.map (fun i => responseLengths.get i)).mergeSort (fun a b => decide (a ≤ b))).reverse =
      (((filled responseLengths group).map (fun i => responseLengths.get i)).mergeSort (fun a b => decide (a ≤ b))).reverse ++
        replicate ((group.map (fun i => responseLengths.get i)).count 0) 0 := by
  rw [sorted_zeros, filter_map]
  rfl

theorem filled_longest (group : List (Fin count)) {maxLength : Nat} (positive : 0 < maxLength) :
    (filled responseLengths group).filter (fun i => responseLengths.get i = maxLength) =
      group.filter (fun i => responseLengths.get i = maxLength) := by
  rw [filled, filter_filter]
  apply filter_congr
  intro i _
  rw [Bool.and_eq_left_iff_imp]
  simp only [decide_eq_true_eq]
  omega

theorem tailStart_filled (several : 2 ≤ (filled responseLengths group).length) (i : Fin count) :
    tailStart responseLengths (filled responseLengths group) i = tailStart responseLengths group i := by
  rw [tailStart, tailStart, longest_filled responseLengths group]
  generalize sorted : (((filled responseLengths group).map (fun i => responseLengths.get i)).mergeSort
    (fun a b => decide (a ≤ b))).reverse = longest
  have length : longest.length = (filled responseLengths group).length := by
    rw [← sorted, length_reverse, length_mergeSort, length_map]
  rcases longest with _ | ⟨maxLength, _ | ⟨secondMaxLength, rest⟩⟩
  · rw [← length] at several; cases several
  · rw [← length] at several; simp at several
  · have member : maxLength ∈ (filled responseLengths group).map (fun i => responseLengths.get i) := by
      rw [← (mergeSort_perm _ (fun a b => decide (a ≤ b))).mem_iff, ← mem_reverse, sorted]
      exact mem_cons_self
    obtain ⟨j, inside, same⟩ := mem_map.mp member
    have positive : 0 < maxLength := by
      rw [← same]
      exact Nat.pos_of_ne_zero (of_decide_eq_true (mem_filter.mp inside).2)
    simp only [cons_append, filled_longest group positive]

theorem tailStart_lone (lone : filled responseLengths group = [i]) (others : group.length ≠ 1) :
    tailStart responseLengths group i = some 0 := by
  have member : i ∈ filled responseLengths group := lone ▸ mem_singleton_self i
  have positive : 0 < responseLengths.get i := Nat.pos_of_ne_zero (of_decide_eq_true (mem_filter.mp member).2)
  have longest := longest_filled responseLengths group
  rw [lone, map_singleton, mergeSort_singleton, reverse_singleton] at longest
  have lengths : group.length = (group.map (fun i => responseLengths.get i)).count 0 + 1 := by
    simpa only [length_reverse, length_mergeSort, length_map, length_append, length_replicate,
      length_singleton, Nat.add_comm] using congrArg length longest
  have shorter : (group.map (fun i => responseLengths.get i)).count 0 ≠ 0 := by omega
  obtain ⟨zeros, count⟩ := Nat.exists_eq_succ_of_ne_zero shorter
  rw [tailStart, longest, count, replicate_succ, singleton_append]
  dsimp only
  rw [← filled_longest group positive, lone, if_pos]
  exact ⟨by simp, positive⟩

end Filled

theorem reachingSum_filled (paths : Vector (Trajectory K) count) (value : Trajectory K → Nat → K)
    (group : List (Fin count)) (t : Nat) :
    reachingSum paths value (filled (paths.map Trajectory.responseLength) group) t = reachingSum paths value group t := by
  have cons (i : Fin count) (group : List (Fin count)) : reachingSum paths value (i :: group) t =
      (if t < (paths.get i).responseLength then value (paths.get i) t else 0) + reachingSum paths value group t := sum_cons
  induction group with
  | nil => rfl
  | cons i group ih =>
    rw [cons, ← ih, filled, filter_cons]
    split
    · rw [cons]
      rfl
    · rename_i empty
      have none : ¬ t < (paths.get i).responseLength := by
        have zero : (paths.get i).responseLength = 0 := by simpa using empty
        omega
      rw [if_neg none, zero_add]
      rfl

theorem groupBaseline_filled (paths : Vector (Trajectory K) count) (epsilon : K) (group : List (Fin count)) (t : Nat) :
    groupBaseline paths epsilon (filled (paths.map Trajectory.responseLength) group) t =
      groupBaseline paths epsilon group t := by
  rw [groupBaseline, reachingSum_filled, reachingSum_filled, groupBaseline]

/-- A row has the same baselines without the empty responses of its group, if it is not the only
response whose group has empty ones or if its tail is zeroed. -/
theorem rowBaseline_filled {paths : Vector (Trajectory K) count} {group : List (Fin count)}
    {i : Fin count} (epsilon : K) (member : i ∈ filled (paths.map Trajectory.responseLength) group)
    (handled : handleZeroTail = true ∨
      ¬ (filled (paths.map Trajectory.responseLength) group = [i] ∧ group.length ≠ 1)) (t : Nat) :
    rowBaseline handleZeroTail paths epsilon group i t =
      rowBaseline handleZeroTail paths epsilon (filled (paths.map Trajectory.responseLength) group) i t := by
  have shorter : (filled (paths.map Trajectory.responseLength) group).length ≤ group.length := length_filter_le _ _
  have positive := length_pos_of_mem member
  by_cases single : (filled (paths.map Trajectory.responseLength) group).length = 1
  · have lone : filled (paths.map Trajectory.responseLength) group = [i] := by
      obtain ⟨j, only⟩ := length_eq_one_iff.mp single
      rw [only] at member
      rw [only, mem_singleton.mp member]
    unfold rowBaseline
    rw [if_pos single]
    by_cases alone : group.length = 1
    · rw [if_pos alone]
    · have zeroed : handleZeroTail = true := handled.resolve_right (not_not_intro ⟨lone, alone⟩)
      rw [if_neg alone, zeroed, tailStart_lone lone alone]
      simp
  · have several : 2 ≤ (filled (paths.map Trajectory.responseLength) group).length := by omega
    have alone : group.length ≠ 1 := by omega
    unfold rowBaseline
    rw [if_neg single, if_neg alone, tailStart_filled several, groupBaseline_filled]

theorem rowBaseline_lone {paths : Vector (Trajectory K) count} {group : List (Fin count)} {i : Fin count} (epsilon : K)
    (lone : filled (paths.map Trajectory.responseLength) group = [i]) (others : group.length ≠ 1) {t : Nat}
    (inside : t < (paths.get i).responseLength) : rowBaseline false paths epsilon group i t =
        (paths.get i).returns.getD t 0 * (paths.get i).wCumulative.getD t 0 / ((paths.get i).wCumulative.getD t 0 + epsilon) ∧
      rowBaseline false paths epsilon (filled (paths.map Trajectory.responseLength) group) i t = 0 := by
  constructor
  · rw [rowBaseline, if_neg others, Bool.false_and, if_neg Bool.false_ne_true, ← groupBaseline_filled, lone,
      groupBaseline, reachingSum, reachingSum]
    simp only [map_cons, map_nil, sum_cons, sum_nil, add_zero, if_pos inside]
  · rw [lone]
    rfl

/-! ### Advantages -/

def rowAdvantages (width : Nat) (path : Trajectory K) (baseline : Nat → K) : List K :=
  (List.range path.responseLength).map (fun t => path.returns.getD t 0 - baseline t) ++
    List.replicate (width - path.responseLength) 0

theorem rowAdvantages_eq (width : Nat) (path : Trajectory K) (baseline baseline' : Nat → K) :
    rowAdvantages width path baseline = rowAdvantages width path baseline' ↔
      ∀ t < path.responseLength, baseline t = baseline' t := by
  rw [rowAdvantages, rowAdvantages, append_cancel_right_eq, map_inj_left]
  simp only [mem_range, sub_right_inj]

theorem differences_take {size length : Nat} (whole : row.length = size) (inside : length ≤ size) (baseline : Nat → K) :
    (zipWith (· - ·) row ((range size).map baseline)).take length =
      (range length).map (fun t => row.getD t 0 - baseline t) := by
  apply ext_getElem
  · simp [whole, inside]
  · intro t bound _
    have within : t < row.length := by simp [whole] at bound; omega
    simp [within]

section Advantages
variable {paths : Vector (Trajectory K) count} (first : ∀ i : Fin count, (paths.get i).Prefix width)
include first

theorem token_row (baseline : Nat → K) (i : Fin count) : zipWith (fun advantage valid => advantage * weight valid)
        (zipWith (· - ·) (paths.get i).returns ((range width).map baseline)) (paths.get i).mask =
      rowAdvantages width (paths.get i) baseline := by
  have whole : (zipWith (· - ·) (paths.get i).returns ((range width).map baseline)).length =
      (paths.get i).responseLength + (width - (paths.get i).responseLength) := by
    rw [length_zipWith, (first i).returns, length_map, length_range, Nat.min_self,
      Nat.add_sub_of_le (first i).bound]
  rw [(first i).mask, masked_front whole, differences_take (first i).returns (first i).bound, rowAdvantages]

theorem turn_row {size : Nat} {i : Fin count} (fits : (paths.get i).responseLength ≤ size) (baseline : Nat → K) :
    zipWith (fun advantage valid => advantage * weight valid)
        (Masking.scatter 0 (paths.get i).mask ((zipWith (· - ·) (compact size (paths.get i).mask (paths.get i).returns)
          ((range size).map baseline)).take (paths.get i).responseLength)) (paths.get i).mask =
      rowAdvantages width (paths.get i) baseline := by
  have length : (compact size (paths.get i).mask (paths.get i).returns).length = size := by
    rw [(first i).compact_row]
    exact Slices.pad_length (Nat.le_trans (length_take_le _ _) fits)
  have values : (zipWith (· - ·) (compact size (paths.get i).mask (paths.get i).returns) ((range size).map baseline)).take
      (paths.get i).responseLength =
      (range (paths.get i).responseLength).map (fun t => (paths.get i).returns.getD t 0 - baseline t) := by
    rw [differences_take length fits]
    apply map_congr_left
    intro t bound
    rw [(first i).compacted (first i).returns, if_pos (mem_range.mp bound)]
  rw [values]
  generalize fronts : (range (paths.get i).responseLength).map (fun t => (paths.get i).returns.getD t 0 - baseline t) = front
  have front_length : front.length = (paths.get i).responseLength := by rw [← fronts, length_map, length_range]
  rw [(first i).mask, Masking.scatter_front 0 _ front_length, masked_front (by simp [front_length]),
    take_left' front_length, rowAdvantages, fronts]

end Advantages

section Batch
variable [DecidableEq ι] {exp : K → K} {batch : PathBatch ι K count width}
  (first : ∀ i : Fin count, ((trajectories exp batch).get i).Prefix width)
include first

theorem token_advantages (handleZeroTail : Bool) (epsilon : K) (i : Fin count) :
    ((computeOptimalTokenBaselineAdvantage exp batch handleZeroTail epsilon).1.get i) =
      rowAdvantages width ((trajectories exp batch).get i) (rowBaseline handleZeroTail (trajectories exp batch) epsilon
        (peers batch.index (finRange count) i) i) := by
  rw [computeOptimalTokenBaselineAdvantage, ← token_row first, ← tokenBaselines_get first]
  simp

theorem turn_advantages (handleZeroTail : Bool) (epsilon : K) (i : Fin count) :
    ((computeMultiTurnOptimalTokenBaselineAdvantage exp batch handleZeroTail epsilon).1.get i) =
      rowAdvantages width ((trajectories exp batch).get i) (rowBaseline handleZeroTail (trajectories exp batch) epsilon
        (peers batch.index (filled ((trajectories exp batch).map Trajectory.responseLength) (finRange count)) i) i) := by
  generalize isPaths : trajectories exp batch = paths at first
  generalize isSize : (paths.map Trajectory.responseLength).toList.max?.getD 0 = size
  have fits : (paths.get i).responseLength ≤ size := by
    have member : (paths.get i).responseLength ∈ (paths.map Trajectory.responseLength).toList := by
      simp only [Vector.mem_toList_iff, Vector.mem_map]
      exact ⟨paths.get i, Vector.getElem_mem i.isLt, rfl⟩
    rw [← isSize]
    exact le_max?_getD_of_mem member
  have computed : (computeMultiTurnOptimalTokenBaselineAdvantage exp batch handleZeroTail epsilon).1.get i =
      zipWith (fun advantage valid => advantage * weight valid)
        (Masking.scatter 0 (paths.get i).mask ((zipWith (· - ·) ((compactedRows paths size Trajectory.returns).get i)
          ((turnBaselines (compactedRows paths size Trajectory.returns) (compactedRows paths size Trajectory.wCumulative)
            (paths.map Trajectory.responseLength) size batch.index handleZeroTail epsilon).get i)).take
              (paths.get i).responseLength)) (paths.get i).mask := by
    simp only [computeMultiTurnOptimalTokenBaselineAdvantage, isPaths, isSize, compactedRows]
    simp
  rw [computed, ← turn_row first fits, compactedRows_get]
  by_cases empty : (paths.get i).responseLength = 0
  · rw [empty, take_zero, take_zero]
  · rw [turnBaselines_get first batch.index size handleZeroTail epsilon empty]
    rfl

theorem versions_agree (handleZeroTail : Bool) (epsilon : K) :
    computeOptimalTokenBaselineAdvantage exp batch handleZeroTail epsilon =
        computeMultiTurnOptimalTokenBaselineAdvantage exp batch handleZeroTail epsilon ↔
      ∀ i : Fin count, ∀ t < ((trajectories exp batch).get i).responseLength,
        rowBaseline handleZeroTail (trajectories exp batch) epsilon (peers batch.index (finRange count) i) i t =
          rowBaseline handleZeroTail (trajectories exp batch) epsilon
            (peers batch.index (filled ((trajectories exp batch).map Trajectory.responseLength) (finRange count)) i) i t := by
  have rows (i : Fin count) := rowAdvantages_eq width ((trajectories exp batch).get i)
    (rowBaseline handleZeroTail (trajectories exp batch) epsilon (peers batch.index (finRange count) i) i)
    (rowBaseline handleZeroTail (trajectories exp batch) epsilon
      (peers batch.index (filled ((trajectories exp batch).map Trajectory.responseLength) (finRange count)) i) i)
  rw [Prod.ext_iff, and_iff_left (show (computeOptimalTokenBaselineAdvantage exp batch handleZeroTail epsilon).2 =
    (computeMultiTurnOptimalTokenBaselineAdvantage exp batch handleZeroTail epsilon).2 from rfl)]
  constructor
  · intro same i
    rw [← rows, ← token_advantages first, ← turn_advantages first, same]
  · intro same
    apply Vector.ext
    intro i inside
    have row := (rows ⟨i, inside⟩).mpr (same ⟨i, inside⟩)
    rw [← token_advantages first, ← turn_advantages first] at row
    exact row

end Batch

/-! ### Lone responses -/

section Lone
variable [DecidableEq ι]

/-- The only response of its group that has a token, beside empty ones. -/
structure Lone (index : Vector ι count) (masks : Vector (Vector Bool width) count) (i : Fin count) : Prop where
  filled : true ∈ masks.get i
  empty : ∃ j : Fin count, index.get j = index.get i ∧ true ∉ masks.get j
  only : ∀ j : Fin count, index.get j = index.get i → true ∈ masks.get j → j = i

theorem peers_filled (index : Vector ι count) (responseLengths : Vector Nat count) (i : Fin count) :
    peers index (filled responseLengths (finRange count)) i =
      filled responseLengths (peers index (finRange count) i) := by
  rw [peers, filled, filled, peers, filter_filter, filter_filter]
  simp only [Bool.and_comm]

theorem lone_iff (index : Vector ι count) {masks : Vector (Vector Bool width) count} {responseLengths : Vector Nat count}
    (counts : ∀ i : Fin count, responseLengths.get i ≠ 0 ↔ true ∈ masks.get i) (i : Fin count) :
    Lone index masks i ↔ filled responseLengths (peers index (finRange count) i) = [i] ∧
      (peers index (finRange count) i).length ≠ 1 := by
  have mem_peers (j : Fin count) : j ∈ peers index (finRange count) i ↔ index.get j = index.get i := by
    simp [peers]
  have mem_filled (j : Fin count) : j ∈ filled responseLengths (peers index (finRange count) i) ↔
      index.get j = index.get i ∧ true ∈ masks.get j := by
    rw [filled, mem_filter, mem_peers, decide_eq_true_eq, counts]
  constructor
  · intro lone
    refine ⟨?_, ?_⟩
    · have distinct : (filled responseLengths (peers index (finRange count) i)).Nodup :=
        ((nodup_finRange count).filter _).filter _
      rw [← perm_singleton, perm_ext_iff_of_nodup distinct (nodup_singleton i)]
      intro j
      rw [mem_filled, mem_singleton]
      constructor
      · exact fun both => lone.only j both.1 both.2
      · rintro rfl
        exact ⟨rfl, lone.filled⟩
    · intro single
      obtain ⟨k, only⟩ := length_eq_one_iff.mp single
      obtain ⟨j, same, empty⟩ := lone.empty
      have first := mem_singleton.mp (only ▸ (mem_peers j).mpr same)
      have second := mem_singleton.mp (only ▸ (mem_peers i).mpr rfl)
      rw [first, ← second] at empty
      exact empty lone.filled
  · rintro ⟨lone, several⟩
    have only (j : Fin count) (same : index.get j = index.get i) (token : true ∈ masks.get j) : j = i :=
      mem_singleton.mp (lone ▸ (mem_filled j).mpr ⟨same, token⟩)
    refine ⟨((mem_filled i).mp (lone ▸ mem_singleton_self i)).2, ?_, only⟩
    by_contra none
    apply several
    have all : filled responseLengths (peers index (finRange count) i) = peers index (finRange count) i := by
      apply filter_eq_self.mpr
      intro j member
      rw [decide_eq_true_eq, counts]
      by_contra empty
      exact none ⟨j, (mem_peers j).mp member, empty⟩
    rw [← all, lone, length_singleton]

end Lone

/-! ### Batches -/

def PathBatch.masks (batch : PathBatch ι K count width) : Vector (Vector Bool width) count :=
  batch.tokens.map (Vector.map (fun token => token.valid))

/-- Ones and then zeros. -/
def IsPrefix (mask : Vector Bool width) : Prop :=
  ∃ ones zeros, mask.toList = List.replicate ones true ++ List.replicate zeros false

theorem cumsumFrom_length (start : K) (values : List K) : (cumsumFrom start values).length = values.length := by
  induction values generalizing start with
  | nil => rfl
  | cons value values ih => rw [cumsumFrom, length_cons, ih, length_cons]

theorem trajectories_get (exp : K → K) (batch : PathBatch ι K count width) (i : Fin count) :
    (trajectories exp batch).get i = ⟨(batch.tokens.get i).toList.map (fun token => token.valid), tokenReturns (batch.tokens.get i).toList,
      wCumulative exp (batch.tokens.get i).toList (batch.rolloutIsWeights.map (fun weights => (weights.get i).toList))⟩ := by
  simp [trajectories]

theorem trajectories_mask (exp : K → K) (batch : PathBatch ι K count width) (i : Fin count) :
    ((trajectories exp batch).get i).mask = (batch.masks.get i).toList := by
  rw [trajectories_get]
  simp [PathBatch.masks, Vector.toList_map]

theorem trajectories_front (exp : K → K) {batch : PathBatch ι K count width} {i : Fin count}
    (isPrefix : IsPrefix (batch.masks.get i)) : ((trajectories exp batch).get i).Prefix width := by
  obtain ⟨ones, zeros, mask⟩ := isPrefix
  have whole : width = ones + zeros := by simpa using congrArg length mask
  rw [← trajectories_mask exp] at mask
  have length : ((trajectories exp batch).get i).responseLength = ones := by
    rw [Trajectory.responseLength, mask]
    simp [count_replicate]
  refine ⟨?_, ?_, by omega, by rw [length, mask]; congr 2; omega⟩
  · rw [trajectories_get, tokenReturns, length_reverse, cumsumFrom_length]
    simp
  · rw [trajectories_get, wCumulative, cumsumFrom_length]
    unfold wPerTimestep
    cases batch.rolloutIsWeights <;> simp

theorem trajectories_filled (exp : K → K) (batch : PathBatch ι K count width) (i : Fin count) :
    ((trajectories exp batch).map Trajectory.responseLength).get i ≠ 0 ↔ true ∈ batch.masks.get i := by
  have length : ((trajectories exp batch).map Trajectory.responseLength).get i = (batch.masks.get i).toList.count true := by
    rw [← trajectories_mask exp]
    simp [Trajectory.responseLength]
  rw [length, ← Nat.pos_iff_ne_zero, count_pos_iff, Vector.mem_toList_iff]

theorem versions_agree_of [DecidableEq ι] (exp : K → K) {batch : PathBatch ι K count width}
    (prefixes : ∀ i : Fin count, IsPrefix (batch.masks.get i))
    (handled : handleZeroTail = true ∨ ¬ ∃ i, Lone batch.index batch.masks i) (epsilon : K) :
    computeOptimalTokenBaselineAdvantage exp batch handleZeroTail epsilon =
      computeMultiTurnOptimalTokenBaselineAdvantage exp batch handleZeroTail epsilon := by
  have first := fun i => trajectories_front exp (prefixes i)
  rw [versions_agree first]
  intro i t inside
  rw [peers_filled]
  apply rowBaseline_filled epsilon
  · have nonempty : ((trajectories exp batch).get i).responseLength ≠ 0 := by omega
    simpa [filled, peers] using nonempty
  · rw [← lone_iff batch.index (trajectories_filled exp batch)]
    exact handled.imp_right not_exists.mp |>.imp_right (fun none => none i)

/-- A lone response has no baseline in one version, and in the other one a baseline of its own. -/
theorem lone_differs [DecidableEq ι] (exp : K → K) {batch : PathBatch ι K count width}
    (prefixes : ∀ i : Fin count, IsPrefix (batch.masks.get i)) {i : Fin count} (lone : Lone batch.index batch.masks i)
    {epsilon : K} (returned : (tokenReturns (batch.tokens.get i).toList).getD 0 0 ≠ 0)
    (energy : ((trajectories exp batch).get i).wCumulative.getD 0 0 ≠ 0)
    (defined : ((trajectories exp batch).get i).wCumulative.getD 0 0 + epsilon ≠ 0) :
    computeOptimalTokenBaselineAdvantage exp batch false epsilon ≠
      computeMultiTurnOptimalTokenBaselineAdvantage exp batch false epsilon := by
  have first := fun i => trajectories_front exp (prefixes i)
  intro same
  have filled : 0 < ((trajectories exp batch).get i).responseLength := by
    have nonempty := (trajectories_filled exp batch i).mpr lone.filled
    rw [Vector.get_map] at nonempty
    exact Nat.pos_of_ne_zero nonempty
  have agree := (versions_agree first false epsilon).mp same i 0 filled
  rw [lone_iff batch.index (trajectories_filled exp batch)] at lone
  obtain ⟨own, none⟩ := rowBaseline_lone epsilon lone.1 lone.2 filled
  rw [peers_filled, none, own] at agree
  rw [← (show ((trajectories exp batch).get i).returns = tokenReturns (batch.tokens.get i).toList by rw [trajectories_get])]
    at returned
  exact div_ne_zero (mul_ne_zero returned energy) defined agree

theorem cumsumFrom_append (start : K) (before : List K) (value : K) :
    cumsumFrom start (before ++ [value]) = cumsumFrom start before ++ [start + before.sum + value] := by
  induction before generalizing start with
  | nil => simp [cumsumFrom]
  | cons first before ih => rw [cons_append, cumsumFrom, ih, cumsumFrom, sum_cons, add_assoc start]; rfl

theorem tokenReturns_first {row : List (PathToken K)} (nonempty : row ≠ []) :
    (tokenReturns row).getD 0 0 = (row.map (fun token => token.reward * weight token.valid)).sum := by
  cases row with
  | nil => exact absurd rfl nonempty
  | cons token row =>
    rw [tokenReturns, map_cons, reverse_cons, cumsumFrom_append, reverse_append, reverse_singleton,
      singleton_append, getD_cons_zero, sum_reverse, sum_cons, zero_add, add_comm]

theorem wCumulative_first (exp : K → K) (token : PathToken K) (row : List (PathToken K)) :
    (wCumulative exp (token :: row) none).getD 0 0 =
      (1 - 2 * exp token.oldLogProb + token.sumPiSquared) * weight token.valid := by
  rw [wCumulative, wPerTimestep, map_cons, zipWith_cons_cons, cumsumFrom, getD_cons_zero, zero_add]

theorem IsPrefix.first {mask : Vector Bool width} (isPrefix : IsPrefix mask) (filled : true ∈ mask) :
    ∃ rest, mask.toList = true :: rest := by
  obtain ⟨ones, zeros, shape⟩ := isPrefix
  cases ones with
  | succ ones => exact ⟨_, shape⟩
  | zero =>
    rw [← Vector.mem_toList_iff, shape] at filled
    simp at filled

section Ordered
variable [LinearOrder K] [IsStrictOrderedRing K]

/-- A token with the reward one and an energy that outweighs `epsilon`. -/
def evenToken (exp : K → K) (epsilon : K) (valid : Bool) : PathToken K :=
  { reward := 1, valid := valid, oldLogProb := 0, sumPiSquared := exp 0 + exp 0 + |epsilon| }

def evenBatch (exp : K → K) (index : Vector ι count) (masks : Vector (Vector Bool width) count) (epsilon : K) :
    PathBatch ι K count width where
  tokens := masks.map (Vector.map (evenToken exp epsilon))
  index := index
  rolloutIsWeights := none

omit [IsStrictOrderedRing K] in
theorem evenBatch_masks (exp : K → K) (index : Vector ι count) (masks : Vector (Vector Bool width) count) (epsilon : K) :
    (evenBatch exp index masks epsilon).masks = masks := by
  simp [evenBatch, evenToken, PathBatch.masks, Function.comp_def]

omit [IsStrictOrderedRing K] in
theorem evenBatch_row (exp : K → K) (index : Vector ι count) (masks : Vector (Vector Bool width) count) (epsilon : K)
    (i : Fin count) : ((evenBatch exp index masks epsilon).tokens.get i).toList = (masks.get i).toList.map (evenToken exp epsilon) := by
  simp [evenBatch, Vector.toList_map]

/-- The versions agree on all rewards, probabilities and weights exactly when the tail of lone
responses is zeroed or there is no lone response. -/
theorem baselines_agree [DecidableEq ι] (exp : K → K) (index : Vector ι count)
    {masks : Vector (Vector Bool width) count} (prefixes : ∀ i : Fin count, IsPrefix (masks.get i)) (handleZeroTail : Bool)
    (epsilon : K) :
    (∀ batch : PathBatch ι K count width, batch.index = index → batch.masks = masks →
      computeOptimalTokenBaselineAdvantage exp batch handleZeroTail epsilon =
        computeMultiTurnOptimalTokenBaselineAdvantage exp batch handleZeroTail epsilon) ↔
      handleZeroTail = true ∨ ¬ ∃ i, Lone index masks i := by
  constructor
  · intro agree
    by_contra violated
    rw [not_or, not_not, Bool.not_eq_true] at violated
    obtain ⟨rfl, i, lone⟩ := violated
    obtain ⟨rest, shape⟩ := (prefixes i).first lone.filled
    have row := evenBatch_row exp index masks epsilon i
    have returned : (tokenReturns ((evenBatch exp index masks epsilon).tokens.get i).toList).getD 0 0 ≠ 0 := by
      have sum : (((masks.get i).toList.map (evenToken exp epsilon)).map (fun token => token.reward * weight token.valid)).sum =
          maskSum (masks.get i).toList := by
        rw [List.map_map, maskSum]
        congr 2
        funext valid
        exact one_mul _
      rw [row, tokenReturns_first (by rw [shape]; exact List.cons_ne_nil _ _), sum, maskSum_count, Nat.cast_ne_zero, shape,
        List.count_cons_self]
      exact Nat.succ_ne_zero _
    have energy : ((trajectories exp (evenBatch exp index masks epsilon)).get i).wCumulative.getD 0 0 = 1 + |epsilon| := by
      have first := wCumulative_first exp (evenToken exp epsilon true) (rest.map (evenToken exp epsilon))
      rw [trajectories_get, row, shape]
      refine first.trans ?_
      simp only [evenToken, weight_true]
      ring
    apply lone_differs exp (by rwa [evenBatch_masks]) (i := i) _ returned _ _
      (agree (evenBatch exp index masks epsilon) rfl (evenBatch_masks exp index masks epsilon))
    · rwa [evenBatch_masks]
    · rw [energy]
      exact ne_of_gt (by positivity)
    · rw [energy]
      have bound := neg_abs_le epsilon
      exact ne_of_gt (by linarith)
  · rintro handled batch rfl rfl
    exact versions_agree_of exp prefixes handled epsilon

end Ordered

/-- A response of one token beside an empty one. -/
def besideEmpty (oldLogProb sumPiSquared : K) : PathBatch Nat K 2 1 where
  tokens := #v[#v[⟨⟨1, true⟩, oldLogProb, sumPiSquared⟩], #v[⟨⟨0, false⟩, oldLogProb, sumPiSquared⟩]]
  index := #v[0, 0]
  rolloutIsWeights := none

theorem besideEmpty_masks (oldLogProb sumPiSquared : K) :
    (besideEmpty oldLogProb sumPiSquared).masks = #v[#v[true], #v[false]] := by
  simp [besideEmpty, PathBatch.masks]

theorem besideEmpty_prefixes : ∀ i : Fin 2, IsPrefix ((#v[#v[true], #v[false]] : Vector (Vector Bool 1) 2).get i) := by
  rw [Fin.forall_fin_two]
  exact ⟨⟨1, 0, rfl⟩, ⟨0, 1, rfl⟩⟩

theorem baselines_agree_besideEmpty :
    computeOptimalTokenBaselineAdvantage Real.exp (besideEmpty (Real.log (1 / 2)) (1 / 2)) true (1 / 10 ^ 8) =
      computeMultiTurnOptimalTokenBaselineAdvantage Real.exp (besideEmpty (Real.log (1 / 2)) (1 / 2)) true (1 / 10 ^ 8) :=
  (baselines_agree Real.exp #v[0, 0] besideEmpty_prefixes true (1 / 10 ^ 8)).mpr (Or.inl rfl) _ rfl (besideEmpty_masks _ _)

theorem besideEmpty_lone : Lone #v[0, 0] #v[#v[true], #v[false]] 0 := by
  refine ⟨by simp, ⟨1, rfl, by simp⟩, ?_⟩
  rw [Fin.forall_fin_two]
  exact ⟨fun _ _ => rfl, fun _ token => absurd token (by simp [Vector.get_eq_getElem])⟩

/-- The token has probability one half, and there is one other token that is as likely. -/
theorem empty_response_counted :
    computeOptimalTokenBaselineAdvantage Real.exp (besideEmpty (Real.log (1 / 2)) (1 / 2)) false (1 / 10 ^ 8) ≠
      computeMultiTurnOptimalTokenBaselineAdvantage Real.exp (besideEmpty (Real.log (1 / 2)) (1 / 2)) false (1 / 10 ^ 8) := by
  have energy : ((trajectories Real.exp (besideEmpty (Real.log (1 / 2)) (1 / 2))).get (0 : Fin 2)).wCumulative.getD 0 0 = 1 / 2 := by
    rw [trajectories_get]
    refine (wCumulative_first Real.exp ⟨⟨1, true⟩, Real.log (1 / 2), 1 / 2⟩ []).trans ?_
    rw [Real.exp_log (by norm_num), weight_true]
    norm_num
  apply lone_differs Real.exp (by rw [besideEmpty_masks]; exact besideEmpty_prefixes)
    (by rw [besideEmpty_masks]; exact besideEmpty_lone)
  · rw [tokenReturns_first]
    · simp [besideEmpty]
    · simp [besideEmpty]
  · rw [energy]
    norm_num
  · rw [energy]
    norm_num

end LLMFusion.CoreAlgos
