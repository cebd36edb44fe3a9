import LLMFusion.Proofs.BalancedPartitions

/-! How far the sums of the partitions are apart. A merge never widens what holds of both sides, so that
the result is as level as the states the loop starts from. -/

namespace LLMFusion.SeqlenBalancing
open Sorting Differencing KarmarkarKarp Fallible List

/-! ### What is claimed -/

/-- The sum of the values that a partition names. -/
def workload (seqlenList partition : List Nat) : Nat := (partition.map (seqlenList.getD · 0)).sum

def largest (values : List Nat) : Nat := values.max?.getD 0

def smallest (values : List Nat) : Nat := values.min?.getD 0

/-- The consecutive blocks of `k` values in increasing order. -/
def sortedBlocks (seqlenList : List Nat) (k : Nat) : List (List Nat) :=
  (List.range (seqlenList.length / k)).map (fun offset => ((sorted (fun a b => a < b) seqlenList).drop (offset * k)).take k)

def spreadBound (seqlenList : List Nat) (k : Nat) (equalSize : Bool) : Nat :=
  if equalSize then largest ((sortedBlocks seqlenList k).map (fun block => largest block - smallest block)) else largest seqlenList

/-! ### The states of the loop -/

def KarmarkarKarp.State.Reads (seqlenList : List Nat) {k : Nat} (state : State k) : Prop :=
  ∀ set ∈ state.sets, ∀ item ∈ set.items, seqlenList[item.1]? = some item.2

variable {seqlenList : List Nat} {k : Nat}

theorem KarmarkarKarp.State.Reads.merge {state other : State k} (first : state.Reads seqlenList)
    (second : other.Reads seqlenList) : (state.merge other).Reads seqlenList := by
  intro set member item inside
  have folded := (State.merge_perm state other).mem_iff.mp member
  obtain ⟨left, isLeft, right, isRight, rfl⟩ : ∃ left ∈ state.sets, ∃ right ∈ other.sets, set = left.merge right := by
    obtain ⟨index, bound, rfl⟩ := mem_iff_getElem.mp folded
    have same := other.count.trans state.count.symm
    have length := fold_length Set.merge same
    refine ⟨_, getElem_mem (by omega), _, getElem_mem (by omega), getElem_fold _ index bound (by omega) (by omega)⟩
  rw [Set.merge_items] at inside
  cases mem_append.mp inside with
  | inl old => exact first left isLeft item old
  | inr new => exact second right isRight item new

theorem workload_items {set : KarmarkarKarp.Set} (reads : ∀ item ∈ set.items, seqlenList[item.1]? = some item.2) :
    workload seqlenList (set.items.map Prod.fst) = set.sum := by
  rw [workload, map_map, set.sum_items]
  congr 1
  apply map_congr_left
  intro item member
  rw [Function.comp_apply, getD_eq_getElem?_getD, reads item member, Option.getD_some]

theorem initialStates_made {equalSize : Bool} {statesPq : List (State k)}
    (built : initialStates seqlenList k equalSize = .ok statesPq) : ∀ state ∈ statesPq,
      ∃ items, State.ofItems items k = .ok state ∧ (∀ item ∈ items, item.swap ∈ seqlenList.zipIdx) ∧
        if equalSize then ∃ offset < seqlenList.length / k,
            items = (((sorted pairLess seqlenList.zipIdx).drop (offset * k)).take k).map Prod.swap
          else items.length = 1 := by
  have listed {item : Nat × Nat} (member : item ∈ sorted pairLess seqlenList.zipIdx) : item ∈ seqlenList.zipIdx :=
    (sorted_perm pairLess _).mem_iff.mp member
  intro state member
  cases equalSize with
  | false =>
    obtain ⟨item, isItem, made⟩ := forall₂_right (mapM_succeeded built) member
    refine ⟨[item.swap], made, ?_, rfl⟩
    intro other isOther
    rw [mem_singleton.mp isOther, Prod.swap_swap]
    exact listed isItem
  | true =>
    simp only [initialStates, ite_true] at built
    split at built
    · cases built
    · split at built
      · cases built
      · obtain ⟨items, isGroup, made⟩ := forall₂_right (mapM_succeeded built) member
        obtain ⟨offset, inside, rfl⟩ := mem_map.mp isGroup
        refine ⟨_, made, ?_, offset, mem_range.mp inside, rfl⟩
        intro item isItem
        obtain ⟨pair, isPair, rfl⟩ := mem_map.mp isItem
        rw [Prod.swap_swap]
        exact listed (mem_of_mem_drop (mem_of_mem_take isPair))

variable {items : List (Nat × Nat)}

theorem ofItems_shape {state : State k} (made : State.ofItems items k = .ok state) :
    (items.length = 1 ∨ items.length = k) ∧ items.length ≤ k := by
  rw [State.ofItems] at made
  split at made
  · cases made
  · split at made
    · exact ⟨by omega, by assumption⟩
    · cases made

theorem ofItems_perm {state : State k} (made : State.ofItems items k = .ok state) :
    state.sets.Perm (items.map (fun item => Set.empty.add item.1 item.2) ++ replicate (k - items.length) Set.empty) := by
  obtain ⟨shape, inside⟩ := ofItems_shape made
  obtain ⟨state', made', perm⟩ := State.ofItems_spec shape inside
  cases made.symm.trans made'
  exact perm

theorem ofItems_reads {state : State k}
    (made : State.ofItems items k = .ok state) (listed : ∀ item ∈ items, item.swap ∈ seqlenList.zipIdx) : state.Reads seqlenList := by
  intro set member item inside
  cases mem_append.mp ((ofItems_perm made).mem_iff.mp member) with
  | inl filled =>
    obtain ⟨single, isSingle, rfl⟩ := mem_map.mp filled
    have same : item = single := mem_singleton.mp inside
    have found := mem_zipIdx_iff_getElem?.mp (listed single isSingle)
    exact same ▸ found
  | inr blank =>
    rw [(mem_replicate.mp blank).2] at inside
    cases inside

theorem ofItems_within {k bound : Nat} {state : State k} (made : State.ofItems items k = .ok state)
    (full : items.length = k) (close : ∀ first ∈ items, ∀ second ∈ items, first.2 ≤ second.2 + bound) : Within bound state.sums := by
  have values : ∀ sum ∈ state.sums, ∃ item ∈ items, item.2 = sum := by
    intro sum member
    obtain ⟨set, isSet, rfl⟩ := mem_map.mp member
    have filled := (ofItems_perm made).mem_iff.mp isSet
    rw [full, Nat.sub_self, replicate_zero, append_nil] at filled
    obtain ⟨item, isItem, rfl⟩ := mem_map.mp filled
    exact ⟨item, isItem, (Nat.zero_add item.2).symm⟩
  intro first isFirst second isSecond
  obtain ⟨item, member, rfl⟩ := values first isFirst
  obtain ⟨item', member', rfl⟩ := values second isSecond
  exact close item member item' member'

theorem sorted_values (seqlenList : List Nat) :
    (sorted pairLess seqlenList.zipIdx).map Prod.fst = sorted (fun a b => a < b) seqlenList := by
  have weak : Weak (fun a b : Nat => decide (a < b)) := ⟨by intro a b; simp; omega, by intro a b c; simp; omega⟩
  have perm : ((sorted pairLess seqlenList.zipIdx).map Prod.fst).Perm (sorted (fun a b => a < b) seqlenList) := by
    have firsts := (sorted_perm pairLess seqlenList.zipIdx).map Prod.fst
    rw [zipIdx_map_fst] at firsts
    exact firsts.trans (sorted_perm _ _).symm
  have pairs : ((sorted pairLess seqlenList.zipIdx).map Prod.fst).Pairwise (fun a b => a ≤ b) := by
    rw [pairwise_map]
    refine (pairLess_weak.sorted_pairwise seqlenList.zipIdx).imp ?_
    intro first second notLess
    simp only [pairLess, byKey] at notLess
    grind
  have values : (sorted (fun a b => a < b) seqlenList).Pairwise (fun a b => a ≤ b) := by
    refine (weak.sorted_pairwise seqlenList).imp ?_
    intro first second notLess
    simpa using notLess
  exact perm.eq_of_pairwise (fun first second _ _ => Nat.le_antisymm) pairs values

theorem initialStates_within {equalSize : Bool} {statesPq : List (State k)}
    (built : initialStates seqlenList k equalSize = .ok statesPq) :
    ∀ state ∈ statesPq, state.Reads seqlenList ∧ Within (spreadBound seqlenList k equalSize) state.sums := by
  intro state member
  obtain ⟨items, made, listed, shape⟩ := initialStates_made built state member
  refine ⟨ofItems_reads made listed, ?_⟩
  cases equalSize with
  | false =>
    obtain ⟨state', made', holds⟩ := State.ofItems_holds (ofItems_shape made).1 (ofItems_shape made).2
    cases made.symm.trans made'
    apply holds.within
    intro item isItem
    exact le_max?_getD_of_mem (fst_mem_of_mem_zipIdx (listed item isItem))
  | true =>
    obtain ⟨offset, inside, rfl⟩ := shape
    have fits : (offset + 1) * k ≤ seqlenList.length := Nat.le_trans (Nat.mul_le_mul_right k inside) (Nat.div_mul_le_self _ _)
    have full : ((((sorted pairLess seqlenList.zipIdx).drop (offset * k)).take k).map Prod.swap).length = k := by
      rw [Nat.succ_mul] at fits
      rw [length_map, length_take, length_drop, (sorted_perm _ _).length_eq, length_zipIdx]
      omega
    generalize isBlock : ((sorted (fun a b => a < b) seqlenList).drop (offset * k)).take k = block
    have isMember : block ∈ sortedBlocks seqlenList k := mem_map.mpr ⟨offset, mem_range.mpr inside, isBlock⟩
    have values {item : Nat × Nat} (isItem : item ∈ (((sorted pairLess seqlenList.zipIdx).drop (offset * k)).take k).map Prod.swap) :
        item.2 ∈ block := by
      rw [← isBlock, ← sorted_values, ← map_drop, ← map_take]
      obtain ⟨pair, isPair, rfl⟩ := mem_map.mp isItem
      exact mem_map_of_mem isPair
    have difference : largest block - smallest block ≤ spreadBound seqlenList k true :=
      le_max?_getD_of_mem (mem_map.mpr ⟨block, isMember, rfl⟩)
    apply ofItems_within made full
    intro first isFirst second isSecond
    have above : first.2 ≤ largest block := le_max?_getD_of_mem (values isFirst)
    have below : smallest block ≤ second.2 := min?_getD_le_of_mem (values isSecond)
    omega

theorem karmarkarKarp_returned {equalSize : Bool} {partitions : List (List Nat)}
    (returned : karmarkarKarp seqlenList k equalSize = .ok partitions) :
    ∃ statesPq final, initialStates seqlenList k equalSize = .ok statesPq ∧ Reduces State.merge statesPq final ∧
      partitions = final.getPartitions := by
  rw [karmarkarKarp] at returned
  cases built : initialStates seqlenList k equalSize with
  | error failure =>
    rw [built] at returned
    cases returned
  | ok statesPq =>
    rw [built] at returned
    cases nonempty : statesPq with
    | nil =>
      rw [nonempty] at returned
      cases returned
    | cons state rest =>
      obtain ⟨final, ended, reduces⟩ := mergeStates_reduces statesPq.length statesPq (by rw [nonempty]; exact cons_ne_nil _ _) le_rfl
      simp only [ended] at returned
      split at returned
      · cases returned
      · cases returned
        exact ⟨state :: rest, final, rfl, nonempty ▸ reduces, rfl⟩

/-! ### The bound -/

/-- The method returns where there are values and the partitions can be of one size, and no sum is above
another one by more than the bound. -/
theorem karmarkarKarp_spread (seqlenList : List Nat) (k : Nat) (equalSize : Bool) :
    (0 < k → seqlenList ≠ [] → (equalSize = true → k ∣ seqlenList.length) →
      ∃ partitions, karmarkarKarp seqlenList k equalSize = .ok partitions) ∧
    ∀ partitions, karmarkarKarp seqlenList k equalSize = .ok partitions → ∀ first ∈ partitions, ∀ second ∈ partitions,
      workload seqlenList first - workload seqlenList second ≤ spreadBound seqlenList k equalSize := by
  constructor
  · intro positive nonempty divides
    obtain ⟨final, returned, -⟩ := karmarkarKarp_final positive nonempty divides
    exact ⟨_, returned⟩
  · intro partitions returned first isFirst second isSecond
    obtain ⟨statesPq, final, built, reduces, rfl⟩ := karmarkarKarp_returned returned
    have initial := initialStates_within built
    have reads : final.Reads seqlenList := reduces.preserves (fun state member => (initial state member).1) (fun _ _ => State.Reads.merge)
    have within : Within (spreadBound seqlenList k equalSize) final.sums :=
      reduces.preserves (fun state member => (initial state member).2) (fun _ _ => State.within_merge)
    obtain ⟨left, isLeft, rfl⟩ := List.mem_map.mp isFirst
    obtain ⟨right, isRight, rfl⟩ := List.mem_map.mp isSecond
    rw [workload_items (reads left isLeft), workload_items (reads right isRight)]
    have close := within left.sum (List.mem_map_of_mem isLeft) right.sum (List.mem_map_of_mem isRight)
    omega

theorem karmarkarKarp_spread_six : ∃ partitions, karmarkarKarp [5, 1, 8, 2, 7, 7] 2 true = .ok partitions ∧
    ∀ first ∈ partitions, ∀ second ∈ partitions,
      workload [5, 1, 8, 2, 7, 7] first - workload [5, 1, 8, 2, 7, 7] second ≤ spreadBound [5, 1, 8, 2, 7, 7] 2 true := by
  obtain ⟨returns, bounded⟩ := karmarkarKarp_spread [5, 1, 8, 2, 7, 7] 2 true
  obtain ⟨partitions, returned⟩ := returns Nat.two_pos (List.cons_ne_nil _ _) (fun _ => ⟨3, rfl⟩)
  exact ⟨partitions, returned, bounded partitions returned⟩

end LLMFusion.SeqlenBalancing
