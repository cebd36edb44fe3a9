import LLMFusion.Rlla
import LLMFusion.Lib.Indexing
import Mathlib.Algebra.Order.Field.Basic
import Mathlib.Algebra.BigOperators.Group.Finset.Basic
import Mathlib.Tactic.Linarith
import Mathlib.Tactic.Ring

/-! The reward for tool calls is full exactly when the predicted calls are the true ones in some order.
A true call that gets its full score has taken an equal call, and equal calls are interchangeable, so
the greedy choice never takes a call that a later one needs. -/

namespace LLMFusion.Rlla
open List

variable {K : Type} [Field K] [LinearOrder K] {ω : Type}

/-! ### Names and keys -/

theorem intersection_card (list1 list2 : List String) :
    intersection list1 list2 = Multiset.card ((list1 : Multiset String) ∩ (list2 : Multiset String)) := by
  have distinct : (list1.dedup.filter (· ∈ list2)).Nodup := (nodup_dedup list1).filter _
  have keys : (list1.dedup.filter (· ∈ list2)).toFinset = ((list1 : Multiset String) ∩ (list2 : Multiset String)).toFinset := by
    ext key
    simp
  have counts : ∀ key, min (list1.count key) (list2.count key) = ((list1 : Multiset String) ∩ (list2 : Multiset String)).count key := by
    intro key
    rw [Multiset.count_inter, Multiset.coe_count, Multiset.coe_count]
  rw [intersection, ← sum_toFinset _ distinct, keys, ← Multiset.toFinset_sum_count_eq]
  exact Finset.sum_congr rfl (fun key _ => counts key)

theorem intersection_left (list1 list2 : List String) : intersection list1 list2 ≤ list1.length := by
  rw [intersection_card]
  exact Multiset.card_le_card Multiset.inter_le_left

theorem intersection_right (list1 list2 : List String) : intersection list1 list2 ≤ list2.length := by
  rw [intersection_card]
  exact Multiset.card_le_card Multiset.inter_le_right

theorem intersection_full {list1 list2 : List String} :
    intersection list1 list2 = list1.length ∧ intersection list1 list2 = list2.length ↔ list1.Perm list2 := by
  rw [intersection_card]
  constructor
  · intro full
    have first := Multiset.eq_of_le_of_card_le (Multiset.inter_le_left (s := (list1 : Multiset String)) (t := list2)) full.1.ge
    have second := Multiset.eq_of_le_of_card_le (Multiset.inter_le_right (s := (list1 : Multiset String)) (t := list2)) full.2.ge
    exact Multiset.coe_eq_coe.mp (first.symm.trans second)
  · intro same
    have equal : (list1 : Multiset String) = list2 := Multiset.coe_eq_coe.mpr same
    have whole : (list2 : Multiset String) ∩ list2 = list2 :=
      le_antisymm Multiset.inter_le_left (Multiset.le_inter le_rfl le_rfl)
    rw [equal, whole]
    exact ⟨same.length_eq.symm, rfl⟩

/-! ### One call -/

section Score
variable [IsStrictOrderedRing K]

theorem matchScore_bounds (list1 list2 : List String) :
    0 ≤ matchScore (K := K) list1 list2 ∧ matchScore (K := K) list1 list2 ≤ 1 ∧
      (matchScore (K := K) list1 list2 = 1 ↔ list1.Perm list2) := by
  rw [matchScore]
  by_cases same : list1 = list2
  · rw [if_pos same]
    exact ⟨zero_le_one, le_rfl, fun _ => List.Perm.of_eq same, fun _ => rfl⟩
  rw [if_neg same]
  by_cases empty : list1 = [] ∨ list2 = []
  · rw [if_pos empty]
    refine ⟨le_rfl, zero_le_one, fun impossible => absurd impossible zero_ne_one, ?_⟩
    intro reordered
    cases empty with
    | inl empty =>
      subst empty
      exact absurd reordered.nil_eq same
    | inr empty =>
      subst empty
      exact absurd reordered.eq_nil same
  rw [if_neg empty]
  have left := intersection_left list1 list2
  have right := intersection_right list1 list2
  have some := length_pos_of_ne_nil (fun nothing => empty (Or.inl nothing))
  have positive : (0 : Int) < list1.length + list2.length - intersection list1 list2 := by omega
  have cast : ((list1.length + list2.length - intersection list1 list2 : Int) : K) =
      list1.length + list2.length - intersection list1 list2 := by push_cast; ring
  have positive' : (0 : K) < list1.length + list2.length - intersection list1 list2 := by
    rw [← cast]
    exact Int.cast_pos.mpr positive
  rw [if_pos positive, cast]
  have left' : (intersection list1 list2 : K) ≤ list1.length := Nat.cast_le.mpr left
  have right' : (intersection list1 list2 : K) ≤ list2.length := Nat.cast_le.mpr right
  refine ⟨div_nonneg (Nat.cast_nonneg _) positive'.le, (div_le_one positive').mpr (by linarith), ?_⟩
  rw [div_eq_one_iff_eq positive'.ne', ← intersection_full]
  constructor
  · intro full
    have first : (intersection list1 list2 : K) = list1.length := by linarith
    have second : (intersection list1 list2 : K) = list2.length := by linarith
    exact ⟨Nat.cast_injective first, Nat.cast_injective second⟩
  · intro full
    have first : (intersection list1 list2 : K) = list1.length := congrArg Nat.cast full.1
    have second : (intersection list1 list2 : K) = list2.length := congrArg Nat.cast full.2
    linarith

def fullScore (tool : Tool ω) : K := 1 + tool.parameters.length

theorem fullScore_pos (tool : Tool ω) : (0 : K) < fullScore tool :=
  add_pos_of_pos_of_nonneg zero_lt_one (Nat.cast_nonneg _)

variable [DecidableEq ω]

theorem correctnessScore_full {gtTool pdTool : Tool ω}
    (keys : (gtTool.parameters.map Prod.fst).Perm (pdTool.parameters.map Prod.fst)) :
    correctnessScore gtTool.parameters pdTool.parameters = gtTool.parameters.length ↔
      gtTool.parameters.Perm pdTool.parameters := by
  rw [correctnessScore, countP_eq_length]
  constructor
  · intro right
    have inside : gtTool.parameters ⊆ pdTool.parameters :=
      fun parameter member => Indexing.mem_of_lookup (of_decide_eq_true (right parameter member))
    have lengths : pdTool.parameters.length ≤ gtTool.parameters.length := by
      have same := keys.length_eq
      rw [length_map, length_map] at same
      exact same.ge
    exact ((List.Nodup.of_map _ gtTool.distinct).subperm inside).perm_of_length_le lengths
  · intro same parameter member
    exact decide_eq_true (Indexing.lookup_of_mem pdTool.distinct (same.subset member))

theorem totalScore_bounds (gtTool pdTool : Tool ω) : totalScore gtTool pdTool ≤ fullScore (K := K) gtTool ∧
    (totalScore gtTool pdTool = fullScore (K := K) gtTool ↔ gtTool.parameters.Perm pdTool.parameters) := by
  obtain ⟨_, atMost, one⟩ := matchScore_bounds (K := K) (gtTool.parameters.map Prod.fst) (pdTool.parameters.map Prod.fst)
  have counted : correctnessScore gtTool.parameters pdTool.parameters ≤ gtTool.parameters.length := countP_le_length
  have counted' : (correctnessScore gtTool.parameters pdTool.parameters : K) ≤ gtTool.parameters.length := Nat.cast_le.mpr counted
  rw [totalScore, fullScore]
  refine ⟨add_le_add atMost counted', ?_⟩
  constructor
  · intro full
    have keys : matchScore (K := K) (gtTool.parameters.map Prod.fst) (pdTool.parameters.map Prod.fst) = 1 := by linarith
    have values : (correctnessScore gtTool.parameters pdTool.parameters : K) = gtTool.parameters.length := by linarith
    exact (correctnessScore_full (one.mp keys)).mp (Nat.cast_injective values)
  · intro same
    have keys := same.map Prod.fst
    rw [one.mpr keys, (correctnessScore_full keys).mpr same]

end Score

/-! ### The best call that is left -/

def Candidate (gtTool : Tool ω) (used : List Nat) (pdTool : Tool ω × Nat) : Prop :=
  pdTool.2 ∉ used ∧ pdTool.1.name = gtTool.name

section Best
variable [DecidableEq ω] {gtTool : Tool ω} {used : List Nat}

/-- What the loop has found, when it began with `start` and has seen `seen`. -/
structure Found (gtTool : Tool ω) (used : List Nat) (start : Best K) (seen : List (Tool ω × Nat)) (best : Best K) : Prop where
  rises : start.score ≤ best.score
  above : ∀ pdTool ∈ seen, Candidate gtTool used pdTool → totalScore gtTool pdTool.1 ≤ best.score
  taken : best = start ∨ ∃ pdTool ∈ seen, Candidate gtTool used pdTool ∧ best = ⟨totalScore gtTool pdTool.1, some pdTool.2⟩ ∧
    start.score < best.score

theorem consider_found (start : Best K) (pdTool : Tool ω × Nat) :
    Found gtTool used start [pdTool] (consider gtTool used start pdTool) := by
  rw [consider]
  split
  · rename_i skipped
    refine ⟨le_rfl, ?_, Or.inl rfl⟩
    intro other member candidate
    cases mem_singleton.mp member
    exact absurd skipped (not_or.mpr ⟨candidate.1, not_not.mpr candidate.2⟩)
  · rename_i looked
    have candidate : Candidate gtTool used pdTool := ⟨fun taken => looked (Or.inl taken), not_not.mp (fun other => looked (Or.inr other))⟩
    split
    · rename_i better
      refine ⟨better.le, ?_, Or.inr ⟨pdTool, mem_cons_self, candidate, rfl, better⟩⟩
      intro other member _
      exact (mem_singleton.mp member) ▸ le_rfl
    · rename_i worse
      refine ⟨le_rfl, ?_, Or.inl rfl⟩
      intro other member _
      exact (mem_singleton.mp member) ▸ not_lt.mp worse

theorem Found.trans {start middle best : Best K} {first second : List (Tool ω × Nat)} (found : Found gtTool used start first middle)
    (found' : Found gtTool used middle second best) : Found gtTool used start (first ++ second) best := by
  refine ⟨found.rises.trans found'.rises, ?_, ?_⟩
  · intro pdTool member candidate
    cases mem_append.mp member with
    | inl member => exact (found.above pdTool member candidate).trans found'.rises
    | inr member => exact found'.above pdTool member candidate
  · cases found'.taken with
    | inl same =>
      refine same ▸ found.taken.imp_right ?_
      intro taken
      obtain ⟨pdTool, member, taken⟩ := taken
      exact ⟨pdTool, mem_append_left _ member, taken⟩
    | inr taken =>
      obtain ⟨pdTool, member, candidate, score, higher⟩ := taken
      exact Or.inr ⟨pdTool, mem_append_right _ member, candidate, score, found.rises.trans_lt higher⟩

theorem foldl_found (start : Best K) (pdTools : List (Tool ω × Nat)) :
    Found gtTool used start pdTools (pdTools.foldl (consider gtTool used) start) := by
  induction pdTools generalizing start with
  | nil => exact ⟨le_rfl, fun _ member => absurd member not_mem_nil, Or.inl rfl⟩
  | cons pdTool pdTools ih => exact (consider_found start pdTool).trans (ih _)

end Best

variable {used : List Nat}

def left (used : List Nat) (pdTools : List (Tool ω)) : List (Tool ω) :=
  (pdTools.zipIdx.filter (fun pdTool => pdTool.2 ∉ used)).map Prod.fst

theorem left_none (pdTools : List (Tool ω)) : left [] pdTools = pdTools := by
  simp [left]

theorem left_cons {pdTools : List (Tool ω)} {pdTool : Tool ω × Nat} (member : pdTool ∈ pdTools.zipIdx) (unused : pdTool.2 ∉ used) :
    (left used pdTools).Perm (pdTool.1 :: left (pdTool.2 :: used) pdTools) := by
  obtain ⟨before, after, split⟩ := append_of_mem member
  have distinct : (pdTools.zipIdx.map Prod.snd).Nodup := by
    rw [zipIdx_map_snd]
    exact nodup_range'
  rw [split, map_append, map_cons] at distinct
  have apart := nodup_middle.mp distinct
  rw [← map_append, nodup_cons] at apart
  have others : ∀ other ∈ before ++ after, (decide (other.2 ∉ used)) = decide (other.2 ∉ pdTool.2 :: used) := by
    intro other member
    have different : other.2 ≠ pdTool.2 := fun same => apart.1 (mem_map.mpr ⟨other, member, same⟩)
    simp [different]
  have first := filter_congr (fun other member => others other (mem_append_left _ member))
  have second := filter_congr (fun other member => others other (mem_append_right _ member))
  have here : decide (pdTool.2 ∉ used) = true := decide_eq_true unused
  have gone : decide (pdTool.2 ∉ pdTool.2 :: used) = false := decide_eq_false (not_not.mpr mem_cons_self)
  simp only [left, split, filter_append, filter_cons, here, gone, if_true, Bool.false_eq_true, if_false, first, second,
    map_append, map_cons]
  exact perm_middle

theorem mem_left {pdTools : List (Tool ω)} {tool : Tool ω} (member : tool ∈ left used pdTools) :
    ∃ pdTool ∈ pdTools.zipIdx, pdTool.2 ∉ used ∧ pdTool.1 = tool := by
  obtain ⟨pdTool, member, same⟩ := mem_map.mp member
  obtain ⟨member, unused⟩ := mem_filter.mp member
  exact ⟨pdTool, member, of_decide_eq_true unused, same⟩

/-! ### Calls in another order -/

def Tool.dict (tool : Tool ω) : String × Multiset (String × ω) := (tool.name, tool.parameters)

theorem same_iff {first second : Tool ω} : first.Same second ↔ first.dict = second.dict := by
  rw [Tool.dict, Tool.dict, Prod.mk.injEq, Multiset.coe_eq_coe]
  rfl

theorem forall₂_same {first second : List (Tool ω)} :
    List.Forall₂ Tool.Same first second ↔ first.map Tool.dict = second.map Tool.dict := by
  have dicts : (Tool.Same : Tool ω → Tool ω → Prop) = fun first second => first.dict = second.dict := by
    funext first second
    exact propext same_iff
  rw [dicts, ← forall₂_eq_eq_eq, forall₂_map_left_iff, forall₂_map_right_iff]

/-- The predicted calls are the true calls in some order. -/
def Permuted (gtTools pdTools : List (Tool ω)) : Prop :=
  ∃ calls : List (Tool ω), calls.Perm pdTools ∧ List.Forall₂ Tool.Same gtTools calls

theorem permuted_iff {gtTools pdTools : List (Tool ω)} :
    Permuted gtTools pdTools ↔ (gtTools.map Tool.dict).Perm (pdTools.map Tool.dict) := by
  constructor
  · intro permuted
    obtain ⟨calls, reordered, same⟩ := permuted
    rw [forall₂_same.mp same]
    exact reordered.map _
  · intro reordered
    have composed : Relation.Comp (fun dicts calls => dicts = map Tool.dict calls) List.Perm (gtTools.map Tool.dict) pdTools := by
      rw [eq_map_comp_perm]
      exact reordered
    obtain ⟨calls, same, reordered'⟩ := composed
    exact ⟨calls, reordered', forall₂_same.mpr same⟩

/-! ### The loop over the true calls -/

section Run
variable [IsStrictOrderedRing K] [DecidableEq ω] {gtTool : Tool ω} {pdTools : List (Tool ω)}

structure Step (pdTools : List (Tool ω)) (gtTool : Tool ω) (state next : Tally K) : Prop where
  maximum : next.localMaxPossible = state.localMaxPossible + fullScore gtTool
  rises : state.score ≤ next.score
  bounded : next.score ≤ state.score + fullScore gtTool
  full : gtTool.dict ∈ (left state.used pdTools).map Tool.dict → next.score = state.score + fullScore gtTool
  takes : next.score = state.score + fullScore gtTool →
    ((left state.used pdTools).map Tool.dict).Perm (gtTool.dict :: (left next.used pdTools).map Tool.dict)

theorem bestMatch_full {state : Tally K} (equal : gtTool.dict ∈ (left state.used pdTools).map Tool.dict) :
    fullScore gtTool ≤ (bestMatch (K := K) gtTool state.used pdTools).score := by
  have found : Found gtTool state.used ⟨0, none⟩ pdTools.zipIdx (bestMatch (K := K) gtTool state.used pdTools) := foldl_found _ _
  obtain ⟨tool, member, same⟩ := mem_map.mp equal
  obtain ⟨pdTool, place, unused, rfl⟩ := mem_left member
  have same := same_iff.mpr same.symm
  have full := (totalScore_bounds (K := K) gtTool pdTool.1).2.mpr same.2
  rw [← full]
  exact found.above pdTool place ⟨unused, same.1.symm⟩

theorem tally_step (state : Tally K) : Step pdTools gtTool state (tally pdTools state gtTool) := by
  have found : Found gtTool state.used ⟨0, none⟩ pdTools.zipIdx (bestMatch (K := K) gtTool state.used pdTools) := foldl_found _ _
  cases found.taken with
  | inl none =>
    have next : tally pdTools state gtTool = ⟨state.score, state.localMaxPossible + fullScore gtTool, state.used⟩ := by
      rw [tally, none]
      rfl
    rw [next]
    refine ⟨rfl, le_rfl, le_add_of_nonneg_right (fullScore_pos gtTool).le, ?_, ?_⟩
    · intro equal
      have full := bestMatch_full equal
      rw [none] at full
      exact absurd full (not_le.mpr (fullScore_pos gtTool))
    · intro full
      have zero : fullScore (K := K) gtTool = 0 := left_eq_add.mp full
      exact absurd zero (fullScore_pos gtTool).ne'
  | inr some =>
    obtain ⟨pdTool, member, candidate, best, higher⟩ := some
    have next : tally pdTools state gtTool =
        ⟨state.score + totalScore gtTool pdTool.1, state.localMaxPossible + fullScore gtTool, pdTool.2 :: state.used⟩ := by
      rw [tally, best]
      rfl
    obtain ⟨atMost, equal⟩ := totalScore_bounds (K := K) gtTool pdTool.1
    have positive : 0 < totalScore (K := K) gtTool pdTool.1 := by
      rw [best] at higher
      exact higher
    rw [next]
    refine ⟨rfl, le_add_of_nonneg_right positive.le, add_le_add_right atMost _, ?_, ?_⟩
    · intro dict
      have full := bestMatch_full dict
      rw [best] at full
      exact congrArg (state.score + ·) (atMost.antisymm full)
    · intro full
      have same : gtTool.Same pdTool.1 := ⟨candidate.2.symm, equal.mp (add_left_cancel full)⟩
      rw [same_iff.mp same, ← map_cons]
      exact (left_cons member candidate.1).map _

def fullScores (tools : List (Tool ω)) : K := (tools.map fullScore).sum

theorem foldl_tally (pdTools gtTools : List (Tool ω)) (state : Tally K) :
    (gtTools.foldl (tally pdTools) state).localMaxPossible = state.localMaxPossible + fullScores gtTools ∧
    state.score ≤ (gtTools.foldl (tally pdTools) state).score ∧
    (gtTools.foldl (tally pdTools) state).score ≤ state.score + fullScores gtTools ∧
    ((gtTools.foldl (tally pdTools) state).score = state.score + fullScores gtTools ↔
      ∃ rest, ((left state.used pdTools).map Tool.dict).Perm (gtTools.map Tool.dict ++ rest)) := by
  induction gtTools generalizing state with
  | nil =>
    have none : fullScores (K := K) ([] : List (Tool ω)) = 0 := rfl
    rw [none, add_zero, add_zero]
    exact ⟨rfl, le_rfl, le_rfl, fun _ => ⟨_, List.Perm.refl _⟩, fun _ => rfl⟩
  | cons gtTool gtTools ih =>
    have step : Step pdTools gtTool state (tally pdTools state gtTool) := tally_step state
    obtain ⟨maximum, rises, bounded, full⟩ := ih (tally pdTools state gtTool)
    have total : fullScores (K := K) (gtTool :: gtTools) = fullScore gtTool + fullScores gtTools := rfl
    simp only [foldl_cons, total, ← add_assoc]
    refine ⟨?_, step.rises.trans rises, bounded.trans (add_le_add_left step.bounded _), ?_⟩
    · rw [maximum, step.maximum]
    · have here := step.bounded
      constructor
      · intro all
        have first : (tally pdTools state gtTool).score = state.score + fullScore gtTool := by linarith
        obtain ⟨rest, others⟩ := full.mp (by linarith)
        exact ⟨rest, (step.takes first).trans (others.cons _)⟩
      · intro equal
        obtain ⟨rest, equal⟩ := equal
        have first := step.full (equal.symm.subset mem_cons_self)
        have others := ((step.takes first).symm.trans equal).cons_inv
        rw [full.mpr ⟨rest, others⟩, first]

omit [DecidableEq ω] in
theorem fullScores_nonneg (tools : List (Tool ω)) : (0 : K) ≤ fullScores tools := by
  induction tools with
  | nil => exact le_rfl
  | cons tool tools ih => exact add_nonneg (fullScore_pos tool).le ih

omit [DecidableEq ω] in
theorem permuted_of_names {gtTools : List (Tool ω)} (names : (gtTools.map Tool.name).Perm (pdTools.map Tool.name)) :
    (∃ rest, (pdTools.map Tool.dict).Perm (gtTools.map Tool.dict ++ rest)) ↔ Permuted gtTools pdTools := by
  rw [permuted_iff]
  constructor
  · intro all
    obtain ⟨rest, all⟩ := all
    have sizes := all.length_eq
    have sizes' := names.length_eq
    rw [length_append, length_map, length_map] at sizes
    rw [length_map, length_map] at sizes'
    have none : rest = [] := eq_nil_of_length_eq_zero (by omega)
    rw [none, append_nil] at all
    exact all.symm
  · intro same
    exact ⟨[], (append_nil _).symm ▸ same.symm⟩

theorem share_bounds {score whole range : K} (positive : 0 < whole) (wide : 0 < range) (least : 0 ≤ score) (atMost : score ≤ whole) :
    0 ≤ range * score / whole ∧ range * score / whole ≤ range ∧ (range * score / whole = range ↔ score = whole) := by
  refine ⟨div_nonneg (mul_nonneg wide.le least) positive.le, ?_, ?_⟩
  · rw [div_le_iff₀ positive]
    exact mul_le_mul_of_nonneg_left atMost wide.le
  · rw [div_eq_iff positive.ne', mul_right_inj' wide.ne']

/-- The reward is between its bounds, and full exactly when the predicted calls are the true ones in some order. -/
theorem computeToolCallReward_full (gtTools pdTools : List (Tool ω)) {maxReward minReward : K} (less : minReward < maxReward) :
    minReward ≤ computeToolCallReward gtTools pdTools maxReward minReward ∧
    computeToolCallReward gtTools pdTools maxReward minReward ≤ maxReward ∧
    (computeToolCallReward gtTools pdTools maxReward minReward = maxReward ↔ Permuted gtTools pdTools) := by
  rw [computeToolCallReward]
  split
  · rename_i equal
    exact ⟨less.le, le_rfl, fun _ => ⟨pdTools, List.Perm.refl _, equal⟩, fun _ => rfl⟩
  obtain ⟨least, atMost, one⟩ := matchScore_bounds (K := K) (gtTools.map Tool.name) (pdTools.map Tool.name)
  obtain ⟨maximum, rises, bounded, full⟩ :=
    foldl_tally pdTools gtTools (⟨matchScore (gtTools.map Tool.name) (pdTools.map Tool.name), 1, []⟩ : Tally K)
  have scores := fullScores_nonneg (K := K) gtTools
  obtain ⟨above, below, whole⟩ := share_bounds (maximum ▸ (by linarith : (0 : K) < 1 + fullScores gtTools)) (sub_pos.mpr less)
    (least.trans rises) (bounded.trans (maximum ▸ add_le_add_left atMost _))
  refine ⟨by linarith, by linarith, ?_⟩
  rw [← eq_sub_iff_add_eq, whole, maximum]
  rw [left_none] at full
  constructor
  · intro all
    have names : matchScore (K := K) (gtTools.map Tool.name) (pdTools.map Tool.name) = 1 := by linarith
    exact (permuted_of_names (one.mp names)).mp (full.mp (all.trans (congrArg (· + fullScores gtTools) names.symm)))
  · intro permuted
    have names : (gtTools.map Tool.name).Perm (pdTools.map Tool.name) := by
      have reordered := (permuted_iff.mp permuted).map Prod.fst
      rw [List.map_map, List.map_map] at reordered
      exact reordered
    rw [full.mpr ((permuted_of_names names).mpr permuted), one.mpr names]

end Run

def forecast (days : Nat) : Tool Nat := ⟨"forecast", [("place", 1), ("days", days)], by simp⟩

/-- The same call, written the other way. -/
def forecast' (days : Nat) : Tool Nat := ⟨"forecast", [("days", days), ("place", 1)], by simp⟩

theorem forecast_same (days : Nat) : (forecast days).Same (forecast' days) := ⟨rfl, List.Perm.swap _ _ _⟩

theorem computeToolCallReward_forecast :
    (-3 : ℚ) < 3 ∧ computeToolCallReward [forecast 1, forecast 2] [forecast' 2, forecast' 1] (3 : ℚ) (-3) = 3 := by
  have less : (-3 : ℚ) < 3 := by norm_num
  have permuted : Permuted [forecast 1, forecast 2] [forecast' 2, forecast' 1] :=
    ⟨[forecast' 1, forecast' 2], List.Perm.swap _ _ _, .cons (forecast_same 1) (.cons (forecast_same 2) .nil)⟩
  exact ⟨less, (computeToolCallReward_full _ _ less).2.2.mpr permuted⟩

end LLMFusion.Rlla
