import LLMFusion.MegatronModelMerger
import Mathlib.Tactic.Ring
import Mathlib.Tactic.Linarith

/-! When the layers of a model can be dealt to the pipeline ranks: the search finds shards for all
ranks exactly where the smallest number of layers that the middle ranks can have leaves a layer
for the first rank and a layer for the last. -/

namespace LLMFusion.MegatronModelMerger
open Sorting List

/-- Every rank has layers, and together the ranks have all layers. -/
structure Shares (layerNum ppSize : Int) (shards : List Int) : Prop where
  ranks : shards.length = ppSize
  positive : ∀ shard ∈ shards, 0 < shard
  total : shards.sum = layerNum

/-- What is left for the first and the last rank is a layer for each, and not more than two middle
ranks have. -/
structure Fits (layerNum middleSize middleLayerNum : Int) : Prop where
  left : 2 ≤ layerNum - middleLayerNum * middleSize
  covered : layerNum - middleLayerNum * middleSize ≤ 2 * middleLayerNum

variable {layerNum ppSize middleSize middleLayerNum : Int} {strategy : ShardsStrategy}

theorem shardsStrategy_isSome :
    (shardsStrategy layerNum middleSize middleLayerNum).isSome ↔ Fits layerNum middleSize middleLayerNum := by
  simp only [shardsStrategy]
  split
  next fits => exact ⟨fun _ => ⟨by omega, by omega⟩, fun _ => rfl⟩
  next unfit =>
    constructor
    · intro impossible
      cases impossible
    · intro fits
      have left := fits.left
      have covered := fits.covered
      exact absurd (by omega) unfit

theorem shardsStrategy_shares (found : shardsStrategy layerNum (ppSize - 2) middleLayerNum = some strategy)
    (many : 2 < ppSize) : Shares layerNum ppSize strategy.shards := by
  simp only [shardsStrategy] at found
  split at found
  next fits =>
    obtain ⟨⟨first, upper⟩, last, _⟩ := fits
    cases found
    constructor
    · simp only [length_append, length_cons, length_nil, length_replicate]
      omega
    · intro shard member
      simp only [mem_append, mem_singleton, mem_replicate] at member
      obtain (rfl | ⟨_, rfl⟩) | rfl := member
      · exact first
      · exact Int.lt_of_lt_of_le first upper
      · exact last
    · have middle : ((ppSize - 2).toNat : Int) = ppSize - 2 := Int.toNat_of_nonneg (by omega)
      simp only [sum_append, sum_singleton, sum_replicate, nsmul_eq_mul, middle]
      ring
  next => cases found

theorem mem_shardsStrategies (found : strategy ∈ shardsStrategies layerNum (ppSize - 2)) (many : 2 < ppSize) :
    Shares layerNum ppSize strategy.shards := by
  obtain ⟨_, _, found⟩ := mem_filterMap.mp found
  exact shardsStrategy_shares found many

theorem Fits.inside (fits : Fits layerNum middleSize middleLayerNum) (positive : 0 < middleSize) :
    0 ≤ middleLayerNum ∧ middleLayerNum < layerNum := by
  have left := fits.left
  have covered := fits.covered
  have several : 0 ≤ middleLayerNum := by omega
  have more : middleLayerNum * 1 ≤ middleLayerNum * middleSize := Int.mul_le_mul_of_nonneg_left positive several
  exact ⟨several, by omega⟩

theorem shardsStrategies_ne_nil (positive : 0 < middleSize) :
    shardsStrategies layerNum middleSize ≠ [] ↔ ∃ middleLayerNum, Fits layerNum middleSize middleLayerNum := by
  constructor
  · intro several
    obtain ⟨strategy, member⟩ := exists_mem_of_ne_nil _ several
    obtain ⟨middleLayerNum, _, found⟩ := mem_filterMap.mp member
    exact ⟨middleLayerNum, shardsStrategy_isSome.mp (found ▸ rfl)⟩
  · rintro ⟨middleLayerNum, fits⟩
    obtain ⟨strategy, found⟩ := Option.isSome_iff_exists.mp (shardsStrategy_isSome.mpr fits)
    obtain ⟨several, less⟩ := fits.inside positive
    have inside : middleLayerNum.toNat ∈ range layerNum.toNat := mem_range.mpr (by omega)
    have member : strategy ∈ shardsStrategies layerNum middleSize :=
      mem_filterMap.mpr ⟨middleLayerNum.toNat, inside, by rwa [Int.toNat_of_nonneg several]⟩
    exact ne_nil_of_mem member

/-- If any number of layers fits for the middle ranks, then the average over all ranks, rounded
up, does. -/
theorem exists_fits_iff (positive : 0 < ppSize) (many : 2 < ppSize) :
    (∃ middleLayerNum, Fits layerNum (ppSize - 2) middleLayerNum) ↔
      (layerNum + ppSize - 1) / ppSize * (ppSize - 2) + 2 ≤ layerNum := by
  have lower := Int.ediv_mul_le (layerNum + ppSize - 1) (Int.ne_of_gt positive)
  have upper := Int.lt_ediv_add_one_mul_self (layerNum + ppSize - 1) positive
  generalize average : (layerNum + ppSize - 1) / ppSize = rounded at lower upper ⊢
  constructor
  · rintro ⟨middleLayerNum, fits⟩
    have left := fits.left
    have covered := fits.covered
    have least : rounded < middleLayerNum + 1 := by
      apply lt_of_mul_lt_mul_right _ (Int.le_of_lt positive)
      linarith
    have fewer : rounded * (ppSize - 2) ≤ middleLayerNum * (ppSize - 2) :=
      Int.mul_le_mul_of_nonneg_right (by omega) (by omega)
    omega
  · intro enough
    exact ⟨rounded, by omega, by linarith⟩

/-- The search succeeds as soon as it has a strategy: any has the layers it is checked for. -/
theorem search_returns (many : 2 < ppSize) (enough : ppSize ≤ layerNum) :
    (∃ shards, getDynamicPipelineShards layerNum ppSize = .ok shards ∧ Shares layerNum ppSize shards) ↔
      shardsStrategies layerNum (ppSize - 2) ≠ [] := by
  have perm := sorted_perm (fun first second : ShardsStrategy => decide (first.diff < second.diff))
    (shardsStrategies layerNum (ppSize - 2))
  simp only [getDynamicPipelineShards, Int.not_lt.mpr enough, show ¬ ppSize < 1 by omega, show ¬ ppSize = 1 by omega,
    show ¬ ppSize = 2 by omega, ite_false]
  split
  next none =>
    rw [none] at perm
    simp [nil_perm.mp perm]
  next best others found =>
    have member : best ∈ shardsStrategies layerNum (ppSize - 2) := perm.mem_iff.mp (found ▸ mem_cons_self)
    have shares := mem_shardsStrategies member many
    rw [if_pos shares.total]
    exact ⟨fun _ => ne_nil_of_mem member, fun _ => ⟨best.shards, rfl, shares⟩⟩

theorem one_shares (enough : 1 ≤ layerNum) : Shares layerNum 1 [layerNum] := by
  refine ⟨rfl, ?_, sum_singleton⟩
  intro shard member
  cases mem_singleton.mp member
  exact enough

theorem two_shares (enough : 2 ≤ layerNum) : Shares layerNum 2 [layerNum / 2, layerNum - layerNum / 2] := by
  refine ⟨rfl, ?_, ?_⟩
  · intro shard member
    simp only [mem_cons, not_mem_nil, or_false] at member
    omega
  · simp only [sum_cons, sum_nil]
    omega

theorem getDynamicPipelineShards_iff (positive : 1 ≤ ppSize) (enough : ppSize ≤ layerNum) :
    (∃ shards, getDynamicPipelineShards layerNum ppSize = .ok shards ∧ Shares layerNum ppSize shards) ↔
      ppSize ≤ 2 ∨ (layerNum + ppSize - 1) / ppSize * (ppSize - 2) + 2 ≤ layerNum := by
  by_cases many : 2 < ppSize
  · rw [search_returns many enough, shardsStrategies_ne_nil (by omega), exists_fits_iff (by omega) many,
      or_iff_right (by omega)]
  · refine iff_of_true ?_ (Or.inl (by omega))
    obtain rfl | rfl : ppSize = 1 ∨ ppSize = 2 := by omega
    · refine ⟨[layerNum], ?_, one_shares enough⟩
      simp [getDynamicPipelineShards, Int.not_lt.mpr enough]
    · refine ⟨[layerNum / 2, layerNum - layerNum / 2], ?_, two_shares enough⟩
      simp [getDynamicPipelineShards, Int.not_lt.mpr enough]

theorem getDynamicPipelineShards_four_of_eight : ∃ shards, getDynamicPipelineShards 8 4 = .ok shards ∧ Shares 8 4 shards :=
  (getDynamicPipelineShards_iff (by decide) (by decide)).mpr (Or.inr (by decide))

theorem getDynamicPipelineShards_four_of_five :
    ¬ ∃ shards, getDynamicPipelineShards 5 4 = .ok shards ∧ Shares 5 4 shards := by
  have failed : getDynamicPipelineShards 5 4 = .error .indexError := rfl
  rintro ⟨shards, returned, _⟩
  cases failed.symm.trans returned

end LLMFusion.MegatronModelMerger
