import LLMFusion.ForwardKl
import LLMFusion.Lib.Fallible
import LLMFusion.Lib.Slices
import Mathlib.Analysis.SpecialFunctions.Log.Basic

/-! The two computations of the divergence give the same loss and the same overlap. Every target
belongs to one shard, so that what the ranks reduce is what the whole row gives; the masses are
the same where the clamp changes nothing. -/

namespace LLMFusion.ForwardKl
open TopK Slices Fallible List

/-! ### Sums -/

theorem sum_map_pos {xs : List ℝ} (present : xs ≠ []) : 0 < (xs.map Real.exp).sum := by
  apply sum_pos _ _ (by simpa using present)
  intro y member
  obtain ⟨x, -, rfl⟩ := mem_map.mp member
  exact Real.exp_pos x

theorem sum_swap {ι κ : Type} (ranks : List ι) (targets : List κ) (f : ι → κ → ℝ) :
    (ranks.map (fun rank => (targets.map (f rank)).sum)).sum = (targets.map (fun target => (ranks.map (f · target)).sum)).sum := by
  induction targets with
  | nil => simp
  | cons target targets ih =>
    simp only [map_cons, sum_cons]
    rw [sum_map_add, ih]

theorem owner_iff {width id rank : Nat} (positive : 0 < width) : rank * width ≤ id ∧ id < rank * width + width ↔ rank = id / width := by
  constructor
  · rintro ⟨lower, upper⟩
    exact (Nat.div_eq_of_lt_le lower (by rw [Nat.succ_mul]; exact upper)).symm
  · rintro rfl
    exact ⟨Nat.div_mul_le_self id width, Nat.lt_div_mul_add positive⟩

theorem sum_owned {world width id : Nat} (positive : 0 < width) (inside : id < world * width) (x : ℝ) :
    ((range world).map (fun rank => if rank * width ≤ id ∧ id < rank * width + width then x else 0)).sum = x := by
  have rank : id / width < world := (Nat.div_lt_iff_lt_mul positive).mpr inside
  simp only [owner_iff positive]
  rw [sum_map_ite_eq, count_range, if_pos rank]
  simp

/-- Clamping leaves a sum of exponentials alone exactly when it leaves every number alone. -/
theorem sum_clamped {bound : ℝ} {xs : List ℝ} :
    (xs.map (fun x => Real.exp (max x bound))).sum = (xs.map Real.exp).sum ↔ ∀ x ∈ xs, bound ≤ x := by
  constructor
  · intro same x member
    by_contra below
    have larger : (xs.map Real.exp).sum < (xs.map (fun x => Real.exp (max x bound))).sum := by
      apply sum_lt_sum
      · intro y _
        exact Real.exp_le_exp.mpr (le_max_left y bound)
      · exact ⟨x, member, Real.exp_lt_exp.mpr (lt_max_of_lt_right (not_le.mp below))⟩
    exact absurd same larger.ne'
  · intro bounded
    apply congrArg sum
    apply map_congr_left
    intro x member
    rw [max_eq_left (bounded x member)]

/-! ### Log probabilities -/

theorem sum_shifted (xs : List ℝ) (shift : ℝ) : (xs.map (fun x => Real.exp (x - shift))).sum = (xs.map Real.exp).sum * Real.exp (-shift) := by
  rw [← sum_map_mul_right]
  simp only [sub_eq_add_neg, Real.exp_add]

theorem vocabParallelLogSoftmax_eq {shards : List (List ℝ)} (present : shards ≠ []) (filled : ∀ shard ∈ shards, shard ≠ []) :
    Megatron.vocabParallelLogSoftmax Real.exp Real.log shards =
      some (shards.map (fun shard => shard.map (fun logit => logit - Real.log (shards.flatten.map Real.exp).sum))) := by
  have maxima : shards.mapM max? = some (shards.map (fun shard => shard.max?.getD 0)) := by
    apply mapM_some
    intro shard member
    obtain ⟨most, found⟩ := Option.isSome_iff_exists.mp (isSome_max?_of_ne_nil (filled shard member))
    rw [found, Option.getD_some]
  obtain ⟨most, found⟩ := Option.isSome_iff_exists.mp
    (isSome_max?_of_ne_nil (l := shards.map (fun shard => shard.max?.getD 0)) (by simpa using present))
  have nonempty : shards.flatten ≠ [] := by
    obtain ⟨first, rest, rfl⟩ := exists_cons_of_ne_nil present
    rw [flatten_cons]
    exact append_ne_nil_of_left_ne_nil (filled first mem_cons_self) _
  have total : ((shards.map (fun shard => shard.map (fun logit => logit - most))).map (fun shard => (shard.map Real.exp).sum)).sum =
      (shards.flatten.map Real.exp).sum * Real.exp (-most) := by
    rw [← sum_shifted, map_flatten, sum_flatten, map_map, map_map]
    simp only [Function.comp_def, map_map]
  have logs : Real.log ((shards.flatten.map Real.exp).sum * Real.exp (-most)) = Real.log (shards.flatten.map Real.exp).sum - most := by
    rw [Real.log_mul (sum_map_pos nonempty).ne' (Real.exp_pos _).ne', Real.log_exp, sub_eq_add_neg]
  simp only [Megatron.vocabParallelLogSoftmax, maxima, found, Option.bind_eq_bind, Option.bind_some, total, logs]
  rw [map_map]
  apply congrArg some
  apply map_congr_left
  intro shard _
  rw [Function.comp_apply, map_map]
  apply map_congr_left
  intro logit _
  rw [Function.comp_apply]
  ring

/-! ### The student's top-k -/

theorem topk_ids {pairs : List (ℝ × Nat)} (distinct : (pairs.map Prod.fst).Nodup) {k : Nat} (enough : k ≤ pairs.length) :
    ∃ positions ids, topk (pairs.map Prod.fst) k = some positions ∧
      positions.mapM (fun position => (pairs.map Prod.snd)[position.2]?) = some ids ∧
      ∀ id, id ∈ ids ↔ ∃ v, (v, id) ∈ largest Prod.fst k pairs := by
  have places : ((pairs.map Prod.fst).zipIdx.map Prod.fst) = pairs.map Prod.fst := List.zipIdx_map_fst 0 _
  have counts : ∀ v, above Prod.fst (pairs.map Prod.fst).zipIdx v = above Prod.fst pairs v := by
    intro v
    have first : ∀ items : List (ℝ × Nat), above Prod.fst items v = (items.map Prod.fst).countP (fun u => decide (v < u)) := by
      intro items
      rw [List.countP_map]
      rfl
    rw [first, first, places]
  have chosen : ∀ position, position ∈ largest Prod.fst k (pairs.map Prod.fst).zipIdx ↔
      (pairs.map Prod.fst)[position.2]? = some position.1 ∧ above Prod.fst pairs position.1 < k := by
    intro position
    rw [mem_largest Prod.fst (by rw [places]; exact distinct), counts, List.mem_zipIdx_iff_getElem?]
  refine ⟨largest Prod.fst k (pairs.map Prod.fst).zipIdx,
    (largest Prod.fst k (pairs.map Prod.fst).zipIdx).map (fun position => (pairs.map Prod.snd).getD position.2 0), ?_, ?_, ?_⟩
  · rw [topk, if_pos (by rw [List.length_map]; exact enough)]
  · apply mapM_some
    intro position member
    obtain ⟨inside, -⟩ := List.getElem?_eq_some_iff.mp ((chosen position).mp member).1
    rw [List.length_map] at inside
    rw [List.getD_eq_getElem?_getD, List.getElem?_map, List.getElem?_eq_getElem inside]
    rfl
  · intro id
    rw [List.mem_map]
    constructor
    · rintro ⟨position, member, rfl⟩
      obtain ⟨named, few⟩ := (chosen position).mp member
      rw [List.getElem?_map, Option.map_eq_some_iff] at named
      obtain ⟨pair, found, first⟩ := named
      refine ⟨position.1, (mem_largest Prod.fst distinct).mpr ⟨?_, few⟩⟩
      rw [List.getD_eq_getElem?_getD, List.getElem?_map, found, ← first]
      exact List.mem_of_getElem? found
    · rintro ⟨v, member⟩
      obtain ⟨present, few⟩ := (mem_largest Prod.fst distinct).mp member
      obtain ⟨place, found⟩ := List.mem_iff_getElem?.mp present
      refine ⟨(v, place), (chosen (v, place)).mpr ⟨?_, few⟩, ?_⟩
      · rw [List.getElem?_map, found, Option.map_some]
      · rw [List.getD_eq_getElem?_getD, List.getElem?_map, found, Option.map_some, Option.getD_some]

theorem largest_shifted (values : List ℝ) (start k : Nat) :
    (largest Prod.fst (min k values.length) values.zipIdx).map (fun candidate => (candidate.1, candidate.2 + start)) =
      largest Prod.fst k (values.zipIdx start) := by
  have shifted : values.zipIdx.map (fun candidate => (candidate.1, candidate.2 + start)) = values.zipIdx start := by
    rw [@zipIdx_eq_map_add _ values start]
    simp only [Nat.add_comm]
  have count := @largest_min _ _ _ Prod.fst k (values.zipIdx start)
  rw [length_zipIdx] at count
  have mapped := @largest_map _ _ _ (Prod.fst : ℝ × Nat → ℝ) (min k values.length) _ Prod.fst
    (fun candidate => (candidate.1, candidate.2 + start)) (fun _ => rfl) values.zipIdx
  rw [mapped, shifted, count]

theorem flatten_zipIdx {width : Nat} {shards : List (List ℝ)} (widths : ∀ shard ∈ shards, shard.length = width) (first : Nat) :
    ((shards.zipIdx first).map (fun shard => shard.1.zipIdx (shard.2 * width))).flatten = shards.flatten.zipIdx (first * width) := by
  induction shards generalizing first with
  | nil => rfl
  | cons shard shards ih =>
    rw [forall_mem_cons] at widths
    rw [zipIdx_cons, map_cons, flatten_cons, flatten_cons, zipIdx_append, ih widths.2, widths.1,
      Nat.succ_mul]

/-! ### Shards -/

section Shards
variable {width : Nat} {source : List (List ℝ)} (widths : ∀ shard ∈ source, shard.length = width)
include widths

theorem flatten_length : source.flatten.length = source.length * width := by
  rw [length_flatten, map_congr_left widths, map_const', sum_replicate, smul_eq_mul]

theorem shard_getElem? {rank id : Nat} {shard : List ℝ} (named : source[rank]? = some shard)
    (owned : rank * width ≤ id ∧ id < rank * width + width) : shard[id - rank * width]? = source.flatten[id]? := by
  have block : slice source.flatten (rank * width) ((rank + 1) * width) = shard := by
    rw [flatten_eq_flatMap]
    exact slice_block widths named
  rw [← block, slice_getElem?, Nat.add_sub_cancel' owned.1, Nat.succ_mul, if_pos owned.2]

omit widths in
theorem map_ranks {β : Type} (f : Nat → β) : source.zipIdx.map (fun shard => f shard.2) = (range source.length).map f := by
  rw [range_eq_range', ← zipIdx_map_snd 0 source, map_map]
  rfl

/-- The ids of the largest of all ranks' candidates are those of the largest of the vocabulary. -/
theorem candidate_ids {k : Nat} (distinct : source.flatten.Nodup) (enough : k ≤ source.flatten.length) : ∃ positions ids,
      topk ((source.zipIdx.flatMap (fun shard => largest Prod.fst k (shard.1.zipIdx (shard.2 * width)))).map Prod.fst) k = some positions ∧
      positions.mapM (fun position =>
        ((source.zipIdx.flatMap (fun shard => largest Prod.fst k (shard.1.zipIdx (shard.2 * width)))).map Prod.snd)[position.2]?) =
          some ids ∧ ∀ id, id ∈ ids ↔ id ∈ (largest Prod.fst k source.flatten.zipIdx).map Prod.snd := by
  have vocabulary := flatten_zipIdx widths 0
  rw [Nat.zero_mul] at vocabulary
  have pairs : (source.zipIdx.flatMap (fun shard => largest Prod.fst k (shard.1.zipIdx (shard.2 * width)))) =
      (source.zipIdx.map (fun shard => shard.1.zipIdx (shard.2 * width))).flatMap (largest Prod.fst k) := by
    rw [flatMap_map]
  have distinct' : ((source.zipIdx.map (fun shard => shard.1.zipIdx (shard.2 * width))).flatten.map Prod.fst).Nodup := by
    rw [vocabulary, zipIdx_map_fst]
    exact distinct
  have enough' : k ≤ (source.zipIdx.flatMap (fun shard => largest Prod.fst k (shard.1.zipIdx (shard.2 * width)))).length := by
    have lengths : ∀ shard ∈ source.zipIdx, (largest Prod.fst k (shard.1.zipIdx (shard.2 * width))).length = min k width := by
      intro shard member
      rw [largest_length, length_zipIdx, widths shard.1 (fst_mem_of_mem_zipIdx member)]
    rw [length_flatMap, map_congr_left lengths, map_const', sum_replicate, length_zipIdx, smul_eq_mul]
    rw [flatten_length widths] at enough
    rcases Nat.le_total k width with small | large
    · rw [Nat.min_eq_left small]
      rcases Nat.eq_zero_or_pos source.length with empty | ranked
      · rw [empty, Nat.zero_mul] at enough ⊢
        exact enough
      · exact Nat.le_mul_of_pos_left k ranked
    · rw [Nat.min_eq_right large]
      exact enough
  rw [pairs] at enough' ⊢
  obtain ⟨positions, ids, found, gathered, members⟩ := topk_ids (candidates_distinct Prod.fst distinct') enough'
  refine ⟨positions, ids, found, gathered, ?_⟩
  intro id
  rw [members, mem_map]
  constructor
  · rintro ⟨v, member⟩
    rw [mem_largest_candidates Prod.fst distinct', vocabulary] at member
    exact ⟨(v, id), member, rfl⟩
  · rintro ⟨pair, member, rfl⟩
    refine ⟨pair.1, ?_⟩
    rw [mem_largest_candidates Prod.fst distinct', vocabulary]
    exact member

def logProb (source : List (List ℝ)) (id : Nat) : ℝ := source.flatten.getD id 0

/-- The divergence at a target. -/
noncomputable def term (source : List (List ℝ)) (clamp : Option ℝ) (target : ℝ × Nat) : ℝ :=
  tokenDivergence Real.exp (clampMin clamp target.1) (clampMin clamp (logProb source target.2))

theorem sum_ranks (positive : 0 < width) {targets : List (ℝ × Nat)} (inside : ∀ target ∈ targets, target.2 < source.flatten.length)
    (f : ℝ × Nat → ℝ) : (source.zipIdx.map (fun shard => (targets.map (fun target =>
      if shard.2 * width ≤ target.2 ∧ target.2 < shard.2 * width + width then f target else 0)).sum)).sum = (targets.map f).sum := by
  rw [map_ranks (fun rank => (targets.map (fun target =>
    if rank * width ≤ target.2 ∧ target.2 < rank * width + width then f target else 0)).sum), sum_swap]
  apply congrArg sum
  apply map_congr_left
  intro target member
  have bound := inside target member
  rw [flatten_length widths] at bound
  exact sum_owned positive bound (f target)

theorem allReduce_ranks (positive : 0 < width) {targets : List (ℝ × Nat)}
    (inside : ∀ target ∈ targets, target.2 < source.flatten.length) (f : ℝ × Nat → ℝ) :
    Megatron.allReduce targets.length (source.zipIdx.map (fun shard => targets.map (fun target =>
      if shard.2 * width ≤ target.2 ∧ target.2 < shard.2 * width + width then f target else 0))) = targets.map f := by
  apply ext_getElem (by rw [Megatron.allReduce, length_map, length_map, length_range])
  intro i first second
  rw [length_map] at second
  have bound := inside _ (getElem_mem second)
  rw [flatten_length widths] at bound
  simp only [Megatron.allReduce, getElem_map, getElem_range, map_map]
  have reduced := sum_owned positive bound (f targets[i])
  rw [← @map_ranks source _ (fun rank =>
    if rank * width ≤ targets[i].2 ∧ targets[i].2 < rank * width + width then f targets[i] else 0)] at reduced
  refine Eq.trans (congrArg sum (map_congr_left ?_)) reduced
  intro shard _
  rw [Function.comp_apply, getD_eq_getElem?_getD, List.getElem?_map, List.getElem?_eq_getElem second, Option.map_some,
    Option.getD_some]

section Terms
variable {clamp : Option ℝ} {rank : Nat} {shard : List ℝ} (named : source[rank]? = some shard) (positive : 0 < width)
include named positive

theorem entry_eq {target : ℝ × Nat} (inside : target.2 < source.flatten.length) :
    Megatron.entry Real.exp shard (rank * width) clamp target =
      some (if rank * width ≤ target.2 ∧ target.2 < rank * width + width then
        ⟨true, Real.exp (clampMin clamp target.1), clampMin clamp target.1, clampMin clamp (logProb source target.2)⟩
      else ⟨false, 0, 0, 0⟩) := by
  have length : shard.length = width := widths shard (mem_of_getElem? named)
  by_cases owned : rank * width ≤ target.2 ∧ target.2 < rank * width + width
  · have found : shard[target.2 - rank * width]? = some (logProb source target.2) := by
      rw [shard_getElem? widths named owned, logProb, getD_eq_getElem?_getD, List.getElem?_eq_getElem inside, Option.getD_some]
    simp [Megatron.entry, length, owned, found]
  · have found : ∃ dummy, shard[0]? = some dummy := ⟨_, List.getElem?_eq_getElem (by omega)⟩
    obtain ⟨dummy, found⟩ := found
    simp [Megatron.entry, length, owned, found]

theorem localTerms_eq {targets : List (ℝ × Nat)} (inside : ∀ target ∈ targets, target.2 < source.flatten.length) :
    Megatron.localTerms Real.exp shard rank targets clamp = some {
      targetTopkMass := (targets.map (fun target => Real.exp (clampMin clamp target.1))).sum
      perTokenKlLoss := (targets.map (fun target =>
        if rank * width ≤ target.2 ∧ target.2 < rank * width + width then term source clamp target else 0)).sum
      perTokenTopkMass := (targets.map (fun target =>
        if rank * width ≤ target.2 ∧ target.2 < rank * width + width then
          Real.exp (clampMin clamp (logProb source target.2)) else 0)).sum
      perTargetTokenKl := targets.map (fun target =>
        if rank * width ≤ target.2 ∧ target.2 < rank * width + width then term source clamp target else 0)
      studentTopk := largest Prod.fst targets.length (shard.zipIdx (rank * width)) } := by
  have length : shard.length = width := widths shard (mem_of_getElem? named)
  have entries : targets.mapM (Megatron.entry Real.exp shard (rank * width) clamp) = some _ := mapM_some _
    (fun target member => entry_eq widths named positive (inside target member))
  have candidates : topk shard (min targets.length shard.length) =
      some (largest Prod.fst (min targets.length shard.length) shard.zipIdx) := if_pos (Nat.min_le_right _ _)
  have shifted := largest_shifted shard (rank * width) targets.length
  rw [length] at candidates shifted
  simp only [Megatron.localTerms, length, Option.bind_eq_bind, Option.bind_some, entries, candidates, shifted, map_map]
  have divergences : ((fun e : Megatron.Entry ℝ => e.targetProb * (e.targetLogp - e.sourceLogp)) ∘ fun target : ℝ × Nat =>
      if rank * width ≤ target.2 ∧ target.2 < rank * width + width then
        (⟨true, Real.exp (clampMin clamp target.1), clampMin clamp target.1, clampMin clamp (logProb source target.2)⟩ :
          Megatron.Entry ℝ)
      else ⟨false, 0, 0, 0⟩) = fun target =>
        if rank * width ≤ target.2 ∧ target.2 < rank * width + width then term source clamp target else 0 := by
    funext target
    rw [Function.comp_apply]
    split
    · rfl
    · exact zero_mul _
  have masses : ((fun e : Megatron.Entry ℝ => Real.exp e.sourceLogp * if e.inVocab then 1 else 0) ∘ fun target : ℝ × Nat =>
      if rank * width ≤ target.2 ∧ target.2 < rank * width + width then
        (⟨true, Real.exp (clampMin clamp target.1), clampMin clamp target.1, clampMin clamp (logProb source target.2)⟩ :
          Megatron.Entry ℝ)
      else ⟨false, 0, 0, 0⟩) = fun target =>
        if rank * width ≤ target.2 ∧ target.2 < rank * width + width then Real.exp (clampMin clamp (logProb source target.2)) else 0 := by
    funext target
    rw [Function.comp_apply]
    split
    · exact mul_one _
    · exact mul_zero _
  rw [divergences, masses]

end Terms

end Shards

/-! ### The outputs -/

/-- The overlap with the ids of the largest log probabilities. -/
noncomputable def overlap (source : List (List ℝ)) (clamp : Option ℝ) (targets : List (ℝ × Nat)) : Nat × ℝ :=
  overlapTokenAdvantage (targets.map (term source clamp)) (overlapMask (targets.map Prod.snd)
    ((largest Prod.fst targets.length source.flatten.zipIdx).map Prod.snd))

/-- The shards of the log probabilities. -/
noncomputable def logShards (shards : List (List ℝ)) : List (List ℝ) :=
  shards.map (fun shard => shard.map (fun logit => logit - Real.log (shards.flatten.map Real.exp).sum))

theorem logShards_flatten (shards : List (List ℝ)) : (logShards shards).flatten = Fsdp.logSoftmax Real.exp Real.log shards.flatten := by
  exact map_flatten.symm

theorem logShards_length (shards : List (List ℝ)) : (logShards shards).flatten.length = shards.flatten.length := by
  rw [logShards_flatten, Fsdp.logSoftmax, length_map]

theorem logShards_distinct {shards : List (List ℝ)} (distinct : shards.flatten.Nodup) : (logShards shards).flatten.Nodup := by
  rw [logShards_flatten, Fsdp.logSoftmax]
  exact distinct.map (fun _ _ same => sub_left_injective same)

theorem length_le_of_inside {ids : List Nat} (distinct : ids.Nodup) {count : Nat} (inside : ∀ id ∈ ids, id < count) :
    ids.length ≤ count := by
  have covered : ids ⊆ range count := fun id member => mem_range.mpr (inside id member)
  simpa using (subperm_of_subset distinct covered).length_le

theorem overlapMask_congr {teacherIds first second : List Nat} (same : ∀ id, id ∈ first ↔ id ∈ second) :
    overlapMask teacherIds first = overlapMask teacherIds second := by
  simp only [overlapMask, same]

section Outputs
variable {shards : List (List ℝ)} {targets : List (ℝ × Nat)} (clamp : Option ℝ)
  (ids : (targets.map Prod.snd).Nodup) (inside : ∀ target ∈ targets, target.2 < shards.flatten.length)
include ids inside

theorem targets_length : targets.length ≤ (logShards shards).flatten.length := by
  have bound : (targets.map Prod.snd).length ≤ shards.flatten.length := by
    apply length_le_of_inside ids
    intro id member
    obtain ⟨target, present, rfl⟩ := mem_map.mp member
    exact inside target present
  rwa [length_map, ← logShards_length] at bound

theorem fsdp_eq : Fsdp.computeForwardKlTopk Real.exp Real.log shards.flatten (targets.map Prod.fst) (targets.map Prod.snd) clamp =
    some ⟨(targets.map (term (logShards shards) clamp)).sum,
      (targets.map (fun target => Real.exp (logProb (logShards shards) target.2))).sum,
      (targets.map (fun target => Real.exp target.1)).sum,
      (overlap (logShards shards) clamp targets).1, (overlap (logShards shards) clamp targets).2⟩ := by
  have enough := targets_length ids inside
  have student : topk (logShards shards).flatten (targets.map Prod.snd).length =
      some (largest Prod.fst targets.length (logShards shards).flatten.zipIdx) := by
    rw [topk, length_map, if_pos enough]
  have gathered : (targets.map Prod.snd).mapM (fun id => (logShards shards).flatten[id]?) =
      some (targets.map (fun target => logProb (logShards shards) target.2)) := by
    rw [List.mapM_map]
    apply mapM_some
    intro target member
    have bound := inside target member
    rw [← logShards_length] at bound
    rw [Function.comp_apply, logProb, getD_eq_getElem?_getD, List.getElem?_eq_getElem bound, Option.getD_some]
  simp only [Fsdp.computeForwardKlTopk, ← logShards_flatten, student, gathered, Option.bind_eq_bind, Option.bind_some, map_map,
    zip_map', Fsdp.klDivergence]
  rfl

theorem forward_eq {width : Nat} (distinct : shards.flatten.Nodup) (widths : ∀ shard ∈ shards, shard.length = width)
    (positive : 0 < width) (present : shards ≠ []) :
    Megatron.forward Real.exp Real.log shards (targets.map Prod.fst) (targets.map Prod.snd) clamp =
      some (replicate shards.length ⟨(targets.map (term (logShards shards) clamp)).sum,
        (targets.map (fun target => Real.exp (clampMin clamp (logProb (logShards shards) target.2)))).sum,
        (targets.map (fun target => Real.exp (clampMin clamp target.1))).sum,
        (overlap (logShards shards) clamp targets).1, (overlap (logShards shards) clamp targets).2⟩) := by
  have filled : ∀ shard ∈ shards, shard ≠ [] := by
    intro shard member empty
    have length := widths shard member
    rw [empty] at length
    exact absurd length (Nat.ne_of_lt positive)
  have enough := targets_length ids inside
  have pairing : (targets.map Prod.fst).zip (targets.map Prod.snd) = targets := by
    rw [zip_map']
    exact map_id _
  have ranks : (logShards shards).length = shards.length := length_map _
  have logDistinct := logShards_distinct distinct
  have widths' : ∀ shard ∈ logShards shards, shard.length = width := by
    intro shard member
    obtain ⟨logits, there, rfl⟩ := mem_map.mp member
    rw [length_map, widths logits there]
  have inside' : ∀ target ∈ targets, target.2 < (logShards shards).flatten.length := by
    rw [logShards_length]
    exact inside
  have source := vocabParallelLogSoftmax_eq present filled
  rw [← logShards] at source
  generalize logShards shards = source' at *
  have locals : source'.zipIdx.mapM (fun shard => Megatron.localTerms Real.exp shard.1 shard.2 targets clamp) = some _ :=
    mapM_some _ (fun shard member =>
      localTerms_eq widths' (mem_zipIdx_iff_getElem?.mp member) positive inside')
  obtain ⟨positions, student, found, gathered, members⟩ := candidate_ids widths' logDistinct enough
  simp only [Megatron.forward, source, pairing, locals, Option.bind_eq_bind, Option.bind_some, map_map, Function.comp_def,
    flatMap_map, sum_ranks widths' positive inside', allReduce_ranks widths' positive inside', found, gathered]
  rw [map_const', length_zipIdx, ranks, overlapMask_congr members, overlap]

end Outputs

/-- The masses, which one of the computations takes of clamped numbers, are the same exactly when
the clamp changes none of them. -/
theorem masses_iff {source : List (List ℝ)} {targets : List (ℝ × Nat)} {clamp : Option ℝ} :
    ((targets.map (fun target => Real.exp (clampMin clamp (logProb source target.2)))).sum =
        (targets.map (fun target => Real.exp (logProb source target.2))).sum ∧
      (targets.map (fun target => Real.exp (clampMin clamp target.1))).sum = (targets.map (fun target => Real.exp target.1)).sum) ↔
      ∀ bound, clamp = some bound → ∀ target ∈ targets, bound ≤ target.1 ∧ bound ≤ logProb source target.2 := by
  cases clamp with
  | none => simp [clampMin]
  | some bound =>
    have students := @sum_clamped bound (targets.map (fun target => logProb source target.2))
    have teachers := @sum_clamped bound (targets.map Prod.fst)
    simp only [map_map, Function.comp_def, forall_mem_map] at students teachers
    simp only [clampMin, students, teachers]
    constructor
    · rintro ⟨student, teacher⟩ other same target member
      cases same
      exact ⟨teacher target member, student target member⟩
    · intro bounded
      exact ⟨fun target member => (bounded bound rfl target member).2, fun target member => (bounded bound rfl target member).1⟩

theorem logProb_iff {shards : List (List ℝ)} {id : Nat} (inside : id < shards.flatten.length) {bound : ℝ} :
    bound ≤ logProb (logShards shards) id ↔
      ∀ logProb, (Fsdp.logSoftmax Real.exp Real.log shards.flatten)[id]? = some logProb → bound ≤ logProb := by
  rw [← logShards_length] at inside
  have found : (logShards shards).flatten[id]? = some (logProb (logShards shards) id) := by
    rw [logProb, getD_eq_getElem?_getD, List.getElem?_eq_getElem inside, Option.getD_some]
  rw [← logShards_flatten, found]
  constructor
  · intro bounded logProb same
    cases same
    exact bounded
  · intro bounded
    exact bounded _ rfl

/-- The two computations agree at a position exactly when no log probability of the teacher's, and
none of the student's at the teacher's tokens, is below the clamp. -/
theorem forward_kl_agree_iff {shards : List (List ℝ)} {width : Nat} (present : shards ≠ [])
    (widths : ∀ shard ∈ shards, shard.length = width) (positive : 0 < width) (distinct : shards.flatten.Nodup)
    {teacherLogProbs : List ℝ} {teacherIds : List Nat} (lengths : teacherLogProbs.length = teacherIds.length)
    (ids : teacherIds.Nodup) (inside : ∀ id ∈ teacherIds, id < shards.flatten.length) (clamp : Option ℝ) :
    ∃ whole ranks, Fsdp.computeForwardKlTopk Real.exp Real.log shards.flatten teacherLogProbs teacherIds clamp = some whole ∧
      Megatron.forward Real.exp Real.log shards teacherLogProbs teacherIds clamp = some ranks ∧ ranks.length = shards.length ∧
      ((∀ outputs ∈ ranks, outputs = whole) ↔ ∀ bound, clamp = some bound → (∀ logProb ∈ teacherLogProbs, bound ≤ logProb) ∧
        ∀ id ∈ teacherIds, ∀ logProb, (Fsdp.logSoftmax Real.exp Real.log shards.flatten)[id]? = some logProb → bound ≤ logProb) := by
  obtain ⟨targets, rfl, rfl⟩ : ∃ targets : List (ℝ × Nat), teacherLogProbs = targets.map Prod.fst ∧ teacherIds = targets.map Prod.snd :=
    ⟨teacherLogProbs.zip teacherIds, (List.map_fst_zip lengths.le).symm, (List.map_snd_zip lengths.ge).symm⟩
  rw [List.forall_mem_map] at inside
  refine ⟨_, _, fsdp_eq clamp ids inside, forward_eq clamp ids inside distinct widths positive present, List.length_replicate, ?_⟩
  have ranked : shards.length ≠ 0 := fun empty => present (List.length_eq_zero_iff.mp empty)
  simp only [List.mem_replicate, ranked, ne_eq, not_false_eq_true, true_and, forall_eq, Outputs.mk.injEq, and_true, masses_iff]
  apply forall_congr'
  intro bound
  apply imp_congr_right
  intro _
  rw [List.forall_mem_map, List.forall_mem_map, ← forall₂_and]
  apply forall₂_congr
  intro target member
  rw [logProb_iff (inside target member)]

/-- Without a clamp: two ranks, and a teacher with two tokens on different ranks. -/
theorem forward_kl_agree_unclamped : ∃ whole ranks,
    Fsdp.computeForwardKlTopk Real.exp Real.log [[0, 1], [2, 3]].flatten [-1, -2] [3, 0] none = some whole ∧
      Megatron.forward Real.exp Real.log [[0, 1], [2, 3]] [-1, -2] [3, 0] none = some ranks ∧ ranks.length = 2 ∧
      ((∀ outputs ∈ ranks, outputs = whole) ↔ ∀ bound, none = some bound → (∀ logProb ∈ [(-1 : ℝ), -2], bound ≤ logProb) ∧
        ∀ id ∈ [3, 0], ∀ logProb, (Fsdp.logSoftmax Real.exp Real.log ([[0, 1], [2, 3]] : List (List ℝ)).flatten)[id]? = some logProb →
          bound ≤ logProb) :=
  @forward_kl_agree_iff _ 2 (by simp) (by simp) (by decide) (by norm_num) _ _ rfl (by decide) (by simp) none

/-- The teacher's log probability is below the clamp: its mass is not the same. -/
theorem teacher_mass_clamped : ∃ whole ranks,
    Fsdp.computeForwardKlTopk Real.exp Real.log [[0], [1]].flatten [-2] [1] (some (-1)) = some whole ∧
      Megatron.forward Real.exp Real.log [[0], [1]] [-2] [1] (some (-1)) = some ranks ∧
      whole.teacherMass = Real.exp (-2) ∧ ∀ outputs ∈ ranks, outputs.teacherMass = Real.exp (-1) ∧ outputs ≠ whole := by
  have ids : (([((-2 : ℝ), 1)] : List (ℝ × Nat)).map Prod.snd).Nodup := by simp
  have inside : ∀ target ∈ [((-2 : ℝ), 1)], target.2 < ([[0], [1]] : List (List ℝ)).flatten.length := by simp
  refine ⟨_, _, fsdp_eq (some (-1)) ids inside,
    @forward_eq _ _ (some (-1)) ids inside 1 (by simp) (by simp) (by decide) (by simp), by simp, ?_⟩
  intro outputs member
  rw [List.eq_of_mem_replicate member]
  refine ⟨by simp [clampMin], ?_⟩
  intro same
  have masses := congrArg Outputs.teacherMass same
  simp [clampMin] at masses

end LLMFusion.ForwardKl
