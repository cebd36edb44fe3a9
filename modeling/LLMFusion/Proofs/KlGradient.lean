import LLMFusion.Proofs.ForwardKl
import LLMFusion.Proofs.VocabParallel

/-! What the ranks return from the backward pass is together the gradient of the loss. An entry of the top-k counts only
on its own rank, whatever other entries have the same index there. -/

namespace LLMFusion.ForwardKl
open Softmax TensorParallel List Fallible

/-! ### The forward pass with any ids -/

theorem topk_positions {pairs : List (ℝ × Nat)} {k : Nat} (enough : k ≤ pairs.length) :
    ∃ positions ids, topk (pairs.map Prod.fst) k = some positions ∧
      positions.mapM (fun position => (pairs.map Prod.snd)[position.2]?) = some ids := by
  refine ⟨_, (TopK.largest Prod.fst k (pairs.map Prod.fst).zipIdx).map
    (fun position => (pairs.map Prod.snd).getD position.2 0),
    if_pos (by rwa [length_map]), mapM_some _ ?_⟩
  intro position member
  have inside := List.mem_zipIdx_iff_getElem?.mp ((TopK.largest_subperm Prod.fst _).subset member)
  obtain ⟨bound, -⟩ := List.getElem?_eq_some_iff.mp inside
  rw [length_map] at bound
  rw [getD_eq_getElem?_getD, List.getElem?_map, List.getElem?_eq_getElem bound]
  rfl

theorem candidates_length {width k : Nat} {source : List (List ℝ)} (widths : ∀ shard ∈ source, shard.length = width)
    (enough : k ≤ source.flatten.length) : k ≤ (source.zipIdx.flatMap (fun shard => TopK.largest Prod.fst k
        (shard.1.zipIdx (shard.2 * width)))).length := by
  have lengths : ∀ shard ∈ source.zipIdx, (TopK.largest Prod.fst k (shard.1.zipIdx (shard.2 * width))).length =
      min k width := by
    intro shard member
    rw [TopK.largest_length, length_zipIdx, widths shard.1 (fst_mem_of_mem_zipIdx member)]
  rw [length_flatMap, map_congr_left lengths, map_const', sum_replicate, length_zipIdx, smul_eq_mul]
  rw [flatten_length widths] at enough
  rcases Nat.eq_zero_or_pos source.length with empty | ranked
  · rw [empty, Nat.zero_mul] at enough ⊢
    exact enough
  · rcases Nat.le_total k width with small | large
    · rw [Nat.min_eq_left small]
      exact Nat.le_mul_of_pos_left k ranked
    · rw [Nat.min_eq_right large]
      exact enough

section Ranks
variable {width : Nat} {shards : List (List ℝ)} {targets : List (ℝ × Nat)} (clamp : Option ℝ)
  (widths : ∀ shard ∈ shards, shard.length = width) (positive : 0 < width) (present : shards ≠ [])
  (inside : ∀ target ∈ targets, target.2 < shards.flatten.length)
include widths positive present

omit present inside in
theorem shards_filled : ∀ shard ∈ shards, shard ≠ [] := by
  rintro shard member rfl
  exact absurd (widths [] member) (Nat.ne_of_lt positive)

omit positive present in
theorem logShards_widths : ∀ shard ∈ logShards shards, shard.length = width := by
  intro shard member
  obtain ⟨logits, there, rfl⟩ := mem_map.mp member
  rw [length_map, widths logits there]

include inside

theorem forward_losses (few : targets.length ≤ shards.flatten.length) : ∃ outputs,
    Megatron.forward Real.exp Real.log shards (targets.map Prod.fst) (targets.map Prod.snd) clamp = some outputs ∧
      outputs.map Outputs.distillationLosses =
        replicate shards.length (targets.map (term (logShards shards) clamp)).sum := by
  have pairing : (targets.map Prod.fst).zip (targets.map Prod.snd) = targets := by
    rw [zip_map']
    exact map_id _
  have widths' := logShards_widths widths
  have source := vocabParallelLogSoftmax_eq present (shards_filled widths positive)
  have ranks : (logShards shards).length = shards.length := length_map _
  rw [← logShards_length] at inside few
  rw [← logShards] at source
  generalize logShards shards = source' at *
  have locals : source'.zipIdx.mapM (fun shard =>
      Megatron.localTerms Real.exp shard.1 shard.2 targets clamp) = some _ :=
    mapM_some _ (fun shard member => localTerms_eq widths' (mem_zipIdx_iff_getElem?.mp member) positive inside)
  obtain ⟨positions, student, found, gathered⟩ := topk_positions (candidates_length widths' few)
  simp only [Megatron.forward, source, pairing, locals, Option.bind_eq_bind, Option.bind_some, map_map,
    Function.comp_def, flatMap_map, sum_ranks widths' positive inside, found, gathered]
  refine ⟨_, rfl, ?_⟩
  rw [map_map, Function.comp_def, map_const', length_zipIdx, ranks]

end Ranks

/-! ### The backward pass of a rank -/

theorem modify_ofFn {n : Nat} (g : Fin n → ℝ) (place : Nat) (value : ℝ) :
    (ofFn g).modify place (· + value) = ofFn (fun i => g i + if place = i then value else 0) := by
  apply ext_getElem (by simp)
  intro i _ _
  rw [getElem_modify, List.getElem_ofFn, List.getElem_ofFn]
  split
  · rfl
  · rw [add_zero]

theorem scatter_ofFn {n : Nat} {ι : Type} (entries : List ι) (index : ι → Nat) (value : ι → ℝ) (g : Fin n → ℝ) :
    entries.foldl (fun grad e => grad.modify (index e) (· + value e)) (ofFn g) =
      ofFn (fun i => g i + (entries.map (fun e => if index e = i then value e else 0)).sum) := by
  induction entries generalizing g with
  | nil => simp
  | cons e entries ih =>
    rw [foldl_cons, modify_ofFn, ih]
    simp only [map_cons, sum_cons, add_assoc]

theorem backward_ofFn {n : Nat} (probs : Fin n → ℝ) (entries : List (Megatron.ActiveEntry ℝ)) (mass gradLoss : ℝ) :
    Megatron.backward ⟨ofFn probs, entries, mass⟩ gradLoss = ofFn (fun i => (probs i * mass + (entries.map (fun e =>
      if e.index = (i : Nat) then -(e.targetProb * if e.active then 1 else 0) else 0)).sum) * gradLoss) := by
  simp only [Megatron.backward, map_ofFn, Function.comp_def, scatter_ofFn]

/-- Whether the student's log probability is not clamped. -/
noncomputable def isActive (source : List (List ℝ)) (clamp : Option ℝ) (id : Nat) : Bool :=
  clamp.all (fun bound => decide (logProb source id > bound))

/-- What a rank saves of a target. -/
noncomputable def activeEntryOf (source : List (List ℝ)) (clamp : Option ℝ) (width rank : Nat) (target : ℝ × Nat) :
    Megatron.ActiveEntry ℝ :=
  if rank * width ≤ target.2 ∧ target.2 < rank * width + width then
    ⟨target.2 - rank * width, Real.exp (clampMin clamp target.1), isActive source clamp target.2⟩
  else ⟨0, 0, false⟩

/-- The teacher's probability of the active entries. -/
noncomputable def activeMass (source : List (List ℝ)) (clamp : Option ℝ) (targets : List (ℝ × Nat)) : ℝ :=
  (targets.map (fun target =>
    if isActive source clamp target.2 then Real.exp (clampMin clamp target.1) else 0)).sum

section Saved
variable {width : Nat} {source : List (List ℝ)} {targets : List (ℝ × Nat)} {clamp : Option ℝ}
  (widths : ∀ shard ∈ source, shard.length = width) (positive : 0 < width)
  (inside : ∀ target ∈ targets, target.2 < source.flatten.length)
include widths positive

theorem activeEntry_eq {rank : Nat} {shard : List ℝ} (named : source[rank]? = some shard) {target : ℝ × Nat}
    (inside : target.2 < source.flatten.length) : Megatron.activeEntry Real.exp shard (rank * width) clamp target =
        some (activeEntryOf source clamp width rank target) := by
  have length : shard.length = width := widths shard (mem_of_getElem? named)
  unfold activeEntryOf isActive
  by_cases owned : rank * width ≤ target.2 ∧ target.2 < rank * width + width
  · have found : shard[target.2 - rank * width]? = some (logProb source target.2) := by
      rw [shard_getElem? widths named owned, logProb, getD_eq_getElem?_getD, List.getElem?_eq_getElem inside,
        Option.getD_some]
    simp [Megatron.activeEntry, length, owned, found]
  · obtain ⟨dummy, found⟩ : ∃ dummy, shard[0]? = some dummy := ⟨_, List.getElem?_eq_getElem (by omega)⟩
    simp [Megatron.activeEntry, length, owned, found]

include inside

theorem activeMass_ranks : (source.zipIdx.map (fun shard =>
    ((targets.map (activeEntryOf source clamp width shard.2)).map (fun e =>
      if e.active then e.targetProb else 0)).sum)).sum = activeMass source clamp targets := by
  rw [activeMass, ← sum_ranks widths positive inside]
  apply congrArg sum
  apply map_congr_left
  intro shard _
  rw [map_map]
  apply congrArg sum
  apply map_congr_left
  intro target _
  rw [Function.comp_apply, activeEntryOf]
  split <;> simp

theorem saveForBackward_eq {shards : List (List ℝ)}
    (softmax : Megatron.vocabParallelLogSoftmax Real.exp Real.log shards = some source) :
    Megatron.saveForBackward Real.exp Real.log shards (targets.map Prod.fst) (targets.map Prod.snd) clamp =
      some (source.zipIdx.map (fun shard => ⟨shard.1.map Real.exp,
        targets.map (activeEntryOf source clamp width shard.2), activeMass source clamp targets⟩)) := by
  have pairing : (targets.map Prod.fst).zip (targets.map Prod.snd) = targets := by
    rw [zip_map']
    exact map_id _
  have ranks : source.zipIdx.mapM (fun shard => do
      let entries ← targets.mapM (Megatron.activeEntry Real.exp shard.1 (shard.2 * shard.1.length) clamp)
      some (shard.1.map Real.exp, entries)) =
      some (source.zipIdx.map (fun shard => (shard.1.map Real.exp,
          targets.map (activeEntryOf source clamp width shard.2)))) := by
    apply mapM_some
    intro shard member
    have named := mem_zipIdx_iff_getElem?.mp member
    rw [widths shard.1 (mem_of_getElem? named),
      mapM_some _ (fun target present => activeEntry_eq widths positive named (inside target present))]
    rfl
  simp only [Option.bind_eq_bind] at ranks
  simp only [Megatron.saveForBackward, softmax, pairing, ranks, Option.bind_eq_bind, Option.bind_some, map_map,
    Function.comp_def]
  cases clamp with
  | none => simp [activeMass, isActive]
  | some bound =>
    have mass := @activeMass_ranks _ _ _ (some bound) widths positive inside
    simp only [map_map, Function.comp_def] at mass
    simp only [mass, Option.isSome_some, if_true]

end Saved

/-! ### The gradient -/

section Gradient
variable {world size : Nat}

abbrev Id (world size : Nat) := Fin ((world + 1) * (size + 1))

/-- The shards of a row, as the ranks have them. -/
def shardLists (row : Row ℝ world size) : List (List ℝ) := ofFn (fun rank => ofFn (shards row rank))

theorem shardLists_flatten (row : Row ℝ world size) : (shardLists row).flatten = ofFn row := by
  rw [ofFn_mul, shardLists]
  congr 3
  funext rank
  congr 1
  funext i
  exact congrArg row (Fin.ext (by simp [Nat.mul_comm, Nat.add_comm]))

theorem shardLists_widths (row : Row ℝ world size) : ∀ shard ∈ shardLists row, shard.length = size + 1 := by
  intro shard member
  obtain ⟨rank, rfl⟩ := mem_ofFn.mp member
  exact length_ofFn

theorem shardLists_ne_nil (row : Row ℝ world size) : shardLists row ≠ [] := by
  simp [shardLists]

theorem logShards_shardLists (logits : Row ℝ world size) :
    logShards (shardLists logits) = shardLists (fun j => Real.log (softmax logits j)) := by
  rw [logShards, shardLists_flatten]
  simp only [log_softmax, shardLists, map_ofFn, Function.comp_def, sum_ofFn]
  rfl

theorem logProb_shardLists (logits : Row ℝ world size) (j : Id world size) :
    logProb (shardLists logits) j = logits j := by
  rw [logProb, shardLists_flatten, getD_eq_getElem?_getD, List.getElem?_ofFn, dif_pos j.isLt, Option.getD_some]

theorem zipIdx_shardLists (row : Row ℝ world size) :
    (shardLists row).zipIdx = ofFn (fun rank => (ofFn (shards row rank), (rank : Nat))) := by
  apply ext_getElem
  · rw [length_zipIdx, shardLists, length_ofFn, length_ofFn]
  · intro rank _ _
    simp only [shardLists, getElem_zipIdx, List.getElem_ofFn, Nat.zero_add]

variable (clamp : Option ℝ) (targets : List (ℝ × Id world size)) (gradLoss : ℝ)

/-- The probability of a target, if the student's log probability is above the clamp. -/
noncomputable def activeProb (logits : Row ℝ world size) (target : ℝ × Id world size) : ℝ :=
  if clamp.all (fun bound => decide (Real.log (softmax logits target.2) > bound)) then
    Real.exp (clampMin clamp target.1) else 0

/-- The mass of the active targets times the student's probability, less the active targets with this id. -/
noncomputable def gradient (logits : Row ℝ world size) : Row ℝ world size := fun j =>
  gradLoss * ((targets.map (activeProb clamp logits)).sum * softmax logits j -
    (targets.map (fun target => if target.2 = j then activeProb clamp logits target else 0)).sum)

/-- The loss at a position, from the logits of the whole vocabulary. -/
noncomputable def loss (logits : Row ℝ world size) : ℝ := (targets.map (fun target =>
  tokenDivergence Real.exp (clampMin clamp target.1) (clampMin clamp (Real.log (softmax logits target.2))))).sum

theorem hasFDerivAt_clampMin {logits : Row ℝ world size} {id : Id world size}
    (off : ∀ bound ∈ clamp, Real.log (softmax logits id) ≠ bound) :
    HasFDerivAt (fun logits : Row ℝ world size => clampMin clamp (Real.log (softmax logits id)))
      (if clamp.all (fun bound => decide (Real.log (softmax logits id) > bound)) then
        ContinuousLinearMap.proj id - linear (softmax logits) else 0) logits := by
  have plain : HasFDerivAt (fun logits : Row ℝ world size => Real.log (softmax logits id))
      (ContinuousLinearMap.proj id - linear (softmax logits)) logits := by
    simp only [log_softmax]
    exact (hasFDerivAt_apply id logits).sub (hasFDerivAt_logSumExp logits)
  cases clamp with
  | none => exact plain
  | some bound =>
    rcases lt_or_gt_of_ne (off bound rfl) with below | above
    · rw [if_neg (by simpa using below.le)]
      apply (hasFDerivAt_const bound logits).congr_of_eventuallyEq
      filter_upwards [plain.continuousAt.eventually_lt continuousAt_const below] with near inside
      exact max_eq_right inside.le
    · rw [if_pos (by simpa using above)]
      apply plain.congr_of_eventuallyEq
      filter_upwards [continuousAt_const.eventually_lt plain.continuousAt above] with near inside
      exact max_eq_left inside.le

theorem hasFDerivAt_term {logits : Row ℝ world size} {target : ℝ × Id world size}
    (off : ∀ bound ∈ clamp, Real.log (softmax logits target.2) ≠ bound) :
    HasFDerivAt (fun logits : Row ℝ world size =>
        tokenDivergence Real.exp (clampMin clamp target.1) (clampMin clamp (Real.log (softmax logits target.2))))
      (linear (fun j => activeProb clamp logits target * softmax logits j -
        if target.2 = j then activeProb clamp logits target else 0)) logits := by
  have derivative := ((hasFDerivAt_clampMin clamp off).const_sub (clampMin clamp target.1)).const_mul
    (Real.exp (clampMin clamp target.1))
  refine derivative.congr_fderiv (ContinuousLinearMap.ext (fun direction => ?_))
  have sums : ∑ j, (activeProb clamp logits target * softmax logits j -
      if target.2 = j then activeProb clamp logits target else 0) * direction j =
      activeProb clamp logits target * (∑ j, softmax logits j * direction j - direction target.2) := by
    simp only [sub_mul, ite_mul, zero_mul, Finset.sum_sub_distrib, Finset.sum_ite_eq, Finset.mem_univ, if_true,
      mul_assoc, ← Finset.mul_sum, mul_sub]
  rw [linear_apply, sums, activeProb]
  split
  · simp only [FunLike.coe_smul, Pi.smul_apply, FunLike.coe_sub, Pi.sub_apply, smul_eq_mul,
      ContinuousLinearMap.proj_apply, linear_apply, neg_sub]
  · simp

theorem hasFDerivAt_loss {logits : Row ℝ world size}
    (off : ∀ bound ∈ clamp, ∀ target ∈ targets, Real.log (softmax logits target.2) ≠ bound) :
    HasFDerivAt (fun logits => gradLoss * loss clamp targets logits)
        (linear (gradient clamp targets gradLoss logits)) logits := by
  suffices sum : HasFDerivAt (loss clamp targets) (linear (fun j =>
      (targets.map (activeProb clamp logits)).sum * softmax logits j -
        (targets.map (fun target => if target.2 = j then activeProb clamp logits target else 0)).sum)) logits by
    refine (sum.const_mul gradLoss).congr_fderiv (ContinuousLinearMap.ext (fun direction => ?_))
    simp only [FunLike.coe_smul, Pi.smul_apply, linear_apply, smul_eq_mul, Finset.mul_sum, gradient, mul_assoc]
  induction targets with
  | nil =>
    refine (hasFDerivAt_const (0 : ℝ) logits).congr_fderiv (ContinuousLinearMap.ext (fun direction => ?_))
    simp [linear_apply]
  | cons target targets ih =>
    have rest := ih (fun bound isBound other member => off bound isBound other (mem_cons_of_mem _ member))
    have first := hasFDerivAt_term clamp (fun bound isBound => off bound isBound target mem_cons_self)
    have whole : loss clamp (target :: targets) = fun logits : Row ℝ world size =>
        tokenDivergence Real.exp (clampMin clamp target.1) (clampMin clamp (Real.log (softmax logits target.2))) +
          loss clamp targets logits := by
      funext logits
      rw [loss, map_cons, sum_cons, loss]
    rw [whole]
    refine (first.add rest).congr_fderiv (ContinuousLinearMap.ext (fun direction => ?_))
    simp only [FunLike.coe_add, Pi.add_apply, linear_apply, map_cons, sum_cons, ← Finset.sum_add_distrib]
    exact Finset.sum_congr rfl (fun j _ => by ring)

/-! ### All ranks -/

/-- A target with the id of its token as a number. -/
def numbered {n : Nat} (target : ℝ × Fin n) : ℝ × Nat := (target.1, target.2)

theorem isActive_shards (logits : Row ℝ world size) (j : Id world size) :
    isActive (logShards (shardLists logits)) clamp j =
        clamp.all (fun bound => decide (Real.log (softmax logits j) > bound)) := by
  rw [isActive, logShards_shardLists, logProb_shardLists]

theorem activeMass_shards (logits : Row ℝ world size) :
    activeMass (logShards (shardLists logits)) clamp (targets.map numbered) =
        (targets.map (activeProb clamp logits)).sum := by
  simp only [activeMass, map_map, Function.comp_def, numbered, isActive_shards]
  rfl

/-- An entry counts at an index of a rank only if its id is that of the index. -/
theorem scattered (logits : Row ℝ world size) (rank : Fin (world + 1)) (i : Fin (size + 1))
    (target : ℝ × Id world size) :
    (if (activeEntryOf (logShards (shardLists logits)) clamp (size + 1) rank (numbered target)).index = (i : Nat) then
      -((activeEntryOf (logShards (shardLists logits)) clamp (size + 1) rank (numbered target)).targetProb *
        if (activeEntryOf (logShards (shardLists logits)) clamp (size + 1) rank (numbered target)).active then 1 else 0)
      else 0) =
      -if target.2 = finProdFinEquiv (rank, i) then activeProb clamp logits target else 0 := by
  have place : target.2 = finProdFinEquiv (rank, i) ↔ (target.2 : Nat) = i + (size + 1) * rank := by
    rw [Fin.ext_iff, finProdFinEquiv_apply_val]
  have bound := i.isLt
  rw [activeEntryOf, numbered, isActive_shards]
  by_cases owned : rank * (size + 1) ≤ (target.2 : Nat) ∧ (target.2 : Nat) < rank * (size + 1) + (size + 1)
  · have same : (target.2 : Nat) - rank * (size + 1) = i ↔ target.2 = finProdFinEquiv (rank, i) := by
      rw [place, Nat.mul_comm (size + 1)]
      omega
    rw [if_pos owned]
    simp only [same, activeProb, mul_ite, mul_one, mul_zero]
    split <;> simp
  · have other : ¬ target.2 = finProdFinEquiv (rank, i) := by
      rw [place, Nat.mul_comm (size + 1)]
      omega
    rw [if_neg owned, if_neg other]
    simp

theorem backward_shards (logits : Row ℝ world size) (rank : Fin (world + 1)) :
    Megatron.backward ⟨(ofFn (shards (fun j => Real.log (softmax logits j)) rank)).map Real.exp,
        (targets.map numbered).map (activeEntryOf (logShards (shardLists logits)) clamp (size + 1) rank),
        activeMass (logShards (shardLists logits)) clamp (targets.map numbered)⟩ gradLoss =
      ofFn (shards (gradient clamp targets gradLoss logits) rank) := by
  rw [map_ofFn, backward_ofFn, activeMass_shards]
  congr 1
  funext i
  simp only [map_map, Function.comp_def, scattered, shards, gradient, Real.exp_log (softmax_pos _ _)]
  have negated := sum_neg (targets.map (fun target =>
    if target.2 = finProdFinEquiv (rank, i) then activeProb clamp logits target else 0))
  rw [map_map, Function.comp_def] at negated
  rw [← negated]
  ring

theorem targets_numbered : targets.map Prod.fst = (targets.map numbered).map Prod.fst ∧
    targets.map (fun target => (target.2 : Nat)) = (targets.map numbered).map Prod.snd := by
  rw [map_map, map_map]
  exact ⟨rfl, rfl⟩

theorem numbered_inside (logits : Row ℝ world size) :
    ∀ target ∈ targets.map numbered, target.2 < (shardLists logits).flatten.length := by
  intro target member
  obtain ⟨own, -, rfl⟩ := mem_map.mp member
  rw [shardLists_flatten, length_ofFn]
  exact own.2.isLt

theorem backward_ranks (logits : Row ℝ world size) : ∃ saved,
    Megatron.saveForBackward Real.exp Real.log (shardLists logits) (targets.map Prod.fst)
      (targets.map (fun target => (target.2 : Nat))) clamp = some saved ∧
      saved.map (Megatron.backward · gradLoss) = shardLists (gradient clamp targets gradLoss logits) := by
  have widths := shardLists_widths logits
  have softmax := vocabParallelLogSoftmax_eq (shardLists_ne_nil logits)
    (shards_filled widths (Nat.succ_pos size))
  have inside := numbered_inside targets logits
  rw [← logShards_length] at inside
  rw [← logShards] at softmax
  rw [(targets_numbered targets).1, (targets_numbered targets).2]
  refine ⟨_, saveForBackward_eq (logShards_widths widths) (Nat.succ_pos size) inside softmax, ?_⟩
  rw [map_map, logShards_shardLists, zipIdx_shardLists, ← logShards_shardLists, map_ofFn, shardLists]
  exact congrArg ofFn (funext (fun rank => backward_shards clamp targets gradLoss logits rank))

/-- The forward pass gives the loss on every rank, and what the ranks return from the backward pass is together its gradient,
if no log probability of the student's is at the clamp. -/
theorem backward_gradient (logits : Row ℝ world size) (few : targets.length ≤ (world + 1) * (size + 1))
    (off : ∀ bound ∈ clamp, ∀ target ∈ targets, Real.log (softmax logits target.2) ≠ bound) :
    (∀ logits : Row ℝ world size, ∃ outputs, Megatron.forward Real.exp Real.log (shardLists logits)
      (targets.map Prod.fst) (targets.map (fun target => (target.2 : Nat))) clamp = some outputs ∧
        outputs.map Outputs.distillationLosses = replicate (world + 1) (loss clamp targets logits)) ∧
    (∃ saved, Megatron.saveForBackward Real.exp Real.log (shardLists logits) (targets.map Prod.fst)
      (targets.map (fun target => (target.2 : Nat))) clamp = some saved ∧
        saved.map (Megatron.backward · gradLoss) = shardLists (gradient clamp targets gradLoss logits)) ∧
    HasFDerivAt (fun logits => gradLoss * loss clamp targets logits)
        (linear (gradient clamp targets gradLoss logits)) logits := by
  refine ⟨fun logits => ?_, backward_ranks clamp targets gradLoss logits,
    hasFDerivAt_loss clamp targets gradLoss off⟩
  have enough : (targets.map numbered).length ≤ (shardLists logits).flatten.length := by
    rwa [length_map, shardLists_flatten, length_ofFn]
  obtain ⟨outputs, returned, losses⟩ := forward_losses clamp (shardLists_widths logits) (Nat.succ_pos size)
    (shardLists_ne_nil logits) (numbered_inside targets logits) enough
  rw [(targets_numbered targets).1, (targets_numbered targets).2]
  refine ⟨outputs, returned, losses.trans ?_⟩
  rw [shardLists, length_ofFn, ← shardLists, map_map, loss]
  simp only [Function.comp_def, term, numbered, logShards_shardLists, logProb_shardLists]

/-- Two ranks with a token each. -/
def equalLogits : Row ℝ 1 0 := fun _ => 0

theorem softmax_equalLogits (id : Fin 2) : softmax equalLogits id = 1 / 2 := by
  simp [softmax, sumExp, equalLogits]

/-- The second token is twice in the top-k. -/
theorem backward_gradient_repeated :
    (∀ logits : Row ℝ 1 0, ∃ outputs, Megatron.forward Real.exp Real.log (shardLists logits) [-1, -2] [1, 1]
      (some 0) = some outputs ∧
      outputs.map Outputs.distillationLosses = replicate 2 (loss (some 0) [(-1, 1), (-2, 1)] logits)) ∧
    (∃ saved, Megatron.saveForBackward Real.exp Real.log (shardLists equalLogits) [-1, -2] [1, 1]
      (some 0) = some saved ∧
      saved.map (Megatron.backward · 3) = shardLists (gradient (some 0) [(-1, 1), (-2, 1)] 3 equalLogits)) ∧
    HasFDerivAt (fun logits : Row ℝ 1 0 => 3 * loss (some 0) [(-1, 1), (-2, 1)] logits)
      (linear (gradient (some 0) [(-1, 1), (-2, 1)] 3 equalLogits)) equalLogits :=
  backward_gradient (some 0) [(-1, 1), (-2, 1)] 3 equalLogits (by decide) (by
    rintro bound ⟨⟩ target -
    exact (softmax_equalLogits target.2).symm ▸ (Real.log_neg (by norm_num) (by norm_num)).ne)

/-! ### Every position -/

theorem sum_gradient (logits : Row ℝ world size) : ∑ j, gradient clamp targets gradLoss logits j = 0 := by
  have swap : ∑ j, (targets.map (fun target => if target.2 = j then activeProb clamp logits target else 0)).sum =
      (targets.map (activeProb clamp logits)).sum := by
    induction targets with
    | nil => simp
    | cons target targets ih => simp [Finset.sum_add_distrib, ih]
  simp only [gradient, ← Finset.mul_sum, Finset.sum_sub_distrib, sum_softmax, swap, mul_one, sub_self, mul_zero]

end Gradient
end LLMFusion.ForwardKl
