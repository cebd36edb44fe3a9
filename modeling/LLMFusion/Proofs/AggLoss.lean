import LLMFusion.Proofs.TokenAdvantage

/-! The aggregated loss over any division of a batch. In every mode it is a sum of what each row
gives, over normalisers that do not depend on the division. -/

namespace LLMFusion.CoreAlgos
open List hiding Vector
open TorchFunctional

variable {K : Type} [Field K] [LinearOrder K] {width : Nat}

/-- The modes that are accepted. -/
def modes : List String := ["token-mean", "seq-mean-token-sum", "seq-mean-token-sum-norm", "seq-mean-token-mean"]

/-- What a row gives in a mode: its tokens, or their mean. A row without valid tokens gives nothing. -/
def rowLoss (mode : String) (row : List (K × Bool)) : K :=
  if mode = "token-mean" then maskedSum row
  else if maskSum (row.map Prod.snd) > (0 : K) then
    if mode = "seq-mean-token-mean" then tokenSum row / (maskSum (row.map Prod.snd) + tiny) else tokenSum row
  else 0

/-- The normaliser of a mode. -/
def normaliser (width : Nat) (mode : String) (batchNumTokens globalBatchSize : K) (lossScaleFactor : Option K) : K :=
  if mode = "token-mean" then batchNumTokens
  else if mode = "seq-mean-token-sum-norm" then globalBatchSize * lossScaleFactor.getD (width : K)
  else globalBatchSize

def totalLoss (mode : String) (losses : List (Vector (K × Bool) width)) : K :=
  (losses.map (fun row => rowLoss mode row.toList)).sum

omit [LinearOrder K] in
theorem maskedSum_flatten (rows : List (List (K × Bool))) : maskedSum rows.flatten = (rows.map maskedSum).sum := by
  induction rows with
  | nil => simp [maskedSum]
  | cons row rows ih =>
    rw [flatten_cons, map_cons, sum_cons, ← ih, maskedSum, map_append, sum_append]
    rfl

omit [LinearOrder K] in
theorem maskedSum_map {α : Type} (value : α → K) (valid : α → Bool) (items : List α) :
    maskedSum (items.map (fun item => (value item, valid item))) =
      (items.map (fun item => if valid item = true then value item else 0)).sum := by
  rw [maskedSum, map_map]
  congr 1
  apply map_congr_left
  intro item _
  cases isValid : valid item <;> simp [isValid]

theorem aggLoss_global (losses : List (Vector (K × Bool) width)) {mode : String} (accepted : mode ∈ modes) (dpSize : Nat)
    (batchNumTokens globalBatchSize : Nat) (lossScaleFactor : Option K) :
    aggLoss losses mode dpSize (some batchNumTokens) (some globalBatchSize) lossScaleFactor = .ok (totalLoss mode losses /
        normaliser width mode (batchNumTokens : K) (globalBatchSize : K) lossScaleFactor * dpSize) := by
  simp only [modes, mem_cons, not_mem_nil, or_false] at accepted
  rcases accepted with rfl | rfl | rfl | rfl
  · simp only [aggLoss, if_true, orCount, Fallible.ok_bind, maskedSum_flatten, totalLoss, rowLoss, normaliser, map_map]
    rfl
  · have sums := maskedSum_map tokenSum (fun row : List (K × Bool) => decide (maskSum (row.map Prod.snd) > (0 : K)))
      (losses.map Vector.toList)
    simp only [aggLoss, orCount, sums]
    simp [totalLoss, rowLoss, normaliser, Function.comp_def]
  · have sums := maskedSum_map tokenSum (fun row : List (K × Bool) => decide (maskSum (row.map Prod.snd) > (0 : K)))
      (losses.map Vector.toList)
    have scaled : ∀ total size factor ranks : K, total / size * ranks / factor = total / (size * factor) * ranks := by
      intro total size factor ranks
      ring
    simp only [aggLoss, orCount, sums]
    simp [totalLoss, rowLoss, normaliser, scaled, Function.comp_def]
  · have sums := maskedSum_map (fun row : List (K × Bool) => tokenSum row / (maskSum (row.map Prod.snd) + tiny))
      (fun row : List (K × Bool) => decide (maskSum (row.map Prod.snd) > (0 : K))) (losses.map Vector.toList)
    simp only [aggLoss, orCount, sums]
    simp [totalLoss, rowLoss, normaliser, Function.comp_def]

/-- What one rank counts of its own batch, where no normaliser is given. -/
def countTokens (losses : List (Vector (K × Bool) width)) : Nat :=
  (losses.map (fun row => (row.toList.map Prod.snd).count true)).sum

def countSequences (losses : List (Vector (K × Bool) width)) : Nat :=
  losses.countP (fun row => (row.toList.map Prod.snd).contains true)

omit [LinearOrder K] in
theorem sum_scaled (terms : List K) (size ranks : K) : (terms.map (fun term => term / size * ranks)).sum = terms.sum / size * ranks := by
  induction terms with
  | nil => simp
  | cons term terms ih =>
    rw [map_cons, sum_cons, sum_cons, ih]
    ring

theorem totalLoss_flatten (mode : String) (parts : List (List (Vector (K × Bool) width))) :
    totalLoss mode parts.flatten = (parts.map (totalLoss mode)).sum := by
  induction parts with
  | nil => rfl
  | cons part parts ih =>
    rw [flatten_cons, totalLoss, map_append, sum_append, ← totalLoss, ← totalLoss, ih, map_cons,
      sum_cons]

variable [IsStrictOrderedRing K]

theorem sequence_counts (row : List (K × Bool)) :
    decide (maskSum (row.map Prod.snd) > (0 : K)) = (row.map Prod.snd).contains true := by
  rw [maskSum_count, Bool.eq_iff_iff, decide_eq_true_eq, contains_iff_mem, gt_iff_lt, Nat.cast_pos, count_pos_iff]

theorem maskSum_tokens (losses : List (Vector (K × Bool) width)) :
    (maskSum ((losses.map Vector.toList).flatten.map Prod.snd) : K) = countTokens losses := by
  rw [maskSum_count, map_flatten, count_flatten, map_map, map_map]
  rfl

theorem maskSum_sequences (losses : List (Vector (K × Bool) width)) :
    (maskSum ((losses.map Vector.toList).map (fun row => decide (maskSum (row.map Prod.snd) > (0 : K)))) : K) =
      countSequences losses := by
  simp only [map_map, Function.comp_def, sequence_counts]
  rw [maskSum_count, countSequences, count_eq_countP, countP_map]
  congr 2
  funext row
  simp

theorem aggLoss_counted (losses : List (Vector (K × Bool) width)) (mode : String) (lossScaleFactor : Option K) :
    aggLoss losses mode 1 none none lossScaleFactor =
      aggLoss losses mode 1 (some (countTokens losses)) (some (countSequences losses)) lossScaleFactor := by
  have sequences : ∀ value : List (K × Bool) → K, (maskSum (((losses.map Vector.toList).map (fun row =>
      (value row, decide (maskSum (row.map Prod.snd) > (0 : K))))).map Prod.snd) : K) = countSequences losses := by
    intro value
    rw [← maskSum_sequences, map_map]
    rfl
  simp only [aggLoss, orCount, maskSum_tokens, sequences, gt_iff_lt, lt_self_iff_false, if_false]

/-- The average over the ranks of what they sum over their micro-batches is the loss of the whole batch. -/
theorem aggLoss_divided {mode : String} (accepted : mode ∈ modes) {ranks : List (List (List (Vector (K × Bool) width)))}
    {batch : List (Vector (K × Bool) width)} (nonempty : ranks ≠ []) (division : ranks.flatten.flatten.Perm batch)
    (batchNumTokens globalBatchSize : Nat) (lossScaleFactor : Option K) :
    ∃ losses whole,
      ranks.mapM (fun microBatches => microBatches.mapM (fun microBatch =>
        aggLoss microBatch mode ranks.length (some batchNumTokens) (some globalBatchSize) lossScaleFactor)) = .ok losses ∧
      aggLoss batch mode 1 (some batchNumTokens) (some globalBatchSize) lossScaleFactor = .ok whole ∧
      (losses.map List.sum).sum / ranks.length = whole ∧
      (batchNumTokens = countTokens batch → globalBatchSize = countSequences batch →
        aggLoss batch mode 1 none none lossScaleFactor = .ok whole) := by
  have each : ∀ microBatches ∈ ranks, microBatches.mapM (fun microBatch =>
      aggLoss microBatch mode ranks.length (some batchNumTokens) (some globalBatchSize) lossScaleFactor) =
      .ok (microBatches.map (fun microBatch => totalLoss mode microBatch /
        normaliser width mode (batchNumTokens : K) (globalBatchSize : K) lossScaleFactor * ranks.length)) :=
    fun microBatches _ => Fallible.mapM_map _ (fun microBatch _ => aggLoss_global microBatch accepted _ _ _ _)
  have whole := aggLoss_global batch accepted 1 batchNumTokens globalBatchSize lossScaleFactor
  refine ⟨_, _, Fallible.mapM_map _ each, whole, ?_, ?_⟩
  · have count : (ranks.length : K) ≠ 0 := by
      exact_mod_cast (List.length_pos_of_ne_nil nonempty).ne'
    have rows : (ranks.map (fun microBatches => (microBatches.map (totalLoss mode)).sum)).sum = totalLoss mode batch := by
      calc (ranks.map (fun microBatches => (microBatches.map (totalLoss mode)).sum)).sum
          = (ranks.map (fun microBatches => totalLoss mode microBatches.flatten)).sum := by simp only [totalLoss_flatten]
        _ = totalLoss mode (ranks.map List.flatten).flatten := by rw [totalLoss_flatten, List.map_map]; rfl
        _ = totalLoss mode ranks.flatten.flatten := by rw [List.flatten_flatten]
        _ = totalLoss mode batch := (division.map _).sum_eq
    have sums : ∀ microBatches : List (List (Vector (K × Bool) width)),
        (microBatches.map (fun microBatch => totalLoss mode microBatch /
          normaliser width mode (batchNumTokens : K) (globalBatchSize : K) lossScaleFactor * ranks.length)).sum =
        (microBatches.map (totalLoss mode)).sum /
          normaliser width mode (batchNumTokens : K) (globalBatchSize : K) lossScaleFactor * ranks.length := by
      intro microBatches
      rw [← sum_scaled, List.map_map]
      rfl
    have total := sum_scaled (ranks.map (fun microBatches => (microBatches.map (totalLoss mode)).sum))
      (normaliser width mode (batchNumTokens : K) (globalBatchSize : K) lossScaleFactor) ranks.length
    rw [List.map_map, rows] at total
    simp only [List.map_map, Function.comp_def, sums] at total ⊢
    rw [total, Nat.cast_one, mul_one, mul_div_cancel_right₀ _ count]
  · rintro rfl rfl
    rw [aggLoss_counted, whole]

/-- A row with a valid token, and one without. -/
def lossRows : List (Vector (ℚ × Bool) 1) := [#v[(4, true)], #v[(9, false)]]

theorem aggLoss_divided_two :
    ∃ losses whole,
      (lossRows.map (fun row => [[row]])).mapM (fun microBatches => microBatches.mapM (fun microBatch =>
        aggLoss microBatch "seq-mean-token-sum" 2 (some 1) (some 1) none)) = .ok losses ∧
      aggLoss lossRows "seq-mean-token-sum" 1 (some 1) (some 1) none = .ok whole ∧
      (losses.map List.sum).sum / ((2 : Nat) : ℚ) = whole ∧
      (1 = countTokens lossRows → 1 = countSequences lossRows →
        aggLoss lossRows "seq-mean-token-sum" 1 none none none = .ok whole) := by
  have accepted : "seq-mean-token-sum" ∈ modes := by decide
  have nonempty : lossRows.map (fun row => [[row]]) ≠ [] := by simp [lossRows]
  exact aggLoss_divided accepted nonempty (List.Perm.refl _) 1 1 none

end LLMFusion.CoreAlgos
