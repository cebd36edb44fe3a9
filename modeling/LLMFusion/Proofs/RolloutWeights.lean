import LLMFusion.Proofs.RolloutRejection
import LLMFusion.Proofs.TokenAdvantage

/-! Weights of rollouts of another policy. The metrics divide by the mean of squares of the applied
weights, so that a call returns when a valid token keeps a weight, and only then. -/

namespace LLMFusion.RolloutCorrHelper
open List hiding Vector
open TorchFunctional CoreAlgos Fallible

section Positive
variable {K : Type} [Field K] [LinearOrder K] [IsStrictOrderedRing K]

theorem tiny_pos : (0 : K) < tiny := by
  rw [tiny]
  positivity

theorem maskSum_nonneg (mask : List Bool) : (0 : K) ≤ maskSum mask := by
  rw [maskSum_count]
  exact Nat.cast_nonneg _

omit [LinearOrder K] [IsStrictOrderedRing K] in
theorem maskedSum_cons (entry : K × Bool) (entries : List (K × Bool)) :
    maskedSum (entry :: entries) = (if entry.2 then entry.1 else 0) + maskedSum entries := by
  rw [maskedSum, map_cons, sum_cons, ← maskedSum]
  cases entry.2 with
  | true => simp
  | false => simp

theorem maskedSum_nonneg {entries : List (K × Bool)} (nonneg : ∀ entry ∈ entries, 0 ≤ entry.1) : 0 ≤ maskedSum entries := by
  induction entries with
  | nil => exact le_of_eq rfl
  | cons entry entries ih =>
    obtain ⟨first, rest⟩ := forall_mem_cons.mp nonneg
    rw [maskedSum_cons]
    refine add_nonneg ?_ (ih rest)
    split
    · exact first
    · exact le_rfl

theorem maskedMean_nonneg {entries : List (K × Bool)} (nonneg : ∀ entry ∈ entries, 0 ≤ entry.1) : 0 ≤ maskedMean entries :=
  div_nonneg (maskedSum_nonneg nonneg) (add_nonneg (maskSum_nonneg _) tiny_pos.le)

theorem maskedSum_squares (entries : List (K × Bool)) :
    maskedSum (entries.map (fun entry => (entry.1 ^ 2, entry.2))) = 0 ↔ ∀ entry ∈ entries, entry.2 = true → entry.1 = 0 := by
  induction entries with
  | nil => exact iff_of_true rfl (fun _ member => (not_mem_nil member).elim)
  | cons entry entries ih =>
    have rest : 0 ≤ maskedSum (entries.map (fun entry : K × Bool => (entry.1 ^ 2, entry.2))) := by
      apply maskedSum_nonneg
      intro square member
      obtain ⟨other, _, rfl⟩ := mem_map.mp member
      exact sq_nonneg other.1
    rw [map_cons, maskedSum_cons, forall_mem_cons, ← ih]
    cases entry.2 with
    | true => rw [if_pos rfl, add_eq_zero_iff_of_nonneg (sq_nonneg _) rest, sq_eq_zero_iff, forall_prop_of_true rfl]
    | false => rw [if_neg Bool.false_ne_true, zero_add, and_iff_right (fun invalid => (Bool.false_ne_true invalid).elim)]

theorem maskedMean_squares (entries : List (K × Bool)) :
    maskedMean (entries.map (fun entry => (entry.1 ^ 2, entry.2))) = 0 ↔ ∀ entry ∈ entries, entry.2 = true → entry.1 = 0 := by
  rw [maskedMean, div_eq_zero_iff, or_iff_left (ne_of_gt (add_pos_of_nonneg_of_pos (maskSum_nonneg _) tiny_pos)),
    maskedSum_squares]

end Positive

section Metrics
variable {K : Type} [Field K] [LinearOrder K] [IsStrictOrderedRing K] (py : Functions K)

/-- What `clamp(min=0.0, max=upper)` makes of the weights of an entry. -/
def essWeights (upper : K) (weights : List (List (K × Bool))) : List (K × Bool) :=
  weights.flatten.map (fun entry => (clamp entry.1 0 upper, entry.2))

theorem bind_returns {ε α β : Type} (first : Except ε α) (next : α → β) :
    (∃ result, (first >>= fun value => Except.ok (next value)) = .ok result) ↔ ∃ value, first = .ok value := by
  cases first with
  | ok value => exact iff_of_true ⟨_, rfl⟩ ⟨value, rfl⟩
  | error failure => exact iff_of_false (by rintro ⟨_, returned⟩; cases returned) (by rintro ⟨_, returned⟩; cases returned)

omit [IsStrictOrderedRing K] in
theorem reciprocal_returns {x : K} : (∃ value, reciprocal x = .ok value) ↔ x ≠ 0 := by
  unfold reciprocal
  split
  · next zero => exact iff_of_false (by rintro ⟨_, returned⟩; cases returned) (fun nonzero => nonzero zero)
  · next nonzero => exact iff_of_true ⟨_, rfl⟩ nonzero

theorem ess_zero {upper : K} (positive : 0 < upper) (weights : List (List (K × Bool))) :
    maskedMean (((essWeights upper weights).map (fun entry =>
        (entry.1 / (maskedMean (essWeights upper weights) + tiny), entry.2))).map (fun entry => (entry.1 ^ 2, entry.2))) = 0 ↔
      ∀ entry ∈ essWeights upper weights, entry.2 = true → entry.1 = 0 := by
  have nonneg : ∀ entry ∈ essWeights upper weights, 0 ≤ entry.1 := by
    intro entry member
    obtain ⟨original, _, rfl⟩ := mem_map.mp member
    exact le_min (le_max_right _ _) positive.le
  have divisor : maskedMean (essWeights upper weights) + tiny ≠ 0 :=
    ne_of_gt (add_pos_of_nonneg_of_pos (maskedMean_nonneg nonneg) tiny_pos)
  rw [maskedMean_squares, forall_mem_map]
  simp only [div_eq_zero_iff, or_iff_left divisor]

omit [IsStrictOrderedRing K] in
theorem clamp_zero {x upper : K} (positive : 0 < upper) : clamp x 0 upper = 0 ↔ x ≤ 0 := by
  rw [clamp]
  constructor
  · intro zero
    rcases min_choice (max x 0) upper with inside | beyond
    · exact max_eq_right_iff.mp (inside.symm.trans zero)
    · exact absurd (beyond.symm.trans zero) (ne_of_gt positive)
  · intro nonpos
    rw [max_eq_right nonpos, min_eq_left positive.le]

theorem computeIsMetrics_returns {weights raw : List (List (K × Bool))} {logs : List K} (level : Level) {upper : K}
    (lower : Option K) (positive : 0 < upper) (valid : weights.any (fun row => row.any Prod.snd) = true) (logged : logs ≠ []) :
    (∃ metrics, computeIsMetrics py weights raw logs level upper lower = .ok metrics) ↔
      ∃ entry ∈ weights.flatten, entry.2 = true ∧ 0 < entry.1 := by
  have nonempty : weights ≠ [] := by
    rintro rfl
    cases valid
  have kept : (∃ entry ∈ weights.flatten, entry.2 = true ∧ 0 < entry.1) ↔
      ¬ ∀ entry ∈ essWeights upper weights, entry.2 = true → entry.1 = 0 := by
    simp only [essWeights, forall_mem_map, clamp_zero positive, not_forall, not_le, exists_prop]
  have inverse : reciprocal upper = .ok (1 / upper) := if_neg (ne_of_gt positive)
  obtain ⟨most, largestValid⟩ := largest_returns (validValues_ne_nil valid)
  obtain ⟨least, smallestValid⟩ := smallest_returns (validValues_ne_nil valid)
  obtain ⟨logMax, largestLog⟩ := largest_returns logged
  obtain ⟨logMin, smallestLog⟩ := smallest_returns logged
  obtain ⟨seqMost, largestSeq⟩ := largest_returns (show weights.map maskedMean ≠ [] by simpa using nonempty)
  obtain ⟨seqLeast, smallestSeq⟩ := smallest_returns (show weights.map maskedMean ≠ [] by simpa using nonempty)
  obtain ⟨deviation, largestDeviation⟩ := largest_returns
    (show (weights.map maskedMean).map (fun value => |value - 1|) ≠ [] by simpa using nonempty)
  rw [kept, ← ess_zero positive, ← ne_eq, ← reciprocal_returns]
  unfold computeIsMetrics essWeights
  simp only [valid, not_true_eq_false, if_false, largestSeq, smallestSeq, largestDeviation, ok_bind]
  cases level with
  | token =>
    simp only [largestValid, smallestValid, ok_bind]
    cases lower with
    | none =>
      simp only [inverse, ok_bind]
      exact bind_returns _ _
    | some lower => exact bind_returns _ _
  | sequence =>
    simp only [largestLog, smallestLog, ok_bind]
    cases lower with
    | none =>
      simp only [inverse, ok_bind]
      exact bind_returns _ _
    | some lower => exact bind_returns _ _

end Metrics

section Threshold
variable {K : Type} [Field K] [LinearOrder K] (py : Functions K)

theorem parse_positive {spec : ThresholdSpec K} {upper : K} {lower : Option K}
    (parsed : parseRolloutIsThreshold py spec = .ok (upper, lower)) :
    0 < upper ∧ ∀ bound, lower = some bound → 0 < bound ∧ bound ≤ upper := by
  obtain ⟨⟨high, low⟩, _, parsed⟩ := bind_eq_ok.mp parsed
  simp only at parsed
  split at parsed
  · cases parsed
  · next positive =>
    cases low with
    | none =>
      cases parsed
      exact ⟨not_le.mp positive, fun bound absent => (Option.some_ne_none bound absent.symm).elim⟩
    | some low =>
      simp only at parsed
      split at parsed
      · cases parsed
      · next positive' =>
        split at parsed
        · cases parsed
        · next ordered =>
          cases parsed
          refine ⟨not_le.mp positive, fun bound same => ?_⟩
          cases same
          exact ⟨not_le.mp positive', not_lt.mp ordered⟩

end Threshold

/-! ### The weights of a call -/

section Weights
variable {K : Type} [Field K] [LinearOrder K] (py : Functions K)

/-- The weight of a token before masks and bounds. -/
def importance (level : Level) (row : List (K × Bool)) (token : K × Bool) : K :=
  py.exp (logRatioSafe (match level with
    | .token => token.1
    | .sequence => maskedSum row))

/-- The weights before batch normalisation, each with its place in the mask. -/
def applied (level : Level) (upper : K) (lower : Option K) (rows : List (List (K × Bool))) : List (List (K × Bool)) :=
  rows.map (fun row => row.map (fun token =>
    (applyBounds upper lower (importance py level row token * weight token.2), token.2)))

theorem rawWeights_eq (level : Level) (rows : List (List (K × Bool))) : rawWeights py level rows =
      rows.map (fun row => row.map (fun token => (importance py level row token * weight token.2, token.2))) := by
  cases level with
  | token => rfl
  | sequence => rfl

theorem applied_eq (level : Level) (upper : K) (lower : Option K) (rows : List (List (K × Bool))) :
    (rawWeights py level rows).map (map (fun entry => (applyBounds upper lower entry.1, entry.2))) =
      applied py level upper lower rows := by
  rw [rawWeights_eq, applied, map_map]
  simp only [Function.comp_def, map_map]

/-- What holds of a weight before batch normalisation: it is zero at a masked place, never above the upper
bound, and zero or in the range where a range is given. -/
def Bounded (upper : K) (lower : Option K) (token : K × Bool) (weight : K) : Prop :=
  (token.2 = false → weight = 0) ∧ weight ≤ upper ∧ ∀ bound, lower = some bound → weight = 0 ∨ (bound ≤ weight ∧ weight ≤ upper)

def AllBounded {width : Nat} (upper : K) (lower : Option K) (batch : List (Vector (K × Bool) width)) (entries : List (List K)) :
    Prop :=
  List.Forall₂ (fun row entries => List.Forall₂ (Bounded upper lower) row.toList entries) batch entries

/-- Zero at masked places. -/
def MaskedZero {width : Nat} (batch : List (Vector (K × Bool) width)) (weights : List (List K)) : Prop :=
  List.Forall₂ (fun row weights => List.Forall₂ (fun token weight => token.2 = false → weight = 0) row.toList weights)
    batch weights

theorem applyBounds_bounded {upper : K} {lower : Option K} (positive : 0 < upper)
    (ordered : ∀ bound, lower = some bound → 0 < bound ∧ bound ≤ upper) (level : Level) (row : List (K × Bool))
    (token : K × Bool) :
    Bounded upper lower token (applyBounds upper lower (importance py level row token * weight token.2)) := by
  cases lower with
  | none =>
    refine ⟨fun masked => ?_, min_le_right _ _, fun bound absent => (Option.some_ne_none bound absent.symm).elim⟩
    rw [masked, weight_false, mul_zero]
    exact min_eq_left positive.le
  | some lower =>
    have below := (ordered lower rfl).1
    rw [applyBounds]
    split
    · next inside =>
      refine ⟨fun masked => ?_, inside.2, fun bound same => .inr (Option.some.inj same ▸ inside)⟩
      rw [masked, weight_false, mul_zero] at inside
      exact absurd inside.1 (not_le.mpr below)
    · exact ⟨fun _ => rfl, positive.le, fun _ _ => .inl rfl⟩

/-- A valid token keeps a weight when a single bound truncates it, or when it is in the range. -/
theorem applyBounds_pos {upper : K} {lower : Option K} (positive : 0 < upper)
    (ordered : ∀ bound, lower = some bound → 0 < bound ∧ bound ≤ upper) {raw : K} (above : 0 < raw) :
    0 < applyBounds upper lower raw ↔ ∀ bound, lower = some bound → bound ≤ raw ∧ raw ≤ upper := by
  cases lower with
  | none => exact iff_of_true (lt_min above positive) (fun bound absent => (Option.some_ne_none bound absent.symm).elim)
  | some lower =>
    rw [applyBounds]
    split
    · next inside => exact iff_of_true above (fun bound same => Option.some.inj same ▸ inside)
    · next outside => exact iff_of_false (lt_irrefl 0) (fun inside => outside (inside lower rfl))

end Weights

section Call
variable {K : Type} [Field K] [LinearOrder K] [IsStrictOrderedRing K] (py : Functions K) {width : Nat}
  {batch : List (Vector (K × Bool) width)} {level : Level} {spec : ThresholdSpec K} {upper : K} {lower : Option K}

/-- The weights that a call returns are the applied ones over a scale, which is one without normalisation. -/
def Scaled (normalize : Bool) (weights entries : List (List K)) : Prop :=
  ∃ scale, 0 < scale ∧ (normalize = false → scale = 1) ∧ weights = entries.map (List.map (· / scale))

theorem scaled_one (normalize : Bool) (entries : List (List K)) : Scaled normalize entries entries := by
  refine ⟨1, one_pos, fun _ => rfl, ?_⟩
  simp

/-- A call returns when its metrics can be computed, and then it returns the applied weights. -/
theorem computeWeights_returns (batch : List (Vector (K × Bool) width)) (level : Level) (others : Option (K × K)) (normalize : Bool)
    (parsed : parseRolloutIsThreshold py spec = .ok (upper, lower)) :
    ((∃ result, computeRolloutCorrectionWeights py others batch level spec normalize = .ok result) ↔
      ∃ metrics, computeIsMetrics py (applied py level upper lower (batch.map Vector.toList))
        (rawWeights py level (batch.map Vector.toList)) ((batch.map Vector.toList).map maskedSum) level upper lower = .ok metrics) ∧
    ∀ result, computeRolloutCorrectionWeights py others batch level spec normalize = .ok result →
      Scaled normalize result.1 ((applied py level upper lower (batch.map Vector.toList)).map (map Prod.fst)) := by
  unfold computeRolloutCorrectionWeights
  simp only [parsed, ok_bind, applied_eq]
  cases computeIsMetrics py (applied py level upper lower (batch.map Vector.toList))
      (rawWeights py level (batch.map Vector.toList)) ((batch.map Vector.toList).map maskedSum) level upper lower with
  | error failure =>
    refine ⟨iff_of_false ?_ ?_, ?_⟩
    · rintro ⟨_, returned⟩
      cases returned
    · rintro ⟨_, returned⟩
      cases returned
    · intro result returned
      cases returned
  | ok metrics =>
    simp only [ok_bind]
    cases normalize with
    | false =>
      refine ⟨iff_of_true ⟨_, rfl⟩ ⟨metrics, rfl⟩, fun result returned => ?_⟩
      cases returned
      exact scaled_one _ _
    | true =>
      simp only [if_true]
      split
      · next large =>
        refine ⟨iff_of_true ⟨_, rfl⟩ ⟨metrics, rfl⟩, fun result returned => ?_⟩
        cases returned
        exact ⟨_, tiny_pos.trans large, fun absent => (Bool.false_ne_true absent.symm).elim, rfl⟩
      · refine ⟨iff_of_true ⟨_, rfl⟩ ⟨metrics, rfl⟩, fun result returned => ?_⟩
        cases returned
        exact scaled_one _ _

/-- Some valid token of a batch keeps its weight: with a range, its ratio is in the range. -/
def Survives (level : Level) (upper : K) (lower : Option K) (batch : List (Vector (K × Bool) width)) : Prop :=
  ∀ bound, lower = some bound → ∃ row ∈ batch, ∃ token ∈ row.toList, token.2 = true ∧
    bound ≤ importance py level row.toList token ∧ importance py level row.toList token ≤ upper

omit [IsStrictOrderedRing K] in
theorem applied_any (rows : List (List (K × Bool))) :
    (applied py level upper lower rows).any (fun row => row.any Prod.snd) = rows.any (fun row => row.any Prod.snd) := by
  rw [applied, any_map]
  simp only [Function.comp_def, any_map]

omit [IsStrictOrderedRing K] in
theorem survives_iff (positive : ∀ x, 0 < py.exp x) (above : 0 < upper)
    (ordered : ∀ bound, lower = some bound → 0 < bound ∧ bound ≤ upper)
    (valid : ∃ row ∈ batch, ∃ token ∈ row.toList, token.2 = true) :
    (∃ entry ∈ (applied py level upper lower (batch.map Vector.toList)).flatten, entry.2 = true ∧ 0 < entry.1) ↔
      Survives py level upper lower batch := by
  have kept : ∀ row : Vector (K × Bool) width, ∀ token : K × Bool, token.2 = true →
      (0 < applyBounds upper lower (importance py level row.toList token * weight token.2) ↔
        ∀ bound, lower = some bound → bound ≤ importance py level row.toList token ∧ importance py level row.toList token ≤ upper) := by
    intro row token isValid
    rw [isValid, weight_true, mul_one]
    exact applyBounds_pos above ordered (positive _)
  constructor
  · rintro ⟨entry, member, isValid, survives⟩ bound same
    obtain ⟨entries, placed, located⟩ := mem_flatten.mp member
    obtain ⟨_, converted, rfl⟩ := mem_map.mp placed
    obtain ⟨row, inside, rfl⟩ := mem_map.mp converted
    obtain ⟨token, within, rfl⟩ := mem_map.mp located
    exact ⟨row, inside, token, within, isValid, (kept row token isValid).mp survives bound same⟩
  · intro survives
    obtain ⟨row, inside, token, member, isValid, bounds⟩ : ∃ row ∈ batch, ∃ token ∈ row.toList, token.2 = true ∧
        ∀ bound, lower = some bound → bound ≤ importance py level row.toList token ∧ importance py level row.toList token ≤ upper := by
      cases lower with
      | none =>
        obtain ⟨row, inside, token, member, isValid⟩ := valid
        exact ⟨row, inside, token, member, isValid, fun bound absent => (Option.some_ne_none bound absent.symm).elim⟩
      | some lower =>
        obtain ⟨row, inside, token, member, isValid, bounds⟩ := survives lower rfl
        exact ⟨row, inside, token, member, isValid, fun bound same => Option.some.inj same ▸ bounds⟩
    refine ⟨_, mem_flatten.mpr ⟨_, mem_map_of_mem (mem_map_of_mem inside), mem_map_of_mem member⟩, isValid, ?_⟩
    exact (kept row token isValid).mpr bounds

omit [IsStrictOrderedRing K] in
theorem applied_bounded (batch : List (Vector (K × Bool) width)) (level : Level) (above : 0 < upper) (ordered : ∀ bound, lower = some bound → 0 < bound ∧ bound ≤ upper) :
    AllBounded upper lower batch ((applied py level upper lower (batch.map Vector.toList)).map (map Prod.fst)) := by
  rw [AllBounded, applied, map_map, map_map, forall₂_map_right_iff, forall₂_same]
  intro row _
  simp only [Function.comp_def, map_map]
  rw [forall₂_map_right_iff, forall₂_same]
  exact fun token _ => applyBounds_bounded py above ordered level row.toList token

omit [IsStrictOrderedRing K] in
theorem scaled_zero {normalize : Bool} {weights entries : List (List K)} (scaled : Scaled normalize weights entries)
    (bounded : AllBounded upper lower batch entries) : MaskedZero batch weights := by
  obtain ⟨scale, _, _, rfl⟩ := scaled
  rw [MaskedZero, forall₂_map_right_iff]
  refine bounded.imp (fun row entries rowBounded => ?_)
  rw [forall₂_map_right_iff]
  refine rowBounded.imp (fun token entry tokenBounded masked => ?_)
  rw [tokenBounded.1 masked, zero_div]

/-- The weights of a call are as described exactly when it has a single bound, or a range in which the ratio of some
valid token is: otherwise a metric divides by zero. -/
theorem correctionWeights_iff (positive : ∀ x, 0 < py.exp x) (others : Option (K × K)) (normalize : Bool)
    (parsed : parseRolloutIsThreshold py spec = .ok (upper, lower))
    (valid : ∃ row ∈ batch, ∃ token ∈ row.toList, token.2 = true) :
    (∃ weights metrics entries,
        computeRolloutCorrectionWeights py others batch level spec normalize = .ok (weights, metrics) ∧
        MaskedZero batch weights ∧ Scaled normalize weights entries ∧ AllBounded upper lower batch entries) ↔
      Survives py level upper lower batch := by
  obtain ⟨above, ordered⟩ := parse_positive py parsed
  obtain ⟨returns, scaled⟩ := computeWeights_returns py batch level others normalize parsed
  have hasValid : (applied py level upper lower (batch.map Vector.toList)).any (fun row => row.any Prod.snd) = true := by
    obtain ⟨row, inside, token, member, isValid⟩ := valid
    rw [applied_any]
    exact List.any_eq_true.mpr ⟨row.toList, List.mem_map_of_mem inside, List.any_eq_true.mpr ⟨token, member, isValid⟩⟩
  have logged : (batch.map Vector.toList).map maskedSum ≠ [] := by
    obtain ⟨row, inside, _⟩ := valid
    exact List.ne_nil_of_mem (List.mem_map_of_mem (List.mem_map_of_mem inside))
  rw [computeIsMetrics_returns py level lower above hasValid logged, survives_iff py positive above ordered valid] at returns
  rw [← returns]
  constructor
  · rintro ⟨weights, metrics, _, returned, _⟩
    exact ⟨_, returned⟩
  · rintro ⟨⟨weights, metrics⟩, returned⟩
    have bounded := applied_bounded py batch level above ordered
    exact ⟨weights, metrics, _, returned, scaled_zero (scaled _ returned) bounded, scaled _ returned, bounded⟩

end Call

/-- The functions at zero, with two numbers to read. -/
def twoAndThree : Functions ℚ :=
  { atZero with float := fun text => if text = "2" then some 2 else if text = "3" then some 3 else none }

def oneZero : List (Vector (ℚ × Bool) 1) := [⟨#[(0, true)], rfl⟩]

theorem correctionWeights_two : ∃ weights metrics entries,
    computeRolloutCorrectionWeights twoAndThree none oneZero .token (.text "2") false = .ok (weights, metrics) ∧
      MaskedZero oneZero weights ∧ Scaled false weights entries ∧ AllBounded 2 none oneZero entries := by
  have parsed : parseRolloutIsThreshold twoAndThree (.text "2") = .ok (2, none) := by decide +kernel
  have valid : ∃ row ∈ oneZero, ∃ token ∈ row.toList, token.2 = true :=
    ⟨_, List.mem_cons_self, _, List.mem_cons_self, rfl⟩
  exact (correctionWeights_iff twoAndThree (fun _ => one_pos) none false parsed valid).mpr
    (fun bound absent => (Option.some_ne_none bound absent.symm).elim)

/-- A range in which no ratio is: the metrics divide by zero. -/
theorem range_zeroDivision :
    computeRolloutCorrectionWeights twoAndThree none oneZero .token (.text "2_3") false = .error .zeroDivision := by
  decide +kernel

end LLMFusion.RolloutCorrHelper
