import LLMFusion.Proofs.RolloutRejection

/-! The ratio bounds of the `k1` options over the real numbers. The statistic is the logarithm of the
inverse ratio, and the bounds are those of the ratio: what is kept is documented only where the two
directions agree. -/

namespace LLMFusion.RolloutCorrHelper
open List hiding Vector
open TorchFunctional CoreAlgos Fallible

/-- The functions of the real numbers, by what strings mean as numbers. -/
noncomputable def reals (float : String → Option ℝ) (str : ℝ → String) : Functions ℝ where
  exp := Real.exp
  log := Real.log
  sigmoid x := 1 / (1 + Real.exp (-x))
  sqrt := Real.sqrt
  float := float
  str := str

/-! ### What the documentation says -/

/-- The log ratios of the valid tokens. -/
def validLogs (row : List (ℝ × Bool)) : List ℝ := (row.filter Prod.snd).map Prod.fst

/-- The ratio of a token, the product of those of a sequence, or their geometric mean. -/
noncomputable def documentedRatio (option : RsOption) (row : List (ℝ × Bool)) (token : ℝ × Bool) : ℝ :=
  match option.aggregation with
  | .token => Real.exp token.1
  | .mean => ((validLogs row).map Real.exp).prod ^ (1 / ((validLogs row).length : ℝ))
  | _ => ((validLogs row).map Real.exp).prod

/-- The valid tokens whose ratio is in the bounds, those of whole sequences for options of sequences. -/
noncomputable def documentedMask (option : RsOption) (lower upper : ℝ) (rows : List (List (ℝ × Bool))) : List (List Bool) :=
  rows.map (fun row => row.map (fun token =>
    token.2 && decide (lower ≤ documentedRatio option row token ∧ documentedRatio option row token ≤ upper)))

/-! ### What the code compares -/

/-- The logarithm of the documented ratio. -/
noncomputable def documentedLog (option : RsOption) (row : List (ℝ × Bool)) (token : ℝ × Bool) : ℝ :=
  match option.aggregation with
  | .token => token.1
  | .mean => (validLogs row).sum / (validLogs row).length
  | _ => (validLogs row).sum

/-- The part of a mean that is left when a small number is added to the count. -/
noncomputable def shrink (option : RsOption) (row : List (ℝ × Bool)) : ℝ :=
  match option.aggregation with
  | .mean => (validLogs row).length / ((validLogs row).length + tiny)
  | _ => 1

theorem documentedRatio_exp (option : RsOption) (row : List (ℝ × Bool)) (token : ℝ × Bool) :
    documentedRatio option row token = Real.exp (documentedLog option row token) := by
  unfold documentedRatio documentedLog
  cases option.aggregation with
  | token => rfl
  | sum => exact (Real.exp_list_sum _).symm
  | max => exact (Real.exp_list_sum _).symm
  | mean =>
    simp only
    rw [← Real.exp_list_sum, ← Real.exp_mul, mul_one_div]

theorem maskedSum_valid (g : ℝ → ℝ) (row : List (ℝ × Bool)) :
    maskedSum (row.map (fun entry => (g entry.1, entry.2))) = ((validLogs row).map g).sum := by
  induction row with
  | nil => rfl
  | cons entry row ih =>
    obtain ⟨value, valid⟩ := entry
    rw [maskedSum, map_cons, map_cons, sum_cons, ← maskedSum, ih]
    cases valid with
    | true => simp [validLogs]
    | false => simp [validLogs]

theorem maskSum_valid (row : List (ℝ × Bool)) : (maskSum (row.map Prod.snd) : ℝ) = (validLogs row).length := by
  induction row with
  | nil => exact Nat.cast_zero.symm
  | cons entry row ih =>
    obtain ⟨value, valid⟩ := entry
    rw [map_cons, maskSum, map_cons, sum_cons, ← maskSum, ih]
    cases valid with
    | true => simp [validLogs, add_comm]
    | false => simp [validLogs]

theorem logRatioSafe_eq {x : ℝ} (safe : |x| ≤ safetyBound) : logRatioSafe x = x := by
  obtain ⟨low, high⟩ := abs_le.mp safe
  rw [logRatioSafe, clamp, max_eq_left low, min_eq_left high]

theorem sum_neg_safe {logs : List ℝ} (safe : ∀ x ∈ logs, |x| ≤ safetyBound) :
    (logs.map (fun x => -logRatioSafe x)).sum = -logs.sum := by
  induction logs with
  | nil => simp
  | cons x logs ih =>
    obtain ⟨first, rest⟩ := forall_mem_cons.mp safe
    rw [map_cons, sum_cons, sum_cons, ih rest, logRatioSafe_eq first, neg_add]

variable {float : String → Option ℝ} {str : ℝ → String}

variable {option : RsOption} {row : List (ℝ × Bool)}

theorem decisive_k1 (k1 : option.estimator = .k1)
    (safe : ∀ token ∈ row, token.2 = true → |token.1| ≤ safetyBound) {token : ℝ × Bool} (member : token ∈ row)
    (valid : token.2 = true) :
    decisive (reals float str) option row token = -(shrink option row * documentedLog option row token) := by
  have logs : ∀ x ∈ validLogs row, |x| ≤ safetyBound := by
    intro x inside
    obtain ⟨entry, kept, rfl⟩ := mem_map.mp inside
    obtain ⟨inside, kept⟩ := mem_filter.mp kept
    exact safe entry inside kept
  have sums : maskedSum (row.map (fun entry => (tokenStat (reals float str) entry.1 .k1, entry.2))) = -(validLogs row).sum := by
    rw [maskedSum_valid (fun x => tokenStat (reals float str) x .k1)]
    exact sum_neg_safe logs
  have some : (validLogs row).length ≠ 0 := by
    have inside : token.1 ∈ validLogs row := mem_map_of_mem (mem_filter.mpr ⟨member, valid⟩)
    exact Nat.ne_of_gt (length_pos_of_mem inside)
  unfold decisive documentedLog shrink
  rw [k1]
  cases option with
  | tokenK1 =>
    simp only [RsOption.aggregation, one_mul]
    exact congrArg Neg.neg (logRatioSafe_eq (safe token member valid))
  | seqSumK1 =>
    simp only [RsOption.aggregation, one_mul]
    exact sums
  | seqMeanK1 =>
    simp only [RsOption.aggregation]
    have nonzero : ((validLogs row).length : ℝ) ≠ 0 := Nat.cast_ne_zero.mpr some
    have count : maskSum ((row.map (fun entry => (tokenStat (reals float str) entry.1 .k1, entry.2))).map Prod.snd) =
        ((validLogs row).length : ℝ) := by
      rw [map_map]
      exact maskSum_valid row
    rw [maskedMean, sums, count, div_mul_div_comm, mul_comm (((validLogs row).length : ℝ) + tiny),
      mul_div_mul_left _ _ nonzero, neg_div]
  | _ => cases k1

/-! ### Where both agree -/

/-- A size is within both ends or beyond both. -/
def Apart (x a b : ℝ) : Prop := x ≤ min a b ∨ max a b < x

/-- Neither the ratio nor its inverse is in the bounds without the other; the inverse is shrunk. -/
def Agrees (lower upper shrink x : ℝ) : Prop :=
  (0 ≤ x → Apart x (Real.log upper) (-Real.log lower / shrink)) ∧
    (x ≤ 0 → Apart (-x) (-Real.log lower) (Real.log upper / shrink))

theorem apart_iff {x a b c : ℝ} (positive : 0 < c) : Apart x a (b / c) ↔ (c * x ≤ b ↔ x ≤ a) := by
  rw [Apart, le_min_iff, max_lt_iff, le_div_iff₀' positive, div_lt_iff₀' positive]
  constructor
  · rintro (⟨below, below'⟩ | ⟨beyond, beyond'⟩)
    · exact iff_of_true below' below
    · exact iff_of_false (not_le.mpr beyond') (not_le.mpr beyond)
  · intro same
    by_cases below : x ≤ a
    · exact .inl ⟨below, same.mpr below⟩
    · exact .inr ⟨not_le.mp below, not_le.mp (fun below' => below (same.mp below'))⟩

theorem keep_iff_agrees {lower upper shrink x : ℝ} (below : lower ≤ 1) (positive : 0 < lower) (above : 1 ≤ upper)
    (shrinks : 0 < shrink) :
    ((Real.log lower ≤ -(shrink * x) ∧ -(shrink * x) ≤ Real.log upper) ↔ (lower ≤ Real.exp x ∧ Real.exp x ≤ upper)) ↔
      Agrees lower upper shrink x := by
  have low : Real.log lower ≤ 0 := Real.log_nonpos positive.le below
  have high : 0 ≤ Real.log upper := Real.log_nonneg above
  rw [← Real.log_le_iff_le_exp positive, ← Real.le_log_iff_exp_le (lt_of_lt_of_le one_pos above), Agrees, apart_iff shrinks,
    apart_iff shrinks]
  rcases le_total 0 x with forward | backward
  · -- the two bounds on this side are those above the ratio and below its inverse
    have scaled : 0 ≤ shrink * x := mul_nonneg shrinks.le forward
    rw [and_iff_left (show -(shrink * x) ≤ Real.log upper by linarith), and_iff_right (show Real.log lower ≤ x by linarith),
      le_neg]
    refine ⟨fun same => ⟨fun _ => same, fun backward => ?_⟩, fun agrees => agrees.1 forward⟩
    have zero : x = 0 := le_antisymm backward forward
    subst zero
    exact iff_of_true (by linarith) (by linarith)
  · have scaled : 0 ≤ shrink * -x := mul_nonneg shrinks.le (neg_nonneg.mpr backward)
    rw [mul_neg] at scaled
    rw [and_iff_right (show Real.log lower ≤ -(shrink * x) by linarith), and_iff_left (show x ≤ Real.log upper by linarith),
      mul_neg, neg_le_neg_iff]
    refine ⟨fun same => ⟨fun forward => ?_, fun _ => same⟩, fun agrees => agrees.2 backward⟩
    have zero : x = 0 := le_antisymm backward forward
    subst zero
    exact iff_of_true (by linarith) (by linarith)

/-! ### The mask of a call -/

section Threshold
variable {K : Type} [Field K] [LinearOrder K] (py : Functions K)

theorem optionThresholds_positive {spec : String} {lower upper : K}
    (parsed : optionThresholds py option spec = .ok ⟨some lower, upper⟩) : 0 < lower ∧ 0 < upper := by
  unfold optionThresholds at parsed
  split at parsed
  · obtain ⟨bounds, _, parsed⟩ := bind_eq_ok.mp parsed
    obtain ⟨low, _, parsed⟩ := bind_eq_ok.mp parsed
    obtain ⟨high, _, parsed⟩ := bind_eq_ok.mp parsed
    split at parsed
    · cases parsed
    · next positive =>
      cases parsed
      rw [not_or, not_le, not_le] at positive
      exact positive
  · split at parsed
    · cases parsed
    · obtain ⟨high, _, parsed⟩ := bind_eq_ok.mp parsed
      split at parsed
      · cases parsed
      · cases parsed

end Threshold

theorem shrink_pos {token : ℝ × Bool} (member : token ∈ row) (valid : token.2 = true) : 0 < shrink option row := by
  have inside : token.1 ∈ validLogs row := mem_map_of_mem (mem_filter.mpr ⟨member, valid⟩)
  have count : (0 : ℝ) < (validLogs row).length := Nat.cast_pos.mpr (length_pos_of_mem inside)
  have small : (0 : ℝ) < tiny := by
    rw [tiny]
    positivity
  unfold shrink
  cases option.aggregation with
  | mean => exact div_pos count (add_pos count small)
  | _ => exact one_pos

/-- A `k1` option compares the logarithm of the inverse ratio with the bounds of the ratio. -/
theorem admits_k1 (k1 : option.estimator = .k1) {text : String} {lower upper : ℝ}
    (parsed : optionThresholds (reals float str) option text = .ok ⟨some lower, upper⟩)
    (safe : ∀ token ∈ row, token.2 = true → |token.1| ≤ safetyBound) {token : ℝ × Bool} (member : token ∈ row)
    (valid : token.2 = true) :
    admits (reals float str) (option, text) row token =
      decide (Real.log lower ≤ -(shrink option row * documentedLog option row token) ∧
        -(shrink option row * documentedLog option row token) ≤ Real.log upper) := by
  have bounded : boundsOf (reals float str) option ⟨some lower, upper⟩ = .ok ⟨some (Real.log lower), Real.log upper⟩ := by
    rw [boundsOf, k1]
    rfl
  have accepted : accepts (reals float str) (option, ⟨some lower, upper⟩) row = _ := accepts_eq (reals float str) bounded row
  rw [admits, parsed]
  simp only [accepted, decisive_k1 k1 safe member valid, Bounds.keep, Option.all_some, Bool.decide_and]
  exact Bool.and_comm _ _

variable {width : Nat} {batch : List (Vector (ℝ × Bool) width)}

/-- The mask of a `k1` option is the documented one exactly when no log ratio of a valid token is between what
the documentation and the code take as the bound on its side. -/
theorem rejectionMask_documented_iff {option : RsOption} (k1 : option.estimator = .k1) {rolloutRs text : String}
    {spec : ThresholdSpec ℝ} {lower upper : ℝ} (asked : requested (reals float str) rolloutRs spec = .ok [(option, text)])
    (parsed : optionThresholds (reals float str) option text = .ok ⟨some lower, upper⟩) (below : lower ≤ 1) (above : 1 ≤ upper)
    (safe : ∀ row ∈ batch, ∀ token ∈ row.toList, token.2 = true → |token.1| ≤ safetyBound) {mask : List (List Bool)}
    {metrics : Metrics ℝ}
    (returned : computeRolloutRejectionMask (reals float str) batch rolloutRs spec = .ok (mask, metrics)) :
    mask = documentedMask option lower upper (batch.map Vector.toList) ↔
      ∀ row ∈ batch, ∀ token ∈ row.toList, token.2 = true →
        Agrees lower upper (shrink option row.toList) (documentedLog option row.toList token) := by
  rw [compute_mask (reals float str) asked returned, leaves, documentedMask, List.map_inj_left, List.forall_mem_map]
  apply forall₂_congr
  intro row member
  rw [List.map_inj_left]
  apply forall₂_congr
  intro token inside
  cases valid : token.2 with
  | false => exact iff_of_true rfl (fun invalid => (Bool.false_ne_true invalid).elim)
  | true =>
    rw [← keep_iff_agrees below (optionThresholds_positive _ parsed).1 above (shrink_pos inside valid)]
    simp only [List.map_singleton, List.all_cons, List.all_nil, Bool.and_true, Bool.true_and, forall_true_left,
      admits_k1 k1 parsed (safe row member) inside valid, documentedRatio_exp, decide_eq_decide]

/-- What the texts of one pair of bounds mean. -/
noncomputable def halfAndThree (text : String) : Option ℝ :=
  if text = "0.5" then some (1 / (2 : ℕ)) else if text = "3" then some (3 : ℕ) else none

theorem halfAndThree_parsed (str : ℝ → String) :
    optionThresholds (reals halfAndThree str) .tokenK1 "0.5_3" = .ok ⟨some (1 / (2 : ℕ)), (3 : ℕ)⟩ := by
  have bounds : splitBounds "0.5_3" = some ("0.5", "3") := by decide
  have half : readFloat (reals halfAndThree str) "0.5_3" "0.5" = .ok (1 / (2 : ℕ)) := rfl
  have three : readFloat (reals halfAndThree str) "0.5_3" "3" = .ok ((3 : ℕ) : ℝ) := rfl
  have positive : ¬ ((1 / (2 : ℕ) : ℝ) ≤ 0 ∨ ((3 : ℕ) : ℝ) ≤ 0) := by norm_num
  simp only [optionThresholds, RsOption.estimator, bounds, ok_bind, half, three, if_neg positive]
  rfl

def oneToken (logRatio : ℝ) : List (Vector (ℝ × Bool) 1) := [⟨#[(logRatio, true)], rfl⟩]

theorem halfAndThree_returns (str : ℝ → String) (logRatio : ℝ) : ∃ metrics,
    computeRolloutRejectionMask (reals halfAndThree str) (oneToken logRatio) "token_k1" (.text "0.5_3") =
      .ok ([[admits (reals halfAndThree str) (.tokenK1, "0.5_3") [(logRatio, true)] (logRatio, true)]], metrics) := by
  have asked : requested (reals halfAndThree str) "token_k1" (.text "0.5_3") = .ok [(.tokenK1, "0.5_3")] := rfl
  have bounded : boundsOf (reals halfAndThree str) .tokenK1 ⟨some (1 / (2 : ℕ)), (3 : ℕ)⟩ =
    .ok ⟨some (Real.log (1 / (2 : ℕ))), Real.log (3 : ℕ)⟩ := rfl
  obtain ⟨metrics, works⟩ : ∃ metrics, pairMetrics (reals halfAndThree str) [[(logRatio, true)]] (.tokenK1, "0.5_3") = .ok metrics :=
    pairMetrics_returns _ (halfAndThree_parsed str) bounded (by simp) rfl
  have each : ∀ pair ∈ [(RsOption.tokenK1, "0.5_3")], ∃ metrics,
      pairMetrics (reals halfAndThree str) [[(logRatio, true)]] pair = .ok metrics := by
    intro pair member
    cases mem_singleton.mp member
    exact ⟨metrics, works⟩
  obtain ⟨⟨mask, metrics⟩, returned⟩ : ∃ result,
      computeRolloutRejectionMask (reals halfAndThree str) (oneToken logRatio) "token_k1" (.text "0.5_3") = .ok result :=
    (compute_returns _ asked).mpr (.inr each)
  refine ⟨metrics, ?_⟩
  rw [returned, compute_mask (reals halfAndThree str) asked returned]
  simp [leaves, oneToken]

theorem one_safe : |(1 : ℝ)| ≤ safetyBound := by
  rw [safetyBound, abs_one]
  norm_num

theorem rejectionMask_documented_zero : ∃ result,
    computeRolloutRejectionMask (reals halfAndThree (fun _ => "")) (oneToken 0) "token_k1" (.text "0.5_3") =
        .ok result ∧
      result.1 = documentedMask .tokenK1 (1 / (2 : ℕ)) (3 : ℕ) [[((0 : ℝ), true)]] := by
  obtain ⟨metrics, returned⟩ := halfAndThree_returns (fun _ => "") 0
  have safe : |(0 : ℝ)| ≤ safetyBound := by
    rw [abs_zero]
    exact (abs_nonneg (1 : ℝ)).trans one_safe
  have half : 0 ≤ -Real.log (1 / (2 : ℕ)) := by
    rw [one_div, Real.log_inv, neg_neg]
    exact Real.log_natCast_nonneg 2
  have three : 0 ≤ Real.log (3 : ℕ) := Real.log_natCast_nonneg 3
  refine ⟨_, returned, (rejectionMask_documented_iff (show RsOption.tokenK1.estimator = .k1 from rfl) rfl
    (halfAndThree_parsed _) (by norm_num) (by norm_num) ?_ returned).mpr ?_⟩
  · intro row member token inside _
    cases List.mem_singleton.mp member
    cases List.mem_singleton.mp inside
    exact safe
  · intro row member token inside _
    cases List.mem_singleton.mp member
    cases List.mem_singleton.mp inside
    simp only [Agrees, Apart, documentedLog, shrink, RsOption.aggregation, div_one, neg_zero]
    exact ⟨fun _ => .inl (le_min three half), fun _ => .inl (le_min half three)⟩

/-- A ratio between a half and three is rejected. -/
theorem ratio_in_bounds_rejected : ∃ metrics,
    computeRolloutRejectionMask (reals halfAndThree (fun _ => "")) (oneToken 1) "token_k1" (.text "0.5_3") =
        .ok ([[false]], metrics) ∧
      (1 / (2 : ℕ) : ℝ) ≤ Real.exp 1 ∧ Real.exp 1 ≤ (3 : ℕ) := by
  obtain ⟨metrics, returned⟩ := halfAndThree_returns (fun _ => "") 1
  have inverse : ¬ Real.log (1 / (2 : ℕ)) ≤ -1 := by
    rw [one_div, Real.log_inv, neg_le_neg_iff, not_le, Nat.cast_ofNat]
    exact Real.log_two_lt_d9.trans (by norm_num)
  have safe : ∀ token ∈ [((1 : ℝ), true)], token.2 = true → |token.1| ≤ safetyBound := by
    intro token inside _
    cases List.mem_singleton.mp inside
    exact one_safe
  rw [admits_k1 rfl (halfAndThree_parsed _) safe List.mem_cons_self rfl, shrink, documentedLog] at returned
  simp only [RsOption.aggregation, one_mul, inverse, false_and, decide_false] at returned
  refine ⟨metrics, returned, ?_, ?_⟩
  · exact le_trans (by norm_num) (Real.one_le_exp zero_le_one)
  · exact_mod_cast Real.exp_one_lt_three.le

end LLMFusion.RolloutCorrHelper
