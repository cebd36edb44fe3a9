import Mathlib.Analysis.SpecialFunctions.Log.Deriv
import Mathlib.Analysis.Calculus.FDeriv.Pi
import Mathlib.Algebra.BigOperators.Field

/-! The softmax of real logits, its entropy, and how both change with the logits. -/

namespace Softmax

variable {ι : Type*} [Fintype ι]

noncomputable def sumExp (x : ι → ℝ) : ℝ := ∑ i, Real.exp (x i)

noncomputable def softmax (x : ι → ℝ) (i : ι) : ℝ := Real.exp (x i) / sumExp x

noncomputable def logSumExp (x : ι → ℝ) : ℝ := Real.log (sumExp x)

noncomputable def expectation (x value : ι → ℝ) : ℝ := ∑ i, softmax x i * value i

noncomputable def entropy (x : ι → ℝ) : ℝ := -∑ i, softmax x i * Real.log (softmax x i)

/-- The linear map with the given partial derivatives. -/
noncomputable def linear (grad : ι → ℝ) : (ι → ℝ) →L[ℝ] ℝ := ∑ i, grad i • ContinuousLinearMap.proj i

theorem linear_apply (grad direction : ι → ℝ) : linear grad direction = ∑ i, grad i * direction i := by
  simp [linear]

theorem sumExp_shift (x : ι → ℝ) (c : ℝ) : sumExp (fun i => x i - c) = sumExp x * Real.exp (-c) := by
  simp only [sumExp, Finset.sum_mul, ← Real.exp_add, sub_eq_add_neg]

theorem softmax_shift (x : ι → ℝ) (c : ℝ) : softmax (fun i => x i - c) = softmax x := by
  funext i
  rw [softmax, sumExp_shift, sub_eq_add_neg, Real.exp_add, mul_div_mul_right _ _ (Real.exp_ne_zero _), softmax]

variable [Nonempty ι]

theorem sumExp_pos (x : ι → ℝ) : 0 < sumExp x :=
  Finset.sum_pos (fun i _ => Real.exp_pos (x i)) Finset.univ_nonempty

theorem sumExp_ne_zero (x : ι → ℝ) : sumExp x ≠ 0 := (sumExp_pos x).ne'

theorem logSumExp_shift (x : ι → ℝ) (c : ℝ) : c + logSumExp (fun i => x i - c) = logSumExp x := by
  rw [logSumExp, sumExp_shift, Real.log_mul (sumExp_ne_zero x) (Real.exp_ne_zero _), Real.log_exp, logSumExp]
  ring

theorem softmax_pos (x : ι → ℝ) (i : ι) : 0 < softmax x i := div_pos (Real.exp_pos _) (sumExp_pos x)

theorem sum_softmax (x : ι → ℝ) : ∑ i, softmax x i = 1 := by
  simp only [softmax, ← Finset.sum_div]
  exact div_self (sumExp_ne_zero x)

theorem log_softmax (x : ι → ℝ) (i : ι) : Real.log (softmax x i) = x i - logSumExp x := by
  rw [softmax, Real.log_div (Real.exp_ne_zero _) (sumExp_ne_zero x), Real.log_exp, logSumExp]

theorem entropy_eq (x : ι → ℝ) : entropy x = logSumExp x - expectation x x := by
  simp only [entropy, log_softmax, mul_sub, Finset.sum_sub_distrib, ← Finset.sum_mul, sum_softmax, expectation]
  ring

/-! ### Derivatives -/

theorem hasFDerivAt_logSumExp (x : ι → ℝ) : HasFDerivAt logSumExp (linear (softmax x)) x := by
  have sum : HasFDerivAt sumExp (∑ i, Real.exp (x i) • ContinuousLinearMap.proj (R := ℝ)
    (φ := fun _ : ι => ℝ) i) x :=
    HasFDerivAt.fun_sum (fun i _ => (hasFDerivAt_apply i x).exp)
  refine (sum.log (sumExp_ne_zero x)).congr_fderiv ?_
  rw [linear, Finset.smul_sum]
  exact Finset.sum_congr rfl (fun i _ => by rw [smul_smul, softmax, div_eq_inv_mul])

theorem hasFDerivAt_softmax (x : ι → ℝ) (i : ι) :
    HasFDerivAt (fun x => softmax x i) (softmax x i • (ContinuousLinearMap.proj i - linear (softmax x))) x := by
  have whole : (fun x : ι → ℝ => softmax x i) = fun x => Real.exp (x i - logSumExp x) := by
    funext x
    rw [← log_softmax, Real.exp_log (softmax_pos x i)]
  rw [whole, congrFun whole x]
  exact ((hasFDerivAt_apply i x).sub (hasFDerivAt_logSumExp x)).exp

theorem hasFDerivAt_entropy (x : ι → ℝ) :
    HasFDerivAt entropy (linear (fun j => -(softmax x j * (x j - expectation x x)))) x := by
  have mean : HasFDerivAt (fun x : ι → ℝ => expectation x x) _ x :=
    HasFDerivAt.fun_sum (fun i _ => (hasFDerivAt_softmax x i).mul (hasFDerivAt_apply i x))
  have whole : entropy = fun x : ι → ℝ => logSumExp x - expectation x x := funext entropy_eq
  rw [whole]
  refine ((hasFDerivAt_logSumExp x).sub mean).congr_fderiv (ContinuousLinearMap.ext (fun direction => ?_))
  have first : ∑ i, (softmax x i * direction i + x i *
    (softmax x i * (direction i - ∑ j, softmax x j * direction j))) =
      ∑ j, softmax x j * direction j + ∑ i, softmax x i * x i * direction i -
        expectation x x * ∑ j, softmax x j * direction j := by
    rw [expectation, Finset.sum_mul, ← Finset.sum_add_distrib, ← Finset.sum_sub_distrib]
    exact Finset.sum_congr rfl (fun i _ => by ring)
  have second : ∑ i, softmax x i * (x i - expectation x x) * direction i =
      ∑ i, softmax x i * x i * direction i - expectation x x * ∑ j, softmax x j * direction j := by
    rw [Finset.mul_sum, ← Finset.sum_sub_distrib]
    exact Finset.sum_congr rfl (fun i _ => by ring)
  simp only [linear_apply, FunLike.coe_sub, Pi.sub_apply, FunLike.coe_sum, Finset.sum_apply, FunLike.coe_add,
    Pi.add_apply, FunLike.coe_smul, Pi.smul_apply, ContinuousLinearMap.proj_apply, smul_eq_mul,
    neg_mul, Finset.sum_neg_distrib, first, second]
  ring

end Softmax
