import LLMFusion.VocabParallel
import LLMFusion.Lib.Softmax
import Mathlib.Analysis.Convex.SpecificFunctions.Basic

/-! The statistics of the shards are those of the softmax of the whole row. -/

namespace LLMFusion.TensorParallel
open Softmax

variable {world size : Nat}

/-- What the ranks have, as a row. -/
def gather {K : Type} (parts : Logits K world size) : Row K world size := fun j =>
  parts (finProdFinEquiv.symm j).1 (finProdFinEquiv.symm j).2

theorem sum_shards (f : Row ℝ world size) : ∑ rank, ∑ i, f (finProdFinEquiv (rank, i)) = ∑ j, f j := by
  rw [← Fintype.sum_prod_type']
  exact Equiv.sum_comp finProdFinEquiv f

instance nonempty_vocab : Nonempty (Fin ((world + 1) * (size + 1))) := ⟨finProdFinEquiv (0, 0)⟩

variable (row : Row ℝ world size)

theorem sumExp_shards (c : ℝ) : ∑ rank, ∑ i, Real.exp (shards row rank i - c) = sumExp (fun j => row j - c) :=
  sum_shards (fun j => Real.exp (row j - c))

theorem entropyForward_eq (rank : Fin (world + 1)) : entropyForward Real.exp Real.log (shards row) rank =
      (entropy row, ⟨shards row rank, shards (softmax row) rank, expectation row row⟩) := by
  have probs : ∀ rank i, Real.exp (shards row rank i - logitsMax (shards row)) /
      ∑ rank, ∑ i, Real.exp (shards row rank i - logitsMax (shards row)) = shards (softmax row) rank i := by
    intro rank i
    rw [sumExp_shards, ← softmax_shift row (logitsMax (shards row))]
    rfl
  have mean : ∑ rank, ∑ i, shards (softmax row) rank i * shards row rank i = expectation row row :=
    sum_shards (fun j => softmax row j * row j)
  simp only [entropyForward, probs, mean]
  rw [sumExp_shards, entropy_eq, ← logSumExp_shift row (logitsMax (shards row))]
  rfl

theorem sumPiSquared_eq : vocabParallelSumPiSquared Real.exp (shards row) = ∑ j, softmax row j ^ 2 := by
  have squares : ∑ rank, ∑ i, Real.exp (shards row rank i - logitsMax (shards row)) ^ 2 =
      ∑ j, Real.exp (row j - logitsMax (shards row)) ^ 2 :=
        sum_shards (fun j => Real.exp (row j - logitsMax (shards row)) ^ 2)
  rw [vocabParallelSumPiSquared, squares, sumExp_shards, Finset.sum_div,
    ← softmax_shift row (logitsMax (shards row))]
  exact Finset.sum_congr rfl (fun j _ => (div_pow _ _ 2).symm)

theorem entropyBackward_eq (gradOutput : ℝ) (rank : Fin (world + 1)) :
    entropyBackward (entropyForward Real.exp Real.log (shards row) rank).2 gradOutput =
      ⟨shards row rank, shards (fun j => -(softmax row j * (row j - expectation row row)) * gradOutput) rank,
          expectation row row⟩ := by
  rw [entropyForward_eq, entropyBackward]
  congr 1
  · funext i
    exact sub_add_cancel _ _
  · funext i
    simp only [shards]
    ring

/-- Every rank has the entropy and the sum of squares of the whole row; the gradients of all ranks are together the gradient
of the entropy, and the saved logits are as they were. -/
theorem vocabParallel_correct (gradOutput : ℝ) :
    (∀ rank, (entropyForward Real.exp Real.log (shards row) rank).1 = entropy row) ∧
      vocabParallelSumPiSquared Real.exp (shards row) = ∑ j, softmax row j ^ 2 ∧
      (∀ rank i, (entropyBackward (entropyForward Real.exp Real.log
        (shards row) rank).2 gradOutput).softmaxLogits i =
        -softmax row (finProdFinEquiv (rank, i)) *
          (row (finProdFinEquiv (rank, i)) - ∑ j, softmax row j * row j) * gradOutput) ∧
      (∀ rank, HasFDerivAt (fun row => gradOutput * (entropyForward Real.exp Real.log (shards row) rank).1)
        (linear (gather (fun rank =>
          (entropyBackward (entropyForward Real.exp Real.log
            (shards row) rank).2 gradOutput).softmaxLogits))) row) ∧
      ∀ rank, (entropyBackward (entropyForward Real.exp Real.log
        (shards row) rank).2 gradOutput).vocabParallelLogits =
        shards row rank := by
  refine ⟨fun rank => ?_, sumPiSquared_eq row, fun rank i => ?_, fun rank => ?_, fun rank => ?_⟩
  · rw [entropyForward_eq]
  · rw [entropyBackward_eq]
    simp only [shards, expectation]
    ring
  · have same : (fun row : Row ℝ world size => gradOutput *
    (entropyForward Real.exp Real.log (shards row) rank).1) =
        fun row => gradOutput * entropy row := by
      funext row
      rw [entropyForward_eq]
    rw [same]
    refine ((hasFDerivAt_entropy row).const_mul gradOutput).congr_fderiv
      (ContinuousLinearMap.ext (fun direction => ?_))
    simp only [FunLike.coe_smul, Pi.smul_apply, linear_apply, smul_eq_mul, Finset.mul_sum, gather,
      entropyBackward_eq, shards,
      Prod.mk.eta, Equiv.apply_symm_apply]
    exact Finset.sum_congr rfl (fun j _ => by ring)
  · rw [entropyBackward_eq]

/-! ### Bounds -/

theorem softmax_le_one (x : Row ℝ world size) (j : Fin ((world + 1) * (size + 1))) : softmax x j ≤ 1 := by
  rw [← sum_softmax x]
  exact Finset.single_le_sum (fun i _ => (softmax_pos x i).le) (Finset.mem_univ j)

/-- A mean of logarithms is at most the logarithm of the mean. -/
theorem sum_log_le (x value : Row ℝ world size) (positive : ∀ j, 0 < value j) :
    ∑ j, softmax x j * Real.log (value j) ≤ Real.log (∑ j, softmax x j * value j) :=
  strictConcaveOn_log_Ioi.concaveOn.le_map_sum (fun j _ => (softmax_pos x j).le) (sum_softmax x)
    (fun j _ => positive j)

/-- The two statistics bound each other, and what the path variance of a token is taken from is not negative. -/
theorem vocabParallel_related (rank : Fin (world + 1)) (label : Fin ((world + 1) * (size + 1))) :
    0 ≤ (entropyForward Real.exp Real.log (shards row) rank).1 ∧
      (entropyForward Real.exp Real.log (shards row) rank).1 ≤ Real.log ((world + 1) * (size + 1)) ∧
      Real.exp (-(entropyForward Real.exp Real.log (shards row) rank).1) ≤ vocabParallelSumPiSquared Real.exp
        (shards row) ∧
      vocabParallelSumPiSquared Real.exp (shards row) ≤ 1 ∧
      0 ≤ 1 - 2 * softmax row label + vocabParallelSumPiSquared Real.exp (shards row) := by
  have positive := softmax_pos row
  have squares : 0 < ∑ j, softmax row j ^ 2 :=
    Finset.sum_pos (fun j _ => pow_pos (positive j) 2) Finset.univ_nonempty
  rw [entropyForward_eq, sumPiSquared_eq]
  refine ⟨?_, ?_, ?_, ?_, ?_⟩
  · rw [entropy, neg_nonneg]
    exact Finset.sum_nonpos (fun j _ => mul_nonpos_of_nonneg_of_nonpos (positive j).le
      (Real.log_nonpos (positive j).le (softmax_le_one row j)))
  · have inverse := sum_log_le row (fun j => (softmax row j)⁻¹) (fun j => inv_pos.mpr (positive j))
    simpa [Real.log_inv, mul_inv_cancel₀ (positive _).ne', entropy] using inverse
  · rw [← Real.le_log_iff_exp_le squares, entropy, neg_neg]
    simpa only [sq] using sum_log_le row (softmax row) positive
  · rw [← sum_softmax row]
    exact Finset.sum_le_sum (fun j _ => pow_le_of_le_one (positive j).le (softmax_le_one row j) two_ne_zero)
  · have own := Finset.single_le_sum (fun j _ => sq_nonneg (softmax row j)) (Finset.mem_univ label)
    linarith [sq_nonneg (1 - softmax row label)]

end LLMFusion.TensorParallel
