import Mathlib.Algebra.BigOperators.Fin
import Mathlib.Algebra.Field.Defs

/-! Statistics of a row of logits of which every tensor parallel rank has a shard. A collective is a function of what all
ranks give, and the buffers of a rank are what the last operation in place has left. -/

namespace LLMFusion.TensorParallel

/-- The logits of every rank. -/
abbrev Logits (K : Type) (world size : Nat) := Fin (world + 1) → Fin (size + 1) → K

/-- The logits of the whole vocabulary. -/
abbrev Row (K : Type) (world size : Nat) := Fin ((world + 1) * (size + 1)) → K

/-- What a rank saves for the backward pass. -/
structure Saved (K : Type) (size : Nat) where
  vocabParallelLogits : Fin (size + 1) → K
  softmaxLogits : Fin (size + 1) → K
  sumSoftmaxTimesLogits : K

variable {K : Type} {world size : Nat}

/-- The equal shards of a row. -/
def shards (row : Row K world size) : Logits K world size := fun rank i => row (finProdFinEquiv (rank, i))

variable [LinearOrder K]

def logitsMax (vocabParallelLogits : Logits K world size) : K :=
  Finset.univ.sup' Finset.univ_nonempty (fun rank => Finset.univ.sup' Finset.univ_nonempty
    (vocabParallelLogits rank))

variable [Field K] (exp log : K → K)

/-- `_VocabParallelEntropy.forward`: the entropy on a rank and what it saves. -/
def entropyForward (vocabParallelLogits : Logits K world size) (rank : Fin (world + 1)) : K × Saved K size :=
  let normalizedExpLogits : Logits K world size :=
    fun rank i => exp (vocabParallelLogits rank i - logitsMax vocabParallelLogits)
  let normalizedSumExpLogits := ∑ rank, ∑ i, normalizedExpLogits rank i
  let softmaxLogits : Logits K world size := fun rank i => normalizedExpLogits rank i / normalizedSumExpLogits
  let sumSoftmaxTimesLogits := ∑ rank, ∑ i, softmaxLogits rank i * vocabParallelLogits rank i
  (logitsMax vocabParallelLogits + log normalizedSumExpLogits - sumSoftmaxTimesLogits,
    ⟨vocabParallelLogits rank, softmaxLogits rank, sumSoftmaxTimesLogits⟩)

omit [LinearOrder K] in
/-- `_VocabParallelEntropy.backward`, with the buffers behind it. The gradient is in the buffer of the softmax. -/
def entropyBackward (saved : Saved K size) (gradOutput : K) : Saved K size :=
  let vocabParallelLogits := fun i => saved.vocabParallelLogits i - saved.sumSoftmaxTimesLogits
  let softmaxLogits := fun i => saved.softmaxLogits i * vocabParallelLogits i
  let softmaxLogits := fun i => softmaxLogits i * gradOutput
  let vocabParallelLogits := fun i => vocabParallelLogits i + saved.sumSoftmaxTimesLogits
  let softmaxLogits := fun i => softmaxLogits i * -1
  ⟨vocabParallelLogits, softmaxLogits, saved.sumSoftmaxTimesLogits⟩

def vocabParallelSumPiSquared (vocabParallelLogits : Logits K world size) : K :=
  let expShifted : Logits K world size := fun rank i => exp
    (vocabParallelLogits rank i - logitsMax vocabParallelLogits)
  let sumExp := ∑ rank, ∑ i, expShifted rank i
  let sumExpSquared := ∑ rank, ∑ i, expShifted rank i ^ 2
  sumExpSquared / sumExp ^ 2

end LLMFusion.TensorParallel
