import LLMFusion.Lib.TopK
import Mathlib.Algebra.Field.Defs

/-! The forward KL divergence to a teacher that gives the log probabilities of some tokens, for
one position: with the logits of the whole vocabulary, and with a shard of them on each tensor
parallel rank. A collective is a function of what all ranks give. -/

namespace LLMFusion.ForwardKl
open TopK

/-- What is computed for a position. -/
@[ext] structure Outputs (K : Type) where
  distillationLosses : K
  studentMass : K
  teacherMass : K
  overlapCount : Nat
  overlapTokenAdvantage : K
  deriving DecidableEq, Repr

variable {K : Type} [Field K] [LinearOrder K] (exp log : K → K)

/-- `x.clamp_min(log_prob_min_clamp)`, where there is a clamp -/
def clampMin (clamp : Option K) (x : K) : K :=
  match clamp with
  | none => x
  | some bound => max x bound

/-- `torch.topk(values, k)`: the values with their places. -/
def topk (values : List K) (k : Nat) : Option (List (K × Nat)) :=
  if k ≤ values.length then some (largest Prod.fst k values.zipIdx) else none

/-- Which ids of the teacher the student's are among. -/
def overlapMask (teacherIds studentIds : List Nat) : List Bool :=
  teacherIds.map (fun id => decide (id ∈ studentIds))

/-- The overlap and the advantage of a token of it, from the divergence of each token. -/
def overlapTokenAdvantage (tokenKl : List K) (mask : List Bool) : Nat × K :=
  let overlapCount := mask.countP id
  let advantageSum := ((tokenKl.zip mask).map (fun term => -term.1 * if term.2 then 1 else 0)).sum
  (overlapCount, if overlapCount > 0 then advantageSum / (max overlapCount 1 : Nat) else 0)

/-- The divergence at a token, from the teacher's log probability and the student's. -/
def tokenDivergence (teacher student : K) : K := exp teacher * (teacher - student)

namespace Fsdp

/-- `F.log_softmax` -/
def logSoftmax (logits : List K) : List K := logits.map (fun logit => logit - log (logits.map exp).sum)

/-- `kl_divergence`, of the pairs of `log_p` and `log_q` -/
def klDivergence (logProbs : List (K × K)) : K :=
  (logProbs.map (fun pair => tokenDivergence exp pair.1 pair.2)).sum

def computeForwardKlTopk (studentLogits teacherTopkLogProbs : List K) (teacherTopkIds : List Nat)
    (clamp : Option K) :
    Option (Outputs K) := do
  let studentLogProbs := logSoftmax exp log studentLogits
  let studentTopk ← topk studentLogProbs teacherTopkIds.length
  let studentTopkLogProbs ← teacherTopkIds.mapM (fun id => studentLogProbs[id]?)
  let studentMass := (studentTopkLogProbs.map exp).sum
  let teacherMass := (teacherTopkLogProbs.map exp).sum
  let clamped := (teacherTopkLogProbs.map (clampMin clamp)).zip (studentTopkLogProbs.map (clampMin clamp))
  let overlap := overlapTokenAdvantage (clamped.map (fun pair => tokenDivergence exp pair.1 pair.2))
    (overlapMask teacherTopkIds (studentTopk.map Prod.snd))
  some ⟨klDivergence exp clamped, studentMass, teacherMass, overlap.1, overlap.2⟩

end Fsdp

namespace Megatron

/-- Every rank's log probabilities, from the maximum and the sum over all shards. -/
def vocabParallelLogSoftmax (shards : List (List K)) : Option (List (List K)) := do
  let maxima ← shards.mapM List.max?
  let logitsMax ← maxima.max?
  let shifted := shards.map (fun vpLogits => vpLogits.map (fun logit => logit - logitsMax))
  let sumExpLogits := (shifted.map (fun vpLogits => (vpLogits.map exp).sum)).sum
  some (shifted.map (fun vpLogits => vpLogits.map (fun logit => logit - log sumExpLogits)))

/-- A target of the top-k on a rank. Entries of other ranks are zero. -/
structure Entry (K : Type) where
  inVocab : Bool
  targetProb : K
  targetLogp : K
  sourceLogp : K

/-- What a rank makes of a target: the index is local, and a dummy where the id is not the rank's. -/
def entry (vpSourceLogps : List K) (vocabStartIndex : Nat) (clamp : Option K) (target : K × Nat) :
    Option (Entry K) := do
  let inVocab := decide (vocabStartIndex ≤ target.2 ∧ target.2 < vocabStartIndex + vpSourceLogps.length)
  let sourceLogp ← vpSourceLogps[if inVocab then target.2 - vocabStartIndex else 0]?
  let targetLogp := clampMin clamp target.1
  some {
    inVocab
    targetProb := if inVocab then exp targetLogp else 0
    targetLogp := if inVocab then targetLogp else 0
    sourceLogp := if inVocab then clampMin clamp sourceLogp else 0 }

/-- What a rank computes before the collectives. -/
structure Local (K : Type) where
  targetTopkMass : K
  perTokenKlLoss : K
  perTokenTopkMass : K
  perTargetTokenKl : List K
  studentTopk : List (K × Nat)

def localTerms (vpSourceLogps : List K) (rank : Nat) (targets : List (K × Nat)) (clamp : Option K) :
    Option (Local K) := do
  let vocabStartIndex := rank * vpSourceLogps.length
  let entries ← targets.mapM (entry exp vpSourceLogps vocabStartIndex clamp)
  let perTargetTokenKl := entries.map (fun e => e.targetProb * (e.targetLogp - e.sourceLogp))
  let localTopk ← topk vpSourceLogps (min targets.length vpSourceLogps.length)
  some {
    targetTopkMass := (targets.map (fun target => exp (clampMin clamp target.1))).sum
    perTokenKlLoss := perTargetTokenKl.sum
    perTokenTopkMass := (entries.map (fun e => exp e.sourceLogp * if e.inVocab then 1 else 0)).sum
    perTargetTokenKl
    studentTopk := localTopk.map (fun candidate => (candidate.1, candidate.2 + vocabStartIndex)) }

/-- `all_reduce` of tensors of one shape. -/
def allReduce (count : Nat) (tensors : List (List K)) : List K :=
  (List.range count).map (fun i => (tensors.map (fun tensor => tensor.getD i 0)).sum)

/-- `_VocabParallelKLDivergence.forward`, the outputs of all ranks. -/
def forward (shards : List (List K)) (targetTopkLogps : List K) (targetTopkIndices : List Nat)
    (clamp : Option K) :
    Option (List (Outputs K)) := do
  let vpSourceLogps ← vocabParallelLogSoftmax exp log shards
  let targets := targetTopkLogps.zip targetTopkIndices
  let locals ← vpSourceLogps.zipIdx.mapM (fun shard => localTerms exp shard.1 shard.2 targets clamp)
  let perTokenKlLoss := (locals.map Local.perTokenKlLoss).sum
  let perTokenTopkMass := (locals.map Local.perTokenTopkMass).sum
  let perTargetTokenKl := allReduce targets.length (locals.map Local.perTargetTokenKl)
  let gathered := locals.flatMap Local.studentTopk
  let studentTopk ← topk (gathered.map Prod.fst) targets.length
  let studentTopkIds ← studentTopk.mapM (fun position => (gathered.map Prod.snd)[position.2]?)
  let overlap := overlapTokenAdvantage perTargetTokenKl (overlapMask targetTopkIndices studentTopkIds)
  some (locals.map (fun own => ⟨perTokenKlLoss, perTokenTopkMass, own.targetTopkMass, overlap.1, overlap.2⟩))

/-- A target of the top-k in the backward pass of a rank. -/
structure ActiveEntry (K : Type) where
  index : Nat
  targetProb : K
  active : Bool

/-- What a rank saves of a target. An entry of another rank keeps the dummy index. -/
def activeEntry (vpSourceLogps : List K) (vocabStartIndex : Nat) (clamp : Option K) (target : K × Nat) :
    Option (ActiveEntry K) := do
  let inVocab := decide (vocabStartIndex ≤ target.2 ∧ target.2 < vocabStartIndex + vpSourceLogps.length)
  let index := if inVocab then target.2 - vocabStartIndex else 0
  let sourceLogp ← vpSourceLogps[index]?
  some {
    index
    targetProb := if inVocab then exp (clampMin clamp target.1) else 0
    active := inVocab && clamp.all (fun bound => decide (sourceLogp > bound)) }

/-- What a rank saves for the backward pass. -/
structure Saved (K : Type) where
  vpSourceProbs : List K
  entries : List (ActiveEntry K)
  targetActiveMass : K

/-- What `_VocabParallelKLDivergence.forward` saves on all ranks. The mass of the active entries is reduced only if
there is a clamp. -/
def saveForBackward (shards : List (List K)) (targetTopkLogps : List K) (targetTopkIndices : List Nat)
    (clamp : Option K) :
    Option (List (Saved K)) := do
  let vpSourceLogps ← vocabParallelLogSoftmax exp log shards
  let targets := targetTopkLogps.zip targetTopkIndices
  let ranks ← vpSourceLogps.zipIdx.mapM (fun shard => do
    let entries ← targets.mapM (activeEntry exp shard.1 (shard.2 * shard.1.length) clamp)
    some (shard.1.map exp, entries))
  let targetTopkMass := (targets.map (fun target => exp (clampMin clamp target.1))).sum
  let targetActiveMass := (ranks.map (fun own =>
    (own.2.map (fun e => if e.active then e.targetProb else 0)).sum)).sum
  some (ranks.map (fun own => ⟨own.1, own.2, if clamp.isSome then targetActiveMass else targetTopkMass⟩))

omit [LinearOrder K] in
/-- `_VocabParallelKLDivergence.backward` on a rank; `scatter_add_` adds up what has the same index. -/
def backward (saved : Saved K) (gradLoss : K) : List K :=
  let gradInput := saved.vpSourceProbs.map (· * saved.targetActiveMass)
  let gradInput := saved.entries.foldl (fun grad e =>
    grad.modify e.index (· + -(e.targetProb * if e.active then 1 else 0))) gradInput
  gradInput.map (· * gradLoss)

end Megatron

end LLMFusion.ForwardKl
