import LLMFusion.Padding
import LLMFusion.Lib.Blocks

/-! The log-probs of the responses from the logits of a batch, and from the logits of its valid
tokens alone. The logits of a place are of any type, and `logprob` is what they say of a label. -/

namespace LLMFusion.LogProbs
open Padding

inductive Failure where
  | unpad (failure : Padding.Failure)
  /-- `torch.stack` of no rows -/
  | emptyStack
  | shapeMismatch
  | indexOutOfRange
  deriving DecidableEq, Repr

variable {τ ω β : Type} {batch width : Nat}

def logprobsOfRow (logprob : ω → τ → β) (logits : List ω) (labels : List τ) : Except Failure (List β) :=
  if logits.length = labels.length then .ok (List.zipWith logprob logits labels) else .error .shapeMismatch

/-- `logprobs_from_logits` of logits `(total_nnz, vocab_size)` -/
def logprobsFromLogits (logprob : ω → τ → β) (logits : List ω) (labels : List τ) : Except Failure (List β) :=
  if logits.isEmpty then .error .emptyStack else logprobsOfRow logprob logits labels

/-- `logprobs_from_logits` of logits `(batch_size, seqlen, vocab_size)` -/
def logprobsFromLogitsRows (logprob : ω → τ → β) (logits : List (List ω)) (labels : List (List τ)) :
    Except Failure (List (List β)) :=
  if logits.isEmpty then .error .emptyStack
  else if logits.length = labels.length then (logits.zip labels).mapM (fun row => logprobsOfRow logprob row.1 row.2)
  else .error .shapeMismatch

def logProbsFromLogitsResponse (logprob : ω → τ → β) (inputIds : Padded τ batch width) (logits : Padded ω batch width)
    (responseLength : Nat) : Except Failure (List (List β)) :=
  let responseLogits := (rows logits).map (Indexing.between · (-(responseLength : Int) - 1) (-1))
  let response := (rows inputIds).map (Indexing.fromIndex · (-(responseLength : Int)))
  logprobsFromLogitsRows logprob responseLogits response

/-- Zeros, with the hidden states written at the indices. -/
def padInput [Zero β] (hiddenStates : List β) (indices : List Nat) (batch seqlen : Nat) : Except Failure (List (List β)) :=
  if hiddenStates.length ≠ indices.length then .error .shapeMismatch
  else
    match Gather.scatter (List.replicate (batch * seqlen) 0) (indices.zip hiddenStates) with
    | some output => .ok ((List.range batch).map (Blocks.block seqlen output))
    | none => .error .indexOutOfRange

def logProbsFromLogitsAllRmpad [Zero β] (logprob : ω → τ → β) (inputIdsRmpad : List τ) (logitsRmpad : List ω)
    (indices : List Nat) (batchSize seqlen responseLength : Nat) : Except Failure (List (List β)) := do
  let inputIdsRmpadRolled := inputIdsRmpad.rotate 1
  let fullLogProbsRmpad ← logprobsFromLogits logprob logitsRmpad inputIdsRmpadRolled
  let fullOutput ← padInput fullLogProbsRmpad indices batchSize seqlen
  return fullOutput.map (Indexing.between · (-(responseLength : Int) - 1) (-1))

def logProbsFromLogitsResponseRmpad [Zero β] (logprob : ω → τ → β) (inputIds : Padded τ batch width)
    (attentionMask : Padded Bool batch width) (logitsRmpad : List ω) (responseLength : Nat) :
    Except Failure (List (List β)) := do
  let unpadded ← (unpadInput inputIds attentionMask).mapError .unpad
  let inputIdsRmpadRolled := unpadded.hiddenStates.rotate 1
  let fullLogProbsRmpad ← logprobsFromLogits logprob logitsRmpad inputIdsRmpadRolled
  let fullOutput ← padInput fullLogProbsRmpad unpadded.indices batch width
  return fullOutput.map (Indexing.between · (-(responseLength : Int) - 1) (-1))

end LLMFusion.LogProbs
