import LLMFusion.SftLoss
import LLMFusion.Proofs.Losses

/-! What supervised fine-tuning trains on: every token with a mask of one by its log-prob after the tokens before it in its own
sequence. The last place of a sequence is paired with the first token of the next one, whose mask is zero. -/

namespace LLMFusion.SftLoss
open CoreAlgos Losses TorchFunctional PartialSums List

/-! ### Rolled rows -/

section Rolled
variable {α β K : Type} [AddCommMonoid K] {term : α → β → K} {silent : β → Prop}
  (quiet : ∀ row token, silent token → term row token = 0)

omit [AddCommMonoid K] in
theorem flatMap_sized {blocks : List (List α × List β)} (sized : ∀ block ∈ blocks, block.1.length = block.2.length) :
    (blocks.flatMap Prod.fst).length = (blocks.flatMap Prod.snd).length := by
  rw [length_flatMap, length_flatMap, map_congr_left sized]

theorem head_silent {blocks : List (List α × List β)}
    (heads : ∀ block ∈ blocks, ∀ first, block.2.head? = some first → silent first) {first : β}
    (head : (blocks.flatMap Prod.snd).head? = some first) : silent first := by
  induction blocks with
  | nil => cases head
  | cons block blocks ih =>
    obtain ⟨own, others⟩ := forall_mem_cons.mp heads
    rw [flatMap_cons, head?_append] at head
    cases leading : block.2.head? with
    | none =>
      rw [leading] at head
      exact ih others head
    | some token =>
      rw [leading] at head
      cases head
      exact own _ leading

include quiet

section
variable {blocks : List (List α × List β)} (sized : ∀ block ∈ blocks, block.1.length = block.2.length)
  (heads : ∀ block ∈ blocks, ∀ first, block.2.head? = some first → silent first)
include blocks sized heads

/-- Rows behind each other, over the tokens without the first one and with a silent one at the end: what is counted lies within
the blocks. -/
theorem shifted_sum {last : β} (ends : silent last) :
    (zipWith term (blocks.flatMap Prod.fst) ((blocks.flatMap Prod.snd).tail ++ [last])).sum =
      (blocks.map (fun block => (zipWith term block.1 block.2.tail).sum)).sum := by
  induction blocks with
  | nil => rfl
  | cons block blocks ih =>
    obtain ⟨rows, tokens⟩ := block
    obtain ⟨size, sizes⟩ := forall_mem_cons.mp sized
    obtain ⟨_, others⟩ := forall_mem_cons.mp heads
    have rest := ih sizes others
    rw [flatMap_cons, flatMap_cons, map_cons, sum_cons, ← rest]
    cases tokens with
    | nil =>
      cases rows with
      | nil => exact (zero_add _).symm
      | cons _ _ => cases size
    | cons token tokens =>
      obtain ⟨front, row, rfl⟩ : ∃ front row, rows = front ++ [row] :=
        ⟨rows.dropLast, rows.getLast (ne_nil_of_length_eq_add_one size),
          (dropLast_concat_getLast _).symm⟩
      have fits : front.length = tokens.length := by
        rw [length_append, length_singleton, length_cons] at size
        exact Nat.succ.inj size
      have own : zipWith term (front ++ [row]) tokens = zipWith term front tokens := by
        have behind : zipWith term (front ++ [row]) (tokens ++ []) = zipWith term front tokens ++
            zipWith term [row] [] := zipWith_append fits
        rw [append_nil, zipWith_nil_right, append_nil] at behind
        exact behind
      have counts := flatMap_sized sizes
      have leading : ∀ first, (blocks.flatMap Prod.snd).head? = some first → silent first :=
        fun _ => head_silent others
      change (zipWith term (front ++ [row] ++ blocks.flatMap Prod.fst)
        (tokens ++ blocks.flatMap Prod.snd ++ [last])).sum =
        (zipWith term (front ++ [row]) tokens).sum + _
      rw [own, append_assoc, append_assoc, zipWith_append fits, sum_append]
      congr 1
      cases later : blocks.flatMap Prod.snd with
      | nil =>
        rw [later] at counts
        rw [eq_nil_of_length_eq_zero counts]
        exact (add_zero _).trans (quiet row last ends)
      | cons next tokens =>
        rw [later] at leading
        exact (congrArg (· + _) (quiet row next (leading next rfl))).trans (zero_add _)

theorem rolled_sum : (zipWith term (blocks.flatMap Prod.fst) ((blocks.flatMap Prod.snd).rotate 1)).sum =
      (blocks.map (fun block => (zipWith term block.1 block.2.tail).sum)).sum := by
  have counts := flatMap_sized sized
  cases first : blocks.flatMap Prod.snd with
  | nil =>
    rw [first] at counts
    have none : ∀ block ∈ blocks, (zipWith term block.1 block.2.tail).sum = 0 := by
      intro block member
      rw [flatMap_eq_nil_iff.mp first block member, tail_nil, zipWith_nil_right]
      rfl
    rw [eq_nil_of_length_eq_zero counts, map_congr_left none, map_const', sum_replicate,
      nsmul_zero]
    rfl
  | cons token tokens =>
    have ends : silent token := head_silent heads (by rw [first]; rfl)
    have shifted := shifted_sum quiet sized heads ends
    rw [first] at shifted
    rw [rotate_cons_succ, rotate_zero]
    exact shifted

end

end Rolled

/-! ### The log-probs of a micro-batch -/

section Packed
variable {α β γ ι : Type}

theorem zipWith_flatMap (f : α → β → γ) {items : List ι} {left : ι → List α} {right : ι → List β}
    (sized : ∀ item ∈ items, (left item).length = (right item).length) :
    zipWith f (items.flatMap left) (items.flatMap right) =
      items.flatMap (fun item => zipWith f (left item) (right item)) := by
  induction items with
  | nil => rfl
  | cons item items ih =>
    obtain ⟨own, others⟩ := forall_mem_cons.mp sized
    rw [flatMap_cons, flatMap_cons, zipWith_append own, ih others, flatMap_cons]

theorem zipWith_same (f : α → β → γ) (items : List α) (value : β) :
    zipWith f items (replicate items.length value) = items.map (f · value) := by
  induction items with
  | nil => rfl
  | cons item items ih => rw [length_cons, replicate_succ, zipWith_cons_cons, ih, map_cons]

theorem shard_zipWith (f : α → β → γ) {left : List α} {right : List β} (aligned : left.length = right.length)
    (ranks rank : Nat) : zipWith f (Shards.shard ranks rank left) (Shards.shard ranks rank right) =
      Shards.shard ranks rank (zipWith f left right) := by
  rw [← map_uncurry_zip_eq_zipWith, ← Shards.shard_zip aligned, ← Shards.shard_map,
    map_uncurry_zip_eq_zipWith]

end Packed

variable {K : Type} [Field K] [LinearOrder K]

/-- The logits of a sequence: at every place those after the tokens up to it. -/
def logitRows (logits : List Nat → List K) (sample : Sample K) : List (List K) :=
  (List.range sample.inputIds.length).map (fun place => logits (sample.inputIds.take (place + 1)))

/-- The model does not see other sequences: of packed tokens whose positions start again with each sequence, it gives the logits
of every sequence by itself, each rank its part of them. -/
def Separate (module : Module K) (logits : List Nat → List K) : Prop :=
  ∀ (spSize : Nat) (samples : List (Sample K)), 0 < spSize →
    ∃ padding : List (List K), padding.length = Shards.missing spSize (samples.flatMap Sample.inputIds).length ∧
      ∀ spRank < spSize, module spSize
        (samples.flatMap Sample.inputIds ++
          List.replicate (Shards.missing spSize (samples.flatMap Sample.inputIds).length) 0)
        (samples.flatMap Sample.positionIds ++
          List.range (Shards.missing spSize (samples.flatMap Sample.inputIds).length))
        spRank = Shards.shard spSize spRank (samples.flatMap (logitRows logits) ++ padding)

omit [Field K] [LinearOrder K] in
theorem logitRows_length (logits : List Nat → List K) (sample : Sample K) :
    (logitRows logits sample).length = sample.inputIds.length := by
  rw [logitRows, length_map, length_range]

def scaledRows (logits : List Nat → List K) (sample : Sample K) : List (List K) :=
  (logitRows logits sample).map (divTemperature · sample.temperature)

theorem scaledRows_length (logits : List Nat → List K) (sample : Sample K) :
    (scaledRows logits sample).length = sample.inputIds.length := by
  rw [scaledRows, length_map, logitRows_length]

theorem scaled_packed (logits : List Nat → List K) (samples : List (Sample K)) :
    zipWith divTemperature (samples.flatMap (logitRows logits))
      (samples.flatMap (fun sample => replicate sample.inputIds.length sample.temperature)) =
      samples.flatMap (scaledRows logits) := by
  rw [zipWith_flatMap divTemperature (fun sample _ =>
    (logitRows_length logits sample).trans length_replicate.symm)]
  apply flatMap_congr
  intro sample _
  rw [← logitRows_length logits sample]
  exact zipWith_same divTemperature _ _

section Packing
variable {module : Module K} {logits : List Nat → List K} (separate : Separate module logits) {spSize : Nat}
  (present : 0 < spSize) (logprob : List K → Nat → K) (samples : List (Sample K))
include separate present

theorem logProbs_packed : logProbs logprob module spSize samples = zipWith logprob (samples.flatMap (scaledRows logits))
        ((samples.flatMap Sample.inputIds).rotate 1) := by
  obtain ⟨padding, size, parts⟩ := separate spSize samples present
  have rows : (samples.flatMap (logitRows logits)).length = (samples.flatMap Sample.inputIds).length := by
    rw [length_flatMap, length_flatMap,
      map_congr_left (fun sample _ => logitRows_length logits sample)]
  have temperatures : (samples.flatMap (fun sample =>
    replicate sample.inputIds.length sample.temperature)).length =
      (samples.flatMap Sample.inputIds).length := by
    rw [length_flatMap, length_flatMap, map_congr_left (fun sample _ => length_replicate)]
  have rolled : ((samples.flatMap Sample.inputIds).rotate 1).length =
    (samples.flatMap Sample.inputIds).length :=
    length_rotate _ _
  generalize isCount : (samples.flatMap Sample.inputIds).length = count at *
  by_cases parallel : 1 < spSize
  · let whole := zipWith logprob (zipWith divTemperature
    (samples.flatMap (logitRows logits) ++ padding)
      (samples.flatMap (fun sample => replicate sample.inputIds.length sample.temperature) ++
        replicate (Shards.missing spSize count) 1))
      ((samples.flatMap Sample.inputIds).rotate 1 ++ replicate (Shards.missing spSize count) 0)
    have left : (samples.flatMap (logitRows logits) ++ padding).length =
        (samples.flatMap (fun sample : Sample K => replicate sample.inputIds.length sample.temperature) ++
          replicate (Shards.missing spSize count) 1).length := by
      rw [length_append, length_append, rows, temperatures, size, length_replicate]
    have scaled : (zipWith divTemperature (samples.flatMap (logitRows logits) ++ padding)
        (samples.flatMap (fun sample => replicate sample.inputIds.length sample.temperature) ++
          replicate (Shards.missing spSize count) 1)).length = count + Shards.missing spSize count := by
      rw [length_zipWith, left, Nat.min_self, length_append, temperatures, length_replicate]
    have labels : ((samples.flatMap Sample.inputIds).rotate 1 ++
      replicate (Shards.missing spSize count) 0).length =
        count + Shards.missing spSize count := by
      rw [length_append, rolled, length_replicate]
    have each : ∀ spRank ∈ range spSize, rankLogProbs logprob module spSize samples spRank =
        Shards.shard spSize spRank whole := by
      intro spRank member
      have part := parts spRank (mem_range.mp member)
      simp only [rankLogProbs, prepareModelInputs, if_pos parallel, isCount, part, ulyssesPadAndSliceInputs,
        temperatures,
        rolled]
      rw [shard_zipWith divTemperature left, shard_zipWith logprob (scaled.trans labels.symm)]
    have length : whole.length = count + Shards.missing spSize count := by
      rw [length_zipWith, scaled, labels, Nat.min_self]
    have gathered : (range spSize).flatMap (rankLogProbs logprob module spSize samples) = whole := by
      rw [flatMap_congr each]
      exact Shards.shards_whole (length ▸ Shards.dvd_missing spSize count present)
    have padSize : (prepareModelInputs spSize 0 samples).padSize = Shards.missing spSize count := by
      simp only [prepareModelInputs, if_pos parallel, isCount]
    have front : whole = zipWith logprob (samples.flatMap (scaledRows logits))
      ((samples.flatMap Sample.inputIds).rotate 1) ++
        zipWith logprob (zipWith divTemperature padding
          (replicate (Shards.missing spSize count) 1))
          (replicate (Shards.missing spSize count) 0) := by
      have packed := scaled_packed logits samples
      have many : (samples.flatMap (scaledRows logits)).length =
          ((samples.flatMap Sample.inputIds).rotate 1).length := by
        rw [← packed, length_zipWith, rows, temperatures, Nat.min_self, rolled]
      rw [← zipWith_append many, ← packed, ← zipWith_append (rows.trans temperatures.symm)]
    simp only [logProbs, if_pos parallel, gathered, padSize, length, Nat.add_sub_cancel]
    rw [front]
    apply take_left'
    rw [length_zipWith, rolled, ← scaled_packed, length_zipWith, rows, temperatures, Nat.min_self,
      Nat.min_self]
  · obtain rfl : spSize = 1 := by omega
    have none : Shards.missing 1 count = 0 := Shards.missing_of_dvd (Nat.mod_one count)
    have part := parts 0 Nat.one_pos
    rw [none] at part size
    rw [eq_nil_of_length_eq_zero size, append_nil, replicate_zero, append_nil,
      range_zero,
      append_nil] at part
    have own : Shards.shard 1 0 (samples.flatMap (logitRows logits)) = samples.flatMap (logitRows logits) := by
      have whole := Shards.shards_whole (one_dvd (samples.flatMap (logitRows logits)).length)
      rw [range_one, flatMap_singleton] at whole
      exact whole
    simp only [logProbs, if_neg parallel, rankLogProbs, prepareModelInputs, part, own, scaled_packed]

end Packing

/-! ### The loss -/

def maskedLogProb (logprob : List K → Nat → K) (row : List K) (token : Nat × Bool) : K :=
  if token.2 then logprob row token.1 else 0

/-- The log-probs of the tokens of a sequence from the second one on that have a mask of one, each after the tokens before it. -/
def sequenceLogProb (logprob : List K → Nat → K) (logits : List Nat → List K) (sample : Sample K) : K :=
  ((List.range' 1 (sample.inputIds.length - 1)).map (fun place =>
    if sample.lossMask.getD place false then
      logprob (divTemperature (logits (sample.inputIds.take place)) sample.temperature)
        (sample.inputIds.getD place 0)
    else 0)).sum

omit [LinearOrder K] in
theorem maskedSum_rows (logprob : List K → Nat → K) (rows : List (List K)) (labels : List Nat) (mask : List Bool) :
    maskedSum ((zipWith logprob rows labels).zip mask) =
      (zipWith (maskedLogProb logprob) rows (labels.zip mask)).sum := by
  induction rows generalizing labels mask with
  | nil => rfl
  | cons row rows ih =>
    cases labels with
    | nil => rfl
    | cons label labels =>
      cases mask with
      | nil => rfl
      | cons valid mask =>
        have rest := ih labels mask
        rw [maskedSum] at rest
        rw [maskedSum, zipWith_cons_cons, zip_cons_cons, map_cons, sum_cons, rest,
          zip_cons_cons,
          zipWith_cons_cons, sum_cons]
        cases valid <;> simp [maskedLogProb, weight]

theorem sequence_sum (logprob : List K → Nat → K) (logits : List Nat → List K) (sample : Sample K) :
    (zipWith (maskedLogProb logprob) (scaledRows logits sample) (sample.inputIds.zip sample.lossMask).tail).sum =
      sequenceLogProb logprob logits sample := by
  have aligned := sample.aligned
  apply congrArg sum
  apply ext_getElem
  · rw [length_zipWith, scaledRows_length, length_tail, length_zip, aligned, length_map,
    length_range']
    omega
  · intro place inside _
    rw [length_zipWith, scaledRows_length, length_tail, length_zip, aligned] at inside
    have here : place + 1 < sample.inputIds.length := by omega
    simp only [getElem_zipWith, getElem_map, getElem_range', getElem_tail, getElem_zip,
      scaledRows,
      logitRows, getElem_range, maskedLogProb, Nat.one_mul, Nat.add_comm 1 place,
        getD_eq_getElem _ _ here,
      getD_eq_getElem _ _ (aligned ▸ here)]

section Loss
variable {module : Module K} {logits : List Nat → List K} (separate : Separate module logits) {spSize : Nat}
  (present : 0 < spSize) (logprob : List K → Nat → K)
include separate present

theorem packed_sum (samples : List (Sample K)) :
    maskedSum ((logProbs logprob module spSize samples).zip ((samples.flatMap Sample.lossMask).rotate 1)) =
      (samples.map (sequenceLogProb logprob logits)).sum := by
  let block (sample : Sample K) := (scaledRows logits sample, sample.inputIds.zip sample.lossMask)
  have quiet : ∀ (row : List K) (token : Nat × Bool), token.2 = false →
      maskedLogProb logprob row token = 0 := by
    rintro row ⟨id, valid⟩ rfl
    rfl
  have sized : ∀ pair ∈ samples.map block, pair.1.length = pair.2.length := by
    intro pair member
    obtain ⟨sample, _, rfl⟩ := mem_map.mp member
    change (scaledRows logits sample).length = (sample.inputIds.zip sample.lossMask).length
    rw [scaledRows_length, length_zip, sample.aligned, Nat.min_self]
  have heads : ∀ pair ∈ samples.map block, ∀ first, pair.2.head? = some first → first.2 = false := by
    intro pair member first head
    obtain ⟨sample, _, rfl⟩ := mem_map.mp member
    have pairs : (sample.inputIds.zip sample.lossMask).head? = some first := head
    rw [head?_eq_getElem?, getElem?_zip_eq_some] at pairs
    apply sample.unmasked
    rw [head?_eq_getElem?]
    exact pairs.2
  have tokens : ((samples.flatMap Sample.inputIds).rotate 1).zip ((samples.flatMap Sample.lossMask).rotate 1) =
      ((samples.map block).flatMap Prod.snd).rotate 1 := by
    have lengths : (samples.flatMap Sample.inputIds).length = (samples.flatMap Sample.lossMask).length := by
      rw [length_flatMap, length_flatMap, map_congr_left (fun sample _ => sample.aligned.symm)]
    have zipped := zipWith_flatMap Prod.mk (fun (sample : Sample K)
      (_ : sample ∈ samples) => sample.aligned.symm)
    rw [flatMap_map, zip_eq_zipWith, ← zipWith_rotate_distrib _ _ _ _ lengths, zipped]
    rfl
  have counted := rolled_sum quiet sized heads
  have own : (samples.map block).map (fun pair =>
    (zipWith (maskedLogProb logprob) pair.1 pair.2.tail).sum) =
      samples.map (sequenceLogProb logprob logits) := by
    rw [map_map]
    exact map_congr_left (fun sample _ => sequence_sum logprob logits sample)
  rw [own, flatMap_map] at counted
  rw [logProbs_packed separate present, maskedSum_rows, tokens, ← counted]

theorem sftLoss_packed {state : Unit} {data : BatchData} {batchNumTokens : Nat}
    (counted : data.batchNumTokens = some batchNumTokens)
    (samples : List (Sample K)) : (sftLoss logprob module spSize state data samples).1 =
      .ok (if batchNumTokens = 0 then none
      else some (-(samples.map (sequenceLogProb logprob logits)).sum / batchNumTokens * data.dpSize)) := by
  rw [sftLoss, counted, packed_sum separate present]

end Loss

/-- The tokens that are trained on. -/
def countTokens {rows : Nat} (row : Fin rows → Sample K) : Nat :=
  ((List.finRange rows).map (fun index => (row index).numTokens)).sum

theorem trainingLoss_sft [IsStrictOrderedRing K] {module : Module K} {logits : List Nat → List K}
    (separate : Separate module logits) (logprob : List K → Nat → K) (spSize : Nat) (present : 0 < spSize)
      {rows : Nat}
    (row : Fin rows → Sample K) (division : Division rows) (globalBatchSize : Option Nat) :
    ∃ loss, trainingLoss (sftLoss logprob module spSize) Sample.numTokens () globalBatchSize row division =
      .ok loss ∧
      (countTokens row ≠ 0 → loss = some (-((List.finRange rows).map (fun index =>
        sequenceLogProb logprob logits (row index))).sum / countTokens row)) := by
  have terms : ∀ samples : List (Sample K), (samples.map
    (fun sample => -sequenceLogProb logprob logits sample)).sum =
      -(samples.map (sequenceLogProb logprob logits)).sum := by
    intro samples
    rw [List.sum_neg, List.map_map]
    rfl
  have each : ∀ (ranks tokens : Nat) (size : Option Nat) (state : Unit) (microBatch : List (Sample K)),
      (sftLoss logprob module spSize state ⟨ranks, some tokens, size⟩ microBatch).1 = .ok (quotient (tokens : K)
        (microBatch.map (fun sample => -sequenceLogProb logprob logits sample)).sum ranks) := by
    intro ranks tokens size state microBatch
    rw [sftLoss_packed separate present logprob rfl, quotient, terms]
    simp only [Nat.cast_eq_zero]
  let part (tokens ranks : Nat) (microBatch : List (Sample K)) : Option K :=
    quotient (tokens : K) (microBatch.map (fun sample => -sequenceLogProb logprob logits sample)).sum ranks
  cases rows with
  | zero =>
    let tokens := ((division.batches row).flatten.flatten.map Sample.numTokens).sum
    have step : ∀ state microBatch, (sftLoss logprob module spSize state
        ⟨(division.batches row).length, some tokens, globalBatchSize⟩ microBatch).1 =
        .ok (part tokens (division.batches row).length microBatch) :=
      fun state microBatch => each _ _ _ state microBatch
    exact ⟨_, forwardBackward_ok step, fun some => absurd rfl some⟩
  | succ count =>
    have step : ∀ state microBatch, (sftLoss logprob module spSize state
        ⟨division.ranks.length, some (allTokens Sample.numTokens row), globalBatchSize⟩ microBatch).1 =
        .ok (part (allTokens Sample.numTokens row) division.ranks.length microBatch) :=
      fun state microBatch => each _ _ _ state microBatch
    refine ⟨_, trainingLoss_ok _ step, ?_⟩
    intro some
    have counted : ((allTokens Sample.numTokens row : Nat) : K) ≠ 0 := Nat.cast_ne_zero.mpr some
    rw [averaged_quotient, averaged_undivided, quotient, if_neg counted, terms, List.map_map, Nat.cast_one,
      mul_one]
    rfl

/-! ### A model for packed tokens -/

section Varlen
variable {K : Type}

/-- The logits of tokens with positions: a position of zero starts a sequence. -/
def varlenRows (logits : List Nat → List K) : List Nat → List (Nat × Nat) → List (List K)
  | _, [] => []
  | seen, (id, position) :: rest =>
    let seen := if position = 0 then [id] else seen ++ [id]
    logits seen :: varlenRows logits seen rest

def varlenModule (logits : List Nat → List K) : Module K := fun spSize inputIds positionIds spRank =>
  Shards.shard spSize spRank (varlenRows logits [] (inputIds.zip positionIds))

variable (logits : List Nat → List K)

theorem varlenRows_length (seen : List Nat) (tokens : List (Nat × Nat)) :
    (varlenRows logits seen tokens).length = tokens.length := by
  induction tokens generalizing seen with
  | nil => rfl
  | cons token tokens ih => exact congrArg Nat.succ (ih _)

theorem varlenRows_inside (ids : List Nat) (tail : List (Nat × Nat)) (seen : List Nat) (position : Nat) :
    varlenRows logits seen (ids.zip (range' (position + 1) ids.length) ++ tail) =
      (range ids.length).map (fun place => logits (seen ++ ids.take (place + 1))) ++
        varlenRows logits (seen ++ ids) tail := by
  induction ids generalizing seen position with
  | nil =>
    rw [append_nil]
    rfl
  | cons id ids ih =>
    have rest := ih (seen ++ [id]) (position + 1)
    rw [append_assoc, singleton_append] at rest
    rw [length_cons, range'_succ, zip_cons_cons, cons_append, varlenRows,
      if_neg (Nat.succ_ne_zero _), rest,
      range_succ_eq_map, map_cons, map_map, cons_append]
    simp [Function.comp_def]

theorem varlenRows_sample (sample : Sample K) (tail : List (Nat × Nat)) (seen : List Nat) :
    ∃ after, varlenRows logits seen (sample.inputIds.zip sample.positionIds ++ tail) =
      logitRows logits sample ++ varlenRows logits after tail := by
  rw [Sample.positionIds, logitRows]
  cases sample.inputIds with
  | nil => exact ⟨seen, rfl⟩
  | cons id ids =>
    refine ⟨[id] ++ ids, ?_⟩
    have rest := varlenRows_inside logits ids tail [id] 0
    have counted : range (id :: ids).length = 0 :: range' 1 ids.length := by
      rw [range_eq_range', length_cons, range'_succ]
    have rows : (range (id :: ids).length).map (fun place => logits ((id :: ids).take (place + 1))) =
        logits [id] :: (range ids.length).map (fun place => logits ([id] ++ ids.take (place + 1))) := by
      rw [length_cons, range_succ_eq_map, map_cons, map_map]
      rfl
    rw [rows, counted, zip_cons_cons, cons_append, varlenRows, if_pos rfl]
    exact congrArg (cons _) rest

theorem varlenRows_samples (samples : List (Sample K)) (tail : List (Nat × Nat)) (seen : List Nat) :
    ∃ after, varlenRows logits seen (samples.flatMap (fun sample => sample.inputIds.zip sample.positionIds) ++ tail) =
      samples.flatMap (logitRows logits) ++ varlenRows logits after tail := by
  induction samples generalizing seen with
  | nil => exact ⟨seen, rfl⟩
  | cons sample samples ih =>
    obtain ⟨between, first⟩ := varlenRows_sample logits sample
      (samples.flatMap (fun sample => sample.inputIds.zip sample.positionIds) ++ tail) seen
    obtain ⟨after, rest⟩ := ih between
    refine ⟨after, ?_⟩
    rw [flatMap_cons, append_assoc, first, rest, flatMap_cons, append_assoc]

theorem varlen_separate : Separate (varlenModule logits) logits := by
  intro spSize samples present
  let pads := Shards.missing spSize (samples.flatMap Sample.inputIds).length
  have positions : ∀ sample ∈ samples, sample.inputIds.length = sample.positionIds.length :=
    fun sample _ => length_range.symm
  have tokens : (samples.flatMap Sample.inputIds ++ replicate pads 0).zip
    (samples.flatMap Sample.positionIds ++ range pads) =
      samples.flatMap (fun sample => sample.inputIds.zip sample.positionIds) ++
          (replicate pads 0).zip (range pads) := by
    have lengths : (samples.flatMap Sample.inputIds).length = (samples.flatMap Sample.positionIds).length := by
      rw [length_flatMap, length_flatMap, map_congr_left positions]
    rw [zip_append lengths]
    exact congrArg (· ++ _) (zipWith_flatMap Prod.mk positions)
  obtain ⟨after, rows⟩ := varlenRows_samples logits samples ((replicate pads 0).zip (range pads)) []
  refine ⟨varlenRows logits after ((replicate pads 0).zip (range pads)), ?_, ?_⟩
  · rw [varlenRows_length, length_zip, length_replicate, length_range, Nat.min_self]
  · intro spRank _
    rw [varlenModule, tokens, rows]

end Varlen

def samplePair : Fin 2 → Sample Rat
  | 0 => ⟨[3, 1, 2], [false, true, true], rfl, fun _ head => (Option.some.inj head).symm, 1⟩
  | 1 => ⟨[2, 1], [false, true], rfl, fun _ head => (Option.some.inj head).symm, 1⟩

/-- A sequence on each of two ranks. -/
def pairRanks : List (List (List (Fin 2))) := [[[⟨0, Nat.two_pos⟩]], [[⟨1, Nat.one_lt_two⟩]]]

theorem pair_nonempty : ∀ microBatch ∈ pairRanks.flatten, microBatch ≠ [] := by decide

theorem pair_covers : pairRanks.flatten.flatten.Perm (finRange 2) := by decide

def pairDivision : Division 2 := ⟨pairRanks, pair_nonempty, pair_covers⟩

def countLogits (tokens : List Nat) : List Rat := (List.range 4).map (fun token => (tokens.count token : Rat))

theorem trainingLoss_pair : trainingLoss (sftLoss (fun row label => row.getD label 0)
    (varlenModule countLogits) 2)
    Sample.numTokens () none samplePair pairDivision = .ok (some (-((List.finRange 2).map (fun index =>
      sequenceLogProb (fun row label => row.getD label 0) countLogits
          (samplePair index))).sum / countTokens samplePair)) := by
  obtain ⟨loss, trained, value⟩ := trainingLoss_sft (varlen_separate countLogits)
    (fun row label => row.getD label 0) 2
    Nat.two_pos samplePair pairDivision none
  rw [trained, value (by decide)]

end LLMFusion.SftLoss
