import LLMFusion.LogProbs
import LLMFusion.Proofs.Padding
import Mathlib.Data.List.Rotate

/-! Where the log-probs of the valid tokens alone are those of the whole batch. Of two neighbours
that are both valid, no packed token comes between, so the label of the first is the second one. -/

namespace LLMFusion.LogProbs
open List hiding mapM_map Vector
open Fallible Padding

variable {τ ω β : Type} {batch width promptWidth responseWidth : Nat}

/-! ### Places of the packed tokens -/

section Places
variable {mask : List Bool} {place : Nat}

theorem rank_next (valid : mask[place]? = some true) :
    (mask.take (place + 1)).count true = (mask.take place).count true + 1 := by
  rw [take_add_one, valid, count_append]
  rfl

theorem rolled_place (logprob : ω → τ → β) {ids : List τ} {logits : List ω} {token : τ} {scores : ω}
    (idsWhole : mask.length = ids.length) (logitsWhole : mask.length = logits.length)
    (valid : mask[place]? = some true) (next : mask[place + 1]? = some true) (here : logits[place]? = some scores)
    (label : ids[place + 1]? = some token) :
    (zipWith logprob (Masking.select mask logits) ((Masking.select mask ids).rotate 1))[(mask.take place).count true]? =
      some (logprob scores token) := by
  have later := (Masking.select_rank idsWhole next).trans label
  rw [rank_next valid] at later
  obtain ⟨inside, _⟩ := List.getElem?_eq_some_iff.mp later
  have rolled : ((Masking.select mask ids).rotate 1)[(mask.take place).count true]? = some token := by
    rw [List.getElem?_rotate (Nat.lt_of_succ_lt inside), Nat.mod_eq_of_lt inside, later]
  simp only [List.getElem?_zipWith, (Masking.select_rank logitsWhole valid).trans here, rolled]

theorem padInput_places [Zero β] {values : List β} (whole : mask.length = batch * width)
    (packed : values.length = mask.count true) :
    ∃ output, padInput values (Masking.places mask) batch width = .ok ((range batch).map (Blocks.block width output)) ∧
      output.length = batch * width ∧ ∀ place, mask[place]? = some true → output[place]? = values[(mask.take place).count true]? := by
  have lengths : values.length = (Masking.places mask).length := by
    rw [packed, Masking.places, Masking.select_length length_range.symm]
  have names : ((Masking.places mask).zip values).map Prod.fst = Masking.places mask :=
    map_fst_zip (Nat.le_of_eq lengths.symm)
  have inside : ∀ entry ∈ (Masking.places mask).zip values, entry.1 < (replicate (batch * width) (0 : β)).length := by
    intro entry member
    rw [length_replicate, ← whole]
    exact Masking.places_inside (of_mem_zip member).1
  obtain ⟨output, written, size, found, _⟩ :=
    Gather.scatter_spec _ _ inside (names.symm ▸ Masking.places_distinct mask)
  rw [length_replicate] at size
  refine ⟨output, ?_, size, ?_⟩
  · simp only [padInput, lengths, ne_eq, not_true_eq_false, if_false, written]
  · intro place valid
    obtain ⟨bound, _⟩ := List.getElem?_eq_some_iff.mp valid
    have named : (Masking.places mask)[(mask.take place).count true]? = some place := by
      rw [Masking.places, Masking.select_rank length_range.symm valid, List.getElem?_range bound]
    obtain ⟨rank, _⟩ := List.getElem?_eq_some_iff.mp named
    have present : values[(mask.take place).count true]? = some values[(mask.take place).count true] :=
      List.getElem?_eq_getElem (lengths ▸ rank)
    have entry : (place, values[(mask.take place).count true]) ∈ (Masking.places mask).zip values := by
      apply @mem_of_getElem? _ _ ((mask.take place).count true)
      rw [List.getElem?_zip_eq_some]
      exact ⟨named, present⟩
    rw [found _ entry, present]

end Places

/-! ### Batches -/

theorem flat_place {α : Type} (tensor : Padded α batch width) {row col : Nat} (inside : row < batch) (within : col < width) :
    (rows tensor).flatten[row * width + col]? = some tensor[row][col] := by
  have here : (rows tensor)[row]? = some tensor[row].toList := by
    simp [rows, inside]
  have lengths : ∀ values ∈ rows tensor, (id values).length = width := fun values member => rows_width member
  have found := Slices.slice_getElem? ((rows tensor).flatMap id) (row * width) ((row + 1) * width) col
  have bound : row * width + col < (row + 1) * width := by
    rw [Nat.succ_mul]
    omega
  rw [Slices.slice_block lengths here, if_pos bound, flatMap_id] at found
  rw [← found]
  simp [within]

theorem flat_length {α : Type} (tensor : Padded α batch width) : (rows tensor).flatten.length = batch * width := by
  have lengths : (rows tensor).map length = replicate batch width := by
    rw [eq_replicate_iff]
    refine ⟨by rw [length_map, rows_length], ?_⟩
    intro length member
    obtain ⟨values, there, rfl⟩ := mem_map.mp member
    exact rows_width there
  rw [length_flatten, lengths, sum_replicate_nat]

/-- A batch whose prompts are padded on the left and whose responses are padded on the right, with
the logits of all its places. -/
structure ScoredBatch (τ ω : Type) (batch promptWidth responseWidth : Nat) where
  inputIds : Padded τ batch (promptWidth + responseWidth)
  attentionMask : Padded Bool batch (promptWidth + responseWidth)
  logits : Padded ω batch (promptWidth + responseWidth)
  /-- The lengths of the prompt and of the response of every row. -/
  lens : Vector (Nat × Nat) batch
  masks : rows attentionMask = lens.toList.map (leftRightMask promptWidth responseWidth)
  prompts : ∀ len ∈ lens.toList, len.1 ≤ promptWidth
  responses : ∀ len ∈ lens.toList, len.2 ≤ responseWidth

theorem leftRightMask_valid {lens : Nat × Nat} {col : Nat} (prompt : lens.1 ≤ promptWidth) (first : promptWidth - lens.1 ≤ col)
    (last : col < promptWidth + lens.2) : (leftRightMask promptWidth responseWidth lens)[col]? = some true := by
  have valid : (replicate lens.1 true ++ replicate lens.2 true)[col - (promptWidth - lens.1)]? = some true := by
    rw [replicate_append_replicate, List.getElem?_replicate, if_pos (by omega)]
  rw [leftRightMask, append_assoc, List.getElem?_append_right (by rw [length_replicate]; exact first),
    length_replicate, ← append_assoc,
    List.getElem?_append_left (by rw [length_append, length_replicate, length_replicate]; omega), valid]

theorem between_response {α : Type} {values : List α} (whole : values.length = promptWidth + responseWidth)
    (prompt : 0 < promptWidth) : Indexing.between values (-(responseWidth : Int) - 1) (-1) =
      Slices.slice values (promptWidth - 1) (promptWidth + responseWidth - 1) := by
  have first : Indexing.bound values.length (-(responseWidth : Int) - 1) = promptWidth - 1 := by
    rw [Indexing.bound, if_pos (by omega), whole]
    omega
  have last : Indexing.bound values.length (-1) = promptWidth + responseWidth - 1 := by
    rw [Indexing.bound, if_pos (by omega), whole]
    omega
  rw [Indexing.between, first, last]
  rfl

theorem fromIndex_response {α : Type} {values : List α} (whole : values.length = promptWidth + responseWidth)
    (some : 0 < responseWidth) : Indexing.fromIndex values (-(responseWidth : Int)) = values.drop promptWidth := by
  rw [Indexing.fromIndex_neg values some, whole, Nat.add_sub_cancel]

/-- What a call returns for a response token. -/
def entry (result : Except Failure (List (List β))) (row col : Nat) : Option β :=
  result.toOption.bind (fun rows => rows[row]?.bind (fun values => values[col]?))

namespace ScoredBatch
variable (data : ScoredBatch τ ω batch promptWidth responseWidth)

theorem mask_valid {row col : Nat} (inside : row < batch) (first : promptWidth - data.lens[row].1 ≤ col)
    (last : col < promptWidth + data.lens[row].2) :
    (rows data.attentionMask).flatten[row * (promptWidth + responseWidth) + col]? = some true := by
  have member : data.lens[row] ∈ data.lens.toList := by simp
  have within : col < promptWidth + responseWidth := by
    have response := data.responses _ member
    omega
  have here : (rows data.attentionMask)[row]? = some data.attentionMask[row].toList := by
    simp [rows, inside]
  have lens : data.lens.toList[row]? = some data.lens[row] := by
    simp [inside]
  rw [data.masks, List.getElem?_map, lens, Option.map_some, Option.some.injEq] at here
  have valid : (leftRightMask promptWidth responseWidth data.lens[row])[col]? = some true :=
    leftRightMask_valid (data.prompts _ member) first last
  rw [here] at valid
  rw [flat_place _ inside within]
  simpa [within] using valid

variable {data} {row place : Nat}

theorem response_place (logprob : ω → τ → β) (inside : row < batch) (prompt : 0 < promptWidth) (short : place < responseWidth) :
    entry (logProbsFromLogitsResponse logprob data.inputIds data.logits responseWidth) row place =
      some (logprob (data.logits[row][promptWidth + place - 1]) (data.inputIds[row][promptWidth + place])) := by
  have present : rows data.logits ≠ [] := by
    intro empty
    have lengths := rows_length data.logits
    rw [empty, List.length_nil] at lengths
    omega
  have each : ∀ line ∈ (rows data.logits).zip (rows data.inputIds),
      logprobsOfRow logprob (Indexing.between line.1 (-(responseWidth : Int) - 1) (-1))
        (Indexing.fromIndex line.2 (-(responseWidth : Int))) =
        .ok (List.zipWith logprob (Slices.slice line.1 (promptWidth - 1) (promptWidth + responseWidth - 1))
          (line.2.drop promptWidth)) := by
    intro line member
    have scores := rows_width (List.of_mem_zip member).1
    have ids := rows_width (List.of_mem_zip member).2
    rw [between_response scores prompt, fromIndex_response ids (by omega), logprobsOfRow, if_pos]
    rw [Slices.slice_length, List.length_drop, scores, ids]
    omega
  have result : logProbsFromLogitsResponse logprob data.inputIds data.logits responseWidth =
      .ok (((rows data.logits).zip (rows data.inputIds)).map (fun line =>
        List.zipWith logprob (Slices.slice line.1 (promptWidth - 1) (promptWidth + responseWidth - 1))
          (line.2.drop promptWidth))) := by
    simp only [logProbsFromLogitsResponse, logprobsFromLogitsRows, List.isEmpty_iff, List.map_eq_nil_iff, present,
      if_false, List.length_map, rows_length, if_true, List.zip_map, List.mapM_map]
    exact mapM_map _ each
  have line : ((rows data.logits).zip (rows data.inputIds))[row]? =
      some (data.logits[row].toList, data.inputIds[row].toList) := by
    simp [rows, inside]
  have before : promptWidth - 1 + place = promptWidth + place - 1 := by omega
  rw [result, entry]
  simp only [Except.toOption, Option.bind_some, List.getElem?_map, line, Option.map_some, List.getElem?_zipWith,
    Slices.slice_getElem?, List.getElem?_drop, before]
  rw [if_pos (by omega)]
  simp [show promptWidth + place - 1 < promptWidth + responseWidth by omega,
    show promptWidth + place < promptWidth + responseWidth by omega]

theorem rmpad_place [Zero β] (logprob : ω → τ → β) (inside : row < batch) (valid : place < data.lens[row].2)
    (preceded : 0 < data.lens[row].1 ∨ 0 < place) (prompt : 0 < promptWidth) (short : place < responseWidth) :
    entry (logProbsFromLogitsAllRmpad logprob (validRows data.attentionMask data.inputIds).values
      (validRows data.attentionMask data.logits).values (Masking.places (rows data.attentionMask).flatten) batch
      (promptWidth + responseWidth) responseWidth) row place =
      some (logprob (data.logits[row][promptWidth + place - 1]) (data.inputIds[row][promptWidth + place])) := by
  have packed : ∀ {α : Type} (tensor : Padded α batch (promptWidth + responseWidth)),
      (validRows data.attentionMask tensor).values = Masking.select (rows data.attentionMask).flatten (rows tensor).flatten :=
    fun tensor => (Masking.select_flatten (rows_aligned data.attentionMask tensor)).symm
  have whole := flat_length data.attentionMask
  have aligned : ∀ {α : Type} (tensor : Padded α batch (promptWidth + responseWidth)),
      (rows data.attentionMask).flatten.length = (rows tensor).flatten.length :=
    fun tensor => whole.trans (flat_length tensor).symm
  have after : row * (promptWidth + responseWidth) + (promptWidth + place - 1) + 1 =
      row * (promptWidth + responseWidth) + (promptWidth + place) := by omega
  have here : (rows data.attentionMask).flatten[row * (promptWidth + responseWidth) + (promptWidth + place - 1)]? =
      some true := data.mask_valid inside (by omega) (by omega)
  have next : (rows data.attentionMask).flatten[row * (promptWidth + responseWidth) + (promptWidth + place)]? =
      some true := data.mask_valid inside (by omega) (by omega)
  have written := rolled_place logprob (aligned data.inputIds) (aligned data.logits) here (after ▸ next)
    (flat_place data.logits inside (by omega)) (after ▸ flat_place data.inputIds inside (by omega))
  rw [← packed data.inputIds, ← packed data.logits] at written
  have lengths : ∀ {α : Type} (tensor : Padded α batch (promptWidth + responseWidth)),
      (validRows data.attentionMask tensor).values.length = (rows data.attentionMask).flatten.count true := by
    intro α tensor
    rw [packed, Masking.select_length (aligned tensor)]
  have some : (validRows data.attentionMask data.logits).values.isEmpty = false := by
    rw [isEmpty_eq_false_iff, ← length_pos_iff]
    obtain ⟨rank, _⟩ := List.getElem?_eq_some_iff.mp written
    rw [length_zipWith] at rank
    omega
  have scored : logprobsFromLogits logprob (validRows data.attentionMask data.logits).values
      ((validRows data.attentionMask data.inputIds).values.rotate 1) = .ok (zipWith logprob
        (validRows data.attentionMask data.logits).values ((validRows data.attentionMask data.inputIds).values.rotate 1)) := by
    rw [logprobsFromLogits, some, if_neg Bool.false_ne_true, logprobsOfRow, if_pos]
    rw [length_rotate, lengths, lengths]
  have total : (zipWith logprob (validRows data.attentionMask data.logits).values
      ((validRows data.attentionMask data.inputIds).values.rotate 1)).length =
      (rows data.attentionMask).flatten.count true := by
    rw [length_zipWith, length_rotate, lengths, lengths, Nat.min_self]
  obtain ⟨output, padded, size, found⟩ := padInput_places whole total
  have line : (range batch)[row]? = Option.some row := by
    rw [List.getElem?_range inside]
  have before : promptWidth - 1 + place = promptWidth + place - 1 := by omega
  have bound : row * (promptWidth + responseWidth) + (promptWidth + place - 1) < (row + 1) * (promptWidth + responseWidth) := by
    rw [Nat.succ_mul]
    omega
  simp only [logProbsFromLogitsAllRmpad, scored, ok_bind, padded, entry, pure, Except.pure, Except.toOption,
    Option.bind_some, List.getElem?_map, line, Option.map_some]
  rw [between_response (Blocks.block_length size inside) prompt]
  simp only [Slices.slice_getElem?, before, Blocks.block]
  rw [if_pos (by omega), if_pos bound, found _ here, written]

/-- The log-probs of the packed tokens are those of the padded ones at every valid response token
that is behind a valid token. -/
theorem logProbsFromLogitsResponse_agrees [Zero β] (logprob : ω → τ → β)
    (data : ScoredBatch τ ω batch promptWidth responseWidth) {packedIds : Unpadded τ} {packedLogits : Unpadded ω}
    (ids : unpadInput data.inputIds data.attentionMask = .ok packedIds)
    (logits : unpadInput data.logits data.attentionMask = .ok packedLogits)
    (prompt : 0 < promptWidth) {row place : Nat} (inside : row < batch) (valid : place < data.lens[row].2)
    (preceded : 0 < data.lens[row].1 ∨ 0 < place) :
    ∃ value, entry (logProbsFromLogitsResponse logprob data.inputIds data.logits responseWidth) row place = some value ∧
      entry (logProbsFromLogitsResponseRmpad logprob data.inputIds data.attentionMask packedLogits.hiddenStates responseWidth)
        row place = some value ∧
      entry (logProbsFromLogitsAllRmpad logprob packedIds.hiddenStates packedLogits.hiddenStates packedIds.indices batch
        (promptWidth + responseWidth) responseWidth) row place = some value := by
  have short : place < responseWidth := Nat.lt_of_lt_of_le valid (data.responses _ (by simp))
  obtain ⟨_, packed⟩ := unpadInput_valid data.inputIds data.attentionMask (Nat.zero_lt_of_lt inside)
  obtain ⟨_, packed'⟩ := unpadInput_valid data.logits data.attentionMask (Nat.zero_lt_of_lt inside)
  have packedRows := rmpad_place logprob inside valid preceded prompt short
  cases ids.symm.trans packed
  cases logits.symm.trans packed'
  refine ⟨_, response_place logprob inside prompt short, ?_, packedRows⟩
  simp only [logProbsFromLogitsResponseRmpad, ids, Except.mapError, ok_bind]
  exact packedRows

end ScoredBatch

/-- A response of two tokens without a prompt, and one of one token behind a prompt. -/
def emptyPrompt : ScoredBatch Nat Nat 2 1 2 where
  inputIds := #v[#v[0, 7, 8], #v[5, 6, 0]]
  attentionMask := #v[#v[false, true, true], #v[true, true, false]]
  logits := #v[#v[10, 20, 30], #v[40, 50, 60]]
  lens := #v[(0, 2), (1, 1)]
  masks := rfl
  prompts := by simp
  responses := by simp

theorem logProbsFromLogitsResponse_second : ∃ packedIds packedLogits value,
    unpadInput emptyPrompt.inputIds emptyPrompt.attentionMask = .ok packedIds ∧
    unpadInput emptyPrompt.logits emptyPrompt.attentionMask = .ok packedLogits ∧
    entry (logProbsFromLogitsResponse (fun scores token => scores * 10 + token) emptyPrompt.inputIds emptyPrompt.logits 2)
      0 1 = some value ∧
    entry (logProbsFromLogitsResponseRmpad (fun scores token => scores * 10 + token) emptyPrompt.inputIds
      emptyPrompt.attentionMask packedLogits.hiddenStates 2) 0 1 = some value ∧
    entry (logProbsFromLogitsAllRmpad (fun scores token => scores * 10 + token) packedIds.hiddenStates
      packedLogits.hiddenStates packedIds.indices 2 3 2) 0 1 = some value := by
  obtain ⟨_, ids⟩ := unpadInput_valid emptyPrompt.inputIds emptyPrompt.attentionMask Nat.two_pos
  obtain ⟨_, logits⟩ := unpadInput_valid emptyPrompt.logits emptyPrompt.attentionMask Nat.two_pos
  obtain ⟨value, agrees⟩ := ScoredBatch.logProbsFromLogitsResponse_agrees (fun scores token => scores * 10 + token)
    emptyPrompt ids logits Nat.one_pos Nat.two_pos (show 1 < 2 from Nat.lt_succ_self 1) (Or.inr Nat.one_pos)
  exact ⟨_, _, value, ids, logits, agrees⟩

/-- The first token of a response without a prompt has the logits of a padding place, and zero
among the packed tokens. -/
theorem logProbsFromLogitsResponse_first :
    0 < emptyPrompt.lens[0].2 ∧ ¬ ∃ packedLogits value,
      unpadInput emptyPrompt.logits emptyPrompt.attentionMask = .ok packedLogits ∧
      entry (logProbsFromLogitsResponse (fun scores token => scores * 10 + token) emptyPrompt.inputIds emptyPrompt.logits 2)
        0 0 = some value ∧
      entry (logProbsFromLogitsResponseRmpad (fun scores token => scores * 10 + token) emptyPrompt.inputIds
        emptyPrompt.attentionMask packedLogits.hiddenStates 2) 0 0 = some value := by
  refine ⟨Nat.two_pos, ?_⟩
  intro agrees
  obtain ⟨packedLogits, value, logits, padded, packed⟩ := agrees
  have here : some 107 = some value := padded
  cases here
  cases logits
  have there : some 0 = some 107 := packed
  cases there

end LLMFusion.LogProbs
