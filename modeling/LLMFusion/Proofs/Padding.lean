import LLMFusion.Padding
import LLMFusion.Lib.Fallible
import Mathlib.Data.List.Zip
import Mathlib.Data.Vector.Defs

/-! What the packed form of a left-right padded batch holds, and where the values that a model
computes of it come back to. -/

namespace LLMFusion.Padding
open List hiding Vector
open Fallible Slices

variable {α β τ π : Type} {batch width promptWidth responseWidth : Nat}

/-! ### Packing -/

theorem rows_length (tensor : Padded α batch width) : (rows tensor).length = batch := by
  simp [rows]

theorem rows_width {tensor : Padded α batch width} {row : List α} (member : row ∈ rows tensor) : row.length = width := by
  obtain ⟨vector, _, rfl⟩ := mem_map.mp member
  exact vector.length_toList

theorem rows_aligned (first : Padded α batch width) (second : Padded β batch width) :
    List.Forall₂ (fun row row' => row.length = row'.length) (rows first) (rows second) := by
  rw [forall₂_iff_zip]
  refine ⟨by rw [rows_length, rows_length], ?_⟩
  intro row row' member
  rw [rows_width (of_mem_zip member).1, rows_width (of_mem_zip member).2]

def validRows (attentionMask : Padded Bool batch width) (tensor : Padded α batch width) : Nested α :=
  ⟨List.zipWith Masking.select (rows attentionMask) (rows tensor)⟩

theorem validRows_values (attentionMask : Padded Bool batch width) (tensor : Padded α batch width) :
    indexFirstAxis (rows tensor).flatten (Masking.places (rows attentionMask).flatten) =
      .ok (validRows attentionMask tensor).values := by
  have aligned := rows_aligned attentionMask tensor
  have lengths : (rows attentionMask).flatten.length = (rows tensor).flatten.length := by
    rw [length_flatten, length_flatten]
    congr 1
    exact forall₂_eq_eq_eq ▸ (forall₂_map_left_iff.mpr (forall₂_map_right_iff.mpr aligned))
  rw [indexFirstAxis, Masking.gather_places lengths, Masking.select_flatten aligned]
  rfl

theorem validRows_offsets (attentionMask : Padded Bool batch width) (tensor : Padded α batch width) :
    (validRows attentionMask tensor).offsets = Nested.cumulative ((rows attentionMask).map (count true)) := by
  rw [Nested.offsets, Nested.lengths, validRows, Masking.select_lengths (rows_aligned attentionMask tensor)]

theorem pack_valid (attentionMask : Padded Bool batch width) (tensor : Padded α batch width) :
    pack tensor (Masking.places (rows attentionMask).flatten)
      (Nested.cumulative ((rows attentionMask).map (count true))) = .ok (validRows attentionMask tensor) := by
  rw [pack, validRows_values, ok_bind, ← validRows_offsets attentionMask tensor, Nested.fromJagged_values]
  rfl

theorem unpadInput_valid (tensor : Padded α batch width) (attentionMask : Padded Bool batch width) (nonempty : 0 < batch) :
    ∃ longest, unpadInput tensor attentionMask =
      .ok ⟨(validRows attentionMask tensor).values, Masking.places (rows attentionMask).flatten,
        (validRows attentionMask tensor).offsets, longest, (rows attentionMask).map (count true)⟩ := by
  cases isMax : ((rows attentionMask).map (count true)).max? with
  | none =>
    have lengths := rows_length attentionMask
    rw [max?_eq_none_iff, map_eq_nil_iff] at isMax
    rw [isMax] at lengths
    exact absurd lengths.symm (Nat.ne_of_gt nonempty)
  | some longest =>
    refine ⟨longest, ?_⟩
    simp only [unpadInput, isMax, validRows_values, ok_bind, validRows_offsets]
    rfl

theorem unpadInput_empty (tensor : Padded α 0 width) (attentionMask : Padded Bool 0 width) :
    unpadInput tensor attentionMask = .error .emptyMax := by
  have empty : rows attentionMask = [] := eq_nil_of_length_eq_zero (rows_length attentionMask)
  rw [unpadInput, empty]
  rfl

theorem validPositions_succeeds (positionIds : PositionIds batch width) (attentionMask : Padded Bool batch width)
    (nonempty : 0 < batch) : ∃ valid, validPositions positionIds attentionMask = .ok valid := by
  cases positionIds with
  | flat ids =>
    have filled : (zipWith Masking.select (rows attentionMask) (rows ids)).isEmpty = false := by
      rw [isEmpty_eq_false_iff, ← length_pos_iff, length_zipWith, rows_length, rows_length]
      omega
    exact ⟨_, by rw [validPositions, asNestedTensor, filled]; rfl⟩
  | channels ids => exact ⟨_, by rw [validPositions, if_neg (Nat.ne_of_gt nonempty)]⟩

theorem packExperts_succeeds {routedExperts : Field (List Int) batch width} {attentionMask : Padded Bool batch width}
    (routed : ∀ tensor, routedExperts = .padded tensor → (rows tensor).flatten.flatten ≠ []) :
    ∃ packed, packExperts routedExperts (Masking.places (rows attentionMask).flatten)
      (Nested.cumulative ((rows attentionMask).map (count true))) = .ok packed := by
  cases routedExperts with
  | nested tensor => exact ⟨tensor, rfl⟩
  | padded tensor =>
    cases isMax : (rows tensor).flatten.flatten.max? with
    | none => exact absurd (max?_eq_none_iff.mp isMax) (routed tensor rfl)
    | some largest => exact ⟨_, by rw [packExperts, isMax]; exact pack_valid attentionMask _⟩

/-- What the teacher says of the valid tokens, when both fields are there. -/
def validTeacher (attentionMask : Padded Bool batch width) :
    Option (Padded (List π) batch width) → Option (Padded (List τ) batch width) →
      Option (Field (List π) batch width) × Option (Field (List τ) batch width)
  | some logprobs, some ids => (some (.nested (validRows attentionMask logprobs)), some (.nested (validRows attentionMask ids)))
  | logprobs, ids => (logprobs.map .padded, ids.map .padded)

theorem packTeacher_valid (attentionMask : Padded Bool batch width) (logprobs : Option (Padded (List π) batch width))
    (ids : Option (Padded (List τ) batch width)) : packTeacher logprobs ids (Masking.places (rows attentionMask).flatten)
      (Nested.cumulative ((rows attentionMask).map (count true))) = .ok (validTeacher attentionMask logprobs ids) := by
  cases logprobs with
  | none => rfl
  | some logprobs =>
    cases ids with
    | none => rfl
    | some ids =>
      rw [packTeacher, pack_valid, pack_valid]
      rfl

/-! ### Batches -/

/-- The mask of a prompt of the first length and a response of the second one. -/
def leftRightMask (promptWidth responseWidth : Nat) (lens : Nat × Nat) : List Bool :=
  (List.replicate (promptWidth - lens.1) false ++ List.replicate lens.1 true) ++
    (List.replicate lens.2 true ++ List.replicate (responseWidth - lens.2) false)

theorem leftRightMask_select {lens : Nat × Nat} (row : List α) (prompt : lens.1 ≤ promptWidth) :
    Masking.select (leftRightMask promptWidth responseWidth lens) row =
      slice row (promptWidth - lens.1) (promptWidth + lens.2) := by
  have length : promptWidth + lens.2 = promptWidth - lens.1 + (lens.1 + lens.2) := by omega
  rw [leftRightMask, append_assoc, ← append_assoc (replicate lens.1 true), replicate_append_replicate,
    Masking.select_skip, Masking.select_front, slice, length, take_drop]

theorem leftRightMask_prompt {lens : Nat × Nat} (prompt : lens.1 ≤ promptWidth) :
    ((leftRightMask promptWidth responseWidth lens).take promptWidth).count true = lens.1 := by
  rw [leftRightMask, take_left' (by simp [prompt])]
  simp [count_append, count_replicate]

theorem leftRightMask_response {lens : Nat × Nat} (prompt : lens.1 ≤ promptWidth) :
    ((leftRightMask promptWidth responseWidth lens).drop promptWidth).count true = lens.2 := by
  rw [leftRightMask, drop_left' (by simp [prompt])]
  simp [count_append, count_replicate]

/-- A batch whose prompts, of at least one token each, are padded on the left and whose responses
are padded on the right. -/
structure LeftRight (τ π : Type) (batch promptWidth responseWidth : Nat) where
  inputIds : Padded τ batch (promptWidth + responseWidth)
  attentionMask : Padded Bool batch (promptWidth + responseWidth)
  responseMask : Padded Bool batch responseWidth
  positionIds : PositionIds batch (promptWidth + responseWidth)
  routedExperts : Option (Field (List Int) batch (promptWidth + responseWidth))
  teacherLogprobs : Option (Padded (List π) batch (promptWidth + responseWidth))
  teacherIds : Option (Padded (List τ) batch (promptWidth + responseWidth))
  /-- The lengths of the prompt and of the response of every row. -/
  lens : Vector (Nat × Nat) batch
  masks : rows attentionMask = lens.toList.map (leftRightMask promptWidth responseWidth)
  prompts : ∀ len ∈ lens.toList, 0 < len.1 ∧ len.1 ≤ promptWidth
  responses : ∀ len ∈ lens.toList, len.2 ≤ responseWidth
  routed : ∀ tensor, routedExperts = some (.padded tensor) → (rows tensor).flatten.flatten ≠ []

namespace LeftRight
variable (data : LeftRight τ π batch promptWidth responseWidth)

def tensorDict : TensorDict τ π batch promptWidth responseWidth where
  inputIds := data.inputIds
  attentionMask := data.attentionMask
  responseMask := data.responseMask
  positionIds := data.positionIds
  routedExperts := data.routedExperts
  teacherLogprobs := data.teacherLogprobs
  teacherIds := data.teacherIds

/-- The tokens of every row, the prompt and the response. -/
def tokens : List (List τ) :=
  List.zipWith (fun len row => slice row (promptWidth - len.1) (promptWidth + len.2)) data.lens.toList (rows data.inputIds)

theorem packed (nonempty : 0 < batch) : ∃ packed, leftRight2NoPadding data.tensorDict = .ok packed ∧
    packed.inputIds = validRows data.attentionMask data.inputIds ∧
    packed.responseData = ⟨.padded promptWidth responseWidth data.attentionMask, some responseWidth⟩ ∧
    (packed.teacherLogprobs, packed.teacherIds) = validTeacher data.attentionMask data.teacherLogprobs data.teacherIds := by
  obtain ⟨longest, unpadded⟩ := unpadInput_valid data.inputIds data.attentionMask nonempty
  obtain ⟨positions, valid⟩ := validPositions_succeeds data.positionIds data.attentionMask nonempty
  have experts : ∃ experts, data.routedExperts.mapM (packExperts ·
      (Masking.places (rows data.attentionMask).flatten) (validRows data.attentionMask data.inputIds).offsets) =
      .ok experts := by
    rw [validRows_offsets]
    cases given : data.routedExperts with
    | none => exact ⟨none, rfl⟩
    | some routedExperts =>
      obtain ⟨packed, succeeds⟩ := @packExperts_succeeds _ _ routedExperts data.attentionMask
        (fun tensor same => data.routed tensor (given.trans (congrArg some same)))
      exact ⟨some packed, by rw [Option.mapM_some, succeeds]; rfl⟩
  obtain ⟨experts, routed⟩ := experts
  have teacher := packTeacher_valid data.attentionMask data.teacherLogprobs data.teacherIds
  rw [← validRows_offsets data.attentionMask data.inputIds] at teacher
  simp only [leftRight2NoPadding, tensorDict, required, ok_bind, unpadded, valid, routed, teacher]
  exact ⟨_, rfl, Nested.fromJagged_values _, rfl, rfl⟩

theorem tokens_length : data.tokens.length = batch := by
  simp [tokens, rows_length]

theorem validRows_tokens : validRows data.attentionMask data.inputIds = ⟨data.tokens⟩ := by
  rw [validRows, tokens, data.masks, zipWith_map_left, Nested.mk.injEq]
  apply zipWith_congr
  rw [forall₂_iff_zip]
  refine ⟨by rw [rows_length, Vector.length_toList], ?_⟩
  intro len row member
  exact leftRightMask_select row (data.prompts len (of_mem_zip member).1).2

theorem tokens_lengths : List.Forall₂ (fun len tokens => tokens.length = len.1 + len.2) data.lens.toList data.tokens := by
  rw [tokens, forall₂_iff_get]
  refine ⟨by simp [rows_length], ?_⟩
  intro index inside inside'
  have prompt := data.prompts _ (get_mem data.lens.toList ⟨index, inside⟩)
  have response := data.responses _ (get_mem data.lens.toList ⟨index, inside⟩)
  have width := rows_width (get_mem (rows data.inputIds) ⟨index, by simpa [rows_length] using inside⟩)
  simp only [get_eq_getElem, getElem_zipWith, slice_length] at prompt response width ⊢
  omega

theorem tokens_at {index : Nat} (inside : index < batch) : ∃ tokens, data.tokens[index]? = some tokens ∧
    tokens.length = data.lens[index].1 + data.lens[index].2 := by
  have bound : index < data.tokens.length := by
    rw [data.tokens_length]
    exact inside
  have lengths := (forall₂_iff_get.mp data.tokens_lengths).2 index (by simpa using inside) bound
  exact ⟨data.tokens[index], List.getElem?_eq_getElem bound, by simpa using lengths⟩

theorem promptLens : (Layout.padded promptWidth responseWidth data.attentionMask : Layout τ).promptLens =
    data.lens.toList.map Prod.fst := by
  rw [Layout.promptLens, data.masks, map_map]
  exact map_congr_left (fun len member => leftRightMask_prompt (data.prompts len member).2)

theorem responseLens : (Layout.padded promptWidth responseWidth data.attentionMask : Layout τ).responseLens =
    data.lens.toList.map Prod.snd := by
  rw [Layout.responseLens, data.masks, map_map]
  exact map_congr_left (fun len member => leftRightMask_response (data.prompts len member).2)

end LeftRight

/-! ### Responses -/

/-- The values from the last token of the prompt to the last but one of the response. -/
def responses (lens : List (Nat × Nat)) (values : List (List β)) : List (List β) :=
  List.zipWith (fun len row => slice row (len.1 - 1) (len.1 - 1 + len.2)) lens values

variable {lens : List (Nat × Nat)} {values : List (List β)}

theorem responses_lengths (aligned : List.Forall₂ (fun len row => row.length = len.1 + len.2) lens values)
    (prompts : ∀ len ∈ lens, 0 < len.1) :
    List.Forall₂ (fun len row => row.length = len.2) lens (responses lens values) := by
  induction aligned with
  | nil => exact .nil
  | @cons len row lens values first _ ih =>
    refine .cons ?_ (ih (fun len member => prompts len (mem_cons_of_mem _ member)))
    have prompt := prompts len mem_cons_self
    rw [slice_length]
    omega

theorem shifted_row {row : List β} {len : Nat × Nat} (length : row.length = len.1 + len.2) (prompt : 0 < len.1)
    (before after : List β) :
    shifted (before ++ (row ++ after)) len.2 (before.length + row.length) = slice row (len.1 - 1) (len.1 - 1 + len.2) := by
  have start : ((before.length + row.length : Nat) : Int) - len.2 - 1 = (before.length + (len.1 - 1) : Nat) := by omega
  have stop : ((before.length + row.length : Nat) : Int) - 1 = (before.length + (len.1 - 1 + len.2) : Nat) := by omega
  rw [shifted, start, stop, Indexing.between_of_nat]
  calc slice (before ++ (row ++ after)) (before.length + (len.1 - 1)) (before.length + (len.1 - 1 + len.2))
      = slice (row ++ after) (len.1 - 1) (len.1 - 1 + len.2) := slice_shift _ _ _ _
    _ = slice row (len.1 - 1) (len.1 - 1 + len.2) := slice_append_left _ _ _ _ (by omega)

theorem shifted_responses (aligned : List.Forall₂ (fun len row => row.length = len.1 + len.2) lens values)
    (prompts : ∀ len ∈ lens, 0 < len.1) :
    zipWith (shifted values.flatten) (lens.map Prod.snd) (Nested.offsets ⟨values⟩).tail = responses lens values := by
  rw [zipWith_map_left]
  apply @Nested.cut_ends _ _ _ (fun values len => shifted values len.2)
    (fun len row => slice row (len.1 - 1) (len.1 - 1 + len.2)) lens values []
  rw [forall₂_iff_zip] at aligned ⊢
  refine ⟨aligned.1, ?_⟩
  intro len row member
  exact shifted_row (aligned.2 member) (prompts len (of_mem_zip member).1)

theorem responses_length (aligned : lens.length = values.length) : (responses lens values).length = lens.length := by
  rw [responses, length_zipWith, ← aligned, Nat.min_self]

def paddedResponses [Zero β] (size : Int) (lens : List (Nat × Nat)) (values : List (List β)) : List (List β) :=
  List.zipWith (fun len response => padBehind response (size - len.2)) lens (responses lens values)

theorem noPadding2Padding_responses [Zero β]
    (aligned : List.Forall₂ (fun len row => row.length = len.1 + len.2) lens values)
    (prompts : ∀ len ∈ lens, 0 < len.1) (nonempty : lens ≠ []) {tensor : Output β} (holds : tensor.values = values.flatten)
    {data : ResponseData τ} {size : Int} (promptLens : data.layout.promptLens = lens.map Prod.fst)
    (responseLens : data.layout.responseLens = lens.map Prod.snd) (rowLen : data.rowLen = .ok size) :
    noPadding2Padding tensor data = .ok (paddedResponses size lens values) := by
  have sums : zipWith (· + ·) (lens.map Prod.fst) (lens.map Prod.snd) = values.map length := by
    rw [zipWith_map, zipWith_self]
    exact (forall₂_eq_eq_eq ▸ (forall₂_map_left_iff.mpr (forall₂_map_right_iff.mpr
      (aligned.imp (fun _ _ same => same.symm)))))
  have last : (Nested.cumulative (values.map length)).tail.getLast? = some tensor.values.length := by
    rw [Nested.cumulative_last, holds, length_flatten]
    intro empty
    have lengths := aligned.length_eq
    rw [map_eq_nil_iff.mp empty] at lengths
    exact nonempty (eq_nil_of_length_eq_zero lengths)
  have filled : 0 ∉ lens.map Prod.fst := by
    intro member
    obtain ⟨len, member, zero⟩ := mem_map.mp member
    exact Nat.ne_of_gt (prompts len member) zero
  have cut : zipWith (fun (len : Nat × Nat) (seqOffset : Nat) =>
      padBehind (shifted values.flatten len.2 seqOffset) (size - len.2)) lens (Nested.offsets ⟨values⟩).tail =
      paddedResponses size lens values := by
    rw [paddedResponses, responses, zipWith_zipWith_right, zipWith3_same_left]
    apply @Nested.cut_ends _ _ _ (fun values len stop => padBehind (shifted values len.2 stop) (size - len.2))
      (fun len row => padBehind (slice row (len.1 - 1) (len.1 - 1 + len.2)) (size - len.2)) lens values []
    rw [forall₂_iff_zip] at aligned ⊢
    refine ⟨aligned.1, ?_⟩
    intro len row member before after
    rw [shifted_row (aligned.2 member) (prompts len (of_mem_zip member).1)]
  simp only [noPadding2Padding, promptLens, responseLens, rowLen, ok_bind, sums, last, ne_eq, not_true_eq_false,
    ite_false, filled, zipWith_map_left, holds]
  exact congrArg Except.ok cut

variable {responseMask : Nested Bool}

theorem responseFromNested_responses {tensor : Nested β}
    (aligned : List.Forall₂ (fun len row => row.length = len.1 + len.2) lens tensor.rows)
    (prompts : ∀ len ∈ lens, 0 < len.1) (responseLens : responseMask.lengths = lens.map Prod.snd) :
    responseFromNested tensor responseMask = asNestedTensor (responses lens tensor.rows) := by
  have counts : responseMask.lengths.length = tensor.offsets.tail.length := by
    rw [responseLens, length_map, aligned.length_eq, Nested.offsets, Nested.cumulative, length_tail,
      length_scanl, Nested.lengths, length_map, Nat.add_sub_cancel]
  rw [responseFromNested, if_neg (not_not_intro counts), responseLens]
  exact congrArg asNestedTensor (shifted_responses aligned prompts)

theorem padBehind_nat [Zero β] (items : List β) (size : Nat) : padBehind items size = items ++ replicate size 0 := by
  rw [padBehind, take_of_length_le]
  · rw [Int.toNat_natCast]
  · rw [length_append, length_replicate]
    omega

theorem responseToNested_padded [Zero β] {responses : List (List β)}
    {size : Int} (lengths : List.Forall₂ (fun len row => row.length = len.2) lens responses)
    (room : ∀ len ∈ lens, (len.2 : Int) ≤ size) (responseLens : responseMask.lengths = lens.map Prod.snd) :
    responseToNested (zipWith (fun len response => padBehind response (size - len.2)) lens responses) responseMask =
      asNestedTensor responses := by
  have cropped : zipWith (fun row respLen => row.take respLen)
      (zipWith (fun (len : Nat × Nat) response => padBehind response (size - len.2)) lens responses)
      (lens.map Prod.snd) = responses := by
    clear responseLens
    induction lengths with
    | nil => rfl
    | @cons len response lens responses first _ ih =>
      obtain ⟨blank, same⟩ := Int.eq_ofNat_of_zero_le (Int.sub_nonneg_of_le (room len mem_cons_self))
      rw [zipWith_cons_cons, map_cons, zipWith_cons_cons,
        ih (fun len member => room len (mem_cons_of_mem _ member)), same, padBehind_nat, ← first, take_left]
  have counts : ¬ (lens.map Prod.snd).length <
      (zipWith (fun (len : Nat × Nat) response => padBehind response (size - len.2)) lens responses).length := by
    rw [length_map, length_zipWith]
    exact Nat.not_lt.mpr (Nat.min_le_left _ _)
  rw [responseToNested, responseLens, if_neg counts, cropped]

/-- What a model computes at every place of every row. -/
def perToken (f : List τ → Nat → β) (tensor : Nested τ) : Nested β :=
  ⟨tensor.rows.map (fun row => (List.range row.length).map (f row))⟩

/-- A padded response holds the values of the places one before its tokens, and then zeros. -/
theorem paddedResponses_at [Zero β] {index : Nat} {len : Nat × Nat}
    {row : List β} (named : lens[index]? = some len) (valuesOf : values[index]? = some row)
    (length : row.length = len.1 + len.2) (prompt : 0 < len.1) (room : len.2 ≤ responseWidth) :
    ∃ padded, (paddedResponses responseWidth lens values)[index]? = some padded ∧ padded.length = responseWidth ∧
      ∀ column < responseWidth,
        padded[column]? = if column < len.2 then row[len.1 + column - 1]? else some 0 := by
  have blank : (responseWidth : Int) - len.2 = (responseWidth - len.2 : Nat) := by omega
  have found : (paddedResponses responseWidth lens values)[index]? =
      some (slice row (len.1 - 1) (len.1 - 1 + len.2) ++ replicate (responseWidth - len.2) 0) := by
    simp only [paddedResponses, responses, List.getElem?_zipWith, named, valuesOf, blank, padBehind_nat]
  have cut : (slice row (len.1 - 1) (len.1 - 1 + len.2)).length = len.2 := by
    rw [slice_length]
    omega
  refine ⟨_, found, by rw [length_append, cut, length_replicate]; omega, ?_⟩
  intro column inside
  by_cases token : column < len.2
  · rw [if_pos token, List.getElem?_append_left (by rw [cut]; exact token), slice_getElem?, if_pos (by omega)]
    congr 1
    omega
  · rw [if_neg token, List.getElem?_append_right (by rw [cut]; omega), List.getElem?_replicate, if_pos (by rw [cut]; omega)]

theorem paddedResponses_perToken [Zero β] (f : List τ → Nat → β) {tokens : List (List τ)}
    {index : Nat} {len : Nat × Nat} {row : List τ} (named : lens[index]? = some len) (tokensOf : tokens[index]? = some row)
    (length : row.length = len.1 + len.2) (prompt : 0 < len.1) (room : len.2 ≤ responseWidth) :
    ∃ padded, (paddedResponses responseWidth lens (perToken f ⟨tokens⟩).rows)[index]? = some padded ∧
      padded.length = responseWidth ∧
      ∀ column < responseWidth,
        padded[column]? = some (if column < len.2 then f row (len.1 + column - 1) else 0) := by
  have valuesOf : (perToken f ⟨tokens⟩).rows[index]? = some ((range row.length).map (f row)) := by
    rw [perToken, List.getElem?_map, tokensOf, Option.map_some]
  obtain ⟨padded, found, width, columns⟩ := paddedResponses_at named valuesOf (by rw [length_map, length_range, length])
    prompt room
  refine ⟨padded, found, width, ?_⟩
  intro column inside
  rw [columns column inside]
  split
  · rw [List.getElem?_map, List.getElem?_range (by omega), Option.map_some]
  · rfl

theorem responses_restored [Zero β] {tensor : Nested β}
    (aligned : List.Forall₂ (fun len row => row.length = len.1 + len.2) lens tensor.rows)
    (prompts : ∀ len ∈ lens, 0 < len.1) (nonempty : lens ≠ []) (responseLens : responseMask.lengths = lens.map Prod.snd)
    {data : ResponseData τ} {size : Int} (room : ∀ len ∈ lens, (len.2 : Int) ≤ size)
    (readPrompts : data.layout.promptLens = lens.map Prod.fst)
    (readResponses : data.layout.responseLens = lens.map Prod.snd) (rowLen : data.rowLen = .ok size) :
    (do let output ← noPadding2Padding (.nested tensor) data; responseToNested output responseMask) =
      responseFromNested tensor responseMask := by
  rw [noPadding2Padding_responses aligned prompts nonempty rfl readPrompts readResponses rowLen, ok_bind,
    responseFromNested_responses aligned prompts responseLens]
  exact responseToNested_padded (responses_lengths aligned prompts) room responseLens

/-- Without a given length, or with one that has room, nested responses are padded with room for each. -/
theorem nested_rowLen (nonempty : lens ≠ []) {prompts responses : Nested τ}
    {aligned : prompts.rows.length = responses.rows.length} (responseLens : responses.lengths = lens.map Prod.snd)
    {maxResponseLen : Option Int}
    (room : ∀ size, maxResponseLen = some size → 0 ≤ size → ∀ len ∈ lens, (len.2 : Int) ≤ size) :
    ∃ size, (ResponseData.mk (.nested prompts responses aligned) maxResponseLen).rowLen = .ok size ∧
      ∀ len ∈ lens, (len.2 : Int) ≤ size := by
  by_cases computed : maxResponseLen.getD (-1) < 0
  · cases isMax : responses.lengths.max? with
    | none =>
      rw [max?_eq_none_iff, responseLens, map_eq_nil_iff] at isMax
      exact absurd isMax nonempty
    | some longest =>
      refine ⟨longest, by simp [ResponseData.rowLen, computed, isMax], ?_⟩
      intro len member
      rw [responseLens] at isMax
      exact Int.ofNat_le.mpr ((max?_eq_some_iff.mp isMax).2 _ (mem_map_of_mem member))
  · cases maxResponseLen with
    | none => exact absurd (by decide) computed
    | some size =>
      exact ⟨size, by rw [ResponseData.rowLen]; exact if_neg computed, room size rfl (Int.not_lt.mp computed)⟩

/-- A response column holds what the model computes one token before it; and what is padded and
cropped is what is cut out without padding. A batch without rows is refused. -/
theorem left_right_responses [Zero β] (data : LeftRight τ π batch promptWidth responseWidth) (f : List τ → Nat → β) :
    (batch = 0 ∧ leftRight2NoPadding data.tensorDict = .error .emptyMax) ∨
    ∃ packed output, leftRight2NoPadding data.tensorDict = .ok packed ∧
      noPadding2Padding (.nested (perToken f packed.inputIds)) packed.responseData = .ok output ∧
      output.length = batch ∧
      (∀ index (_ : index < batch), ∃ tokens row, data.tokens[index]? = some tokens ∧ output[index]? = some row ∧
        row.length = responseWidth ∧ ∀ column < responseWidth, row[column]? =
          some (if column < data.lens[index].2 then f tokens (data.lens[index].1 + column - 1) else 0)) ∧
      ∀ (x : Nested β) (responseMask : Nested Bool),
        x.lengths = data.lens.toList.map (fun len => len.1 + len.2) →
        responseMask.lengths = data.lens.toList.map Prod.snd →
        (∃ response, responseFromNested x responseMask = .ok response) ∧
        (do let output ← noPadding2Padding (.nested x) packed.responseData; responseToNested output responseMask) =
          responseFromNested x responseMask ∧
        ∀ (prompts responses : Nested τ) (aligned : prompts.rows.length = responses.rows.length)
          (maxResponseLen : Option Int), prompts.lengths = data.lens.toList.map Prod.fst →
          responses.lengths = data.lens.toList.map Prod.snd →
          (∀ size, maxResponseLen = some size → 0 ≤ size → ∀ len ∈ data.lens.toList, (len.2 : Int) ≤ size) →
          (do let output ← noPadding2Padding (.nested x) ⟨.nested prompts responses aligned, maxResponseLen⟩
              responseToNested output responseMask) = responseFromNested x responseMask := by
  rcases Nat.eq_zero_or_pos batch with rfl | some
  · left
    refine ⟨rfl, ?_⟩
    simp only [leftRight2NoPadding, LeftRight.tensorDict, required, ok_bind, unpadInput_empty]
    rfl
  right
  obtain ⟨packed, succeeds, inputIds, responseData, _⟩ := data.packed some
  have prompts : ∀ len ∈ data.lens.toList, 0 < len.1 := fun len member => (data.prompts len member).1
  have nonempty : data.lens.toList ≠ [] := by
    rw [← List.length_pos_iff, Vector.length_toList]
    exact some
  have computed : List.Forall₂ (fun len row => row.length = len.1 + len.2) data.lens.toList
      (perToken f ⟨data.tokens⟩).rows := by
    refine List.forall₂_map_right_iff.mpr (data.tokens_lengths.imp ?_)
    intro len tokens length
    rw [List.length_map, List.length_range, length]
  rw [data.validRows_tokens] at inputIds
  refine ⟨packed, ?_⟩
  rw [responseData, inputIds]
  refine ⟨_, succeeds, noPadding2Padding_responses computed prompts nonempty rfl data.promptLens data.responseLens rfl,
    ?_, ?_, ?_⟩
  · rw [paddedResponses, List.length_zipWith, responses_length computed.length_eq, Nat.min_self, Vector.length_toList]
  · intro index inside
    have named : data.lens.toList[index]? = Option.some data.lens[index] := by simp [inside]
    have member := List.mem_of_getElem? named
    obtain ⟨tokens, tokensOf, length⟩ := data.tokens_at inside
    obtain ⟨row, found, width, columns⟩ := paddedResponses_perToken f named tokensOf length (prompts _ member)
      (data.responses _ member)
    exact ⟨tokens, row, tokensOf, found, width, columns⟩
  · intro x responseMask lengths responseLens
    have aligned : List.Forall₂ (fun len row => row.length = len.1 + len.2) data.lens.toList x.rows := by
      rw [Nested.lengths] at lengths
      have same := List.forall₂_map_left_iff.mp (List.forall₂_map_right_iff.mp (List.forall₂_eq_eq_eq ▸ lengths))
      exact same.flip
    refine ⟨?_, ?_, ?_⟩
    · have filled : (responses data.lens.toList x.rows).isEmpty = false := by
        rw [List.isEmpty_eq_false_iff, ← List.length_pos_iff, responses_length aligned.length_eq]
        exact List.length_pos_iff.mpr nonempty
      exact ⟨_, by rw [responseFromNested_responses aligned prompts responseLens, asNestedTensor, filled]; rfl⟩
    · exact responses_restored aligned prompts nonempty responseLens
        (fun len member => Int.ofNat_le.mpr (data.responses len member)) data.promptLens data.responseLens rfl
    · intro prompts' responses' aligned' maxResponseLen promptLens' responseLens' room
      obtain ⟨size, rowLen, room⟩ := nested_rowLen nonempty responseLens' room
      exact responses_restored aligned prompts nonempty responseLens room promptLens' responseLens' rowLen

/-- A prompt of one token with a response of two, and a prompt of two without a response. -/
def twoRows : LeftRight Nat Nat 2 2 2 where
  inputIds := #v[#v[0, 3, 4, 5], #v[6, 7, 0, 0]]
  attentionMask := #v[#v[false, true, true, true], #v[true, true, false, false]]
  responseMask := #v[#v[true, false], #v[false, false]]
  positionIds := .flat #v[#v[0, 0, 1, 2], #v[0, 1, 1, 1]]
  routedExperts := none
  teacherLogprobs := none
  teacherIds := none
  lens := #v[(1, 2), (2, 0)]
  masks := by decide
  prompts := by decide
  responses := by decide
  routed := nofun

theorem left_right_responses_two :
    ∃ packed output row, leftRight2NoPadding twoRows.tensorDict = .ok packed ∧
      noPadding2Padding (.nested (perToken (fun tokens place => tokens.getD place 0) packed.inputIds))
        packed.responseData = .ok output ∧
      output[0]? = some row ∧ row[0]? = some 3 ∧ row[1]? = some 4 ∧
      (do let output ← noPadding2Padding (.nested ⟨[[1, 2, 3], [4, 5]]⟩) packed.responseData
          responseToNested output ⟨[[true, false], []]⟩) =
        responseFromNested ⟨[[1, 2, 3], [4, 5]]⟩ ⟨[[true, false], []]⟩ := by
  obtain ⟨empty, _⟩ | ⟨packed, output, succeeds, padded, _, columns, restored⟩ :=
    left_right_responses twoRows (fun tokens place => tokens.getD place 0)
  · cases empty
  obtain ⟨tokens, row, tokensOf, found, _, values⟩ := columns 0 (by decide)
  have named : tokens = [3, 4, 5] := Option.some.inj (tokensOf.symm.trans (by decide))
  refine ⟨packed, output, row, succeeds, padded, found, ?_, ?_, (restored _ _ rfl rfl).2.1⟩
  · exact (values 0 (by decide)).trans (by rw [named]; decide)
  · exact (values 1 (by decide)).trans (by rw [named]; decide)

end LLMFusion.Padding
