import LLMFusion.Proofs.PackedLayout
import LLMFusion.BshdEngine

/-! Padding nested sequences to one length. The ranks together hold the padded rows,
with masks and positions to match, and selecting by the masks what they return gives
each sequence its own values. -/

namespace LLMFusion.Mcore
open List hiding mapM_map Vector
open Slices ZigZag Gather Fallible

/-! ### The padded length -/

section Lengths

private theorem roundUp_spec {align : Nat} (positive : 0 < align) (length : Nat) :
    length ≤ (length + align - 1) / align * align ∧ align ∣ (length + align - 1) / align * align := by
  have whole := Nat.div_add_mod (length + align - 1) align
  have bound := Nat.mod_lt (length + align - 1) positive
  rw [Nat.mul_comm] at whole
  exact ⟨by omega, Nat.dvd_mul_left _ _⟩

private theorem dvd_mul_of_share {total padded : Nat} (batchSize : Nat)
    (divides : total / Nat.gcd batchSize total ∣ padded) : total ∣ batchSize * padded := by
  obtain ⟨count, rfl⟩ := divides
  obtain ⟨factor, isFactor⟩ := Nat.gcd_dvd_left batchSize total
  have whole := Nat.mul_div_cancel' (Nat.gcd_dvd_right batchSize total)
  generalize Nat.gcd batchSize total = common at isFactor whole ⊢
  generalize total / common = share at whole ⊢
  rw [isFactor, ← whole]
  exact ⟨factor * count, by ring⟩

/-- The padded length as the comments of the source ask for it. -/
structure BshdLength (parallel : Parallel) (useFp8Padding : Bool) (batchSize maxSeqlen padded : Nat) : Prop where
  covers : maxSeqlen ≤ padded
  sequenceParallel : parallel.tpSize ∣ padded
  contextParallel : 1 < parallel.cpSize → 2 * parallel.cpSize * parallel.tpSize ∣ padded
  eightBit : useFp8Padding = true → 128 * parallel.tpSize * parallel.cpSize ∣ batchSize * padded

theorem bshdSeqlen_spec (parallel : Parallel) (useFp8Padding : Bool) {batchSize : Nat} (some : 0 < batchSize)
    (maxSeqlen : Nat) :
    BshdLength parallel useFp8Padding batchSize maxSeqlen (bshdSeqlen parallel useFp8Padding batchSize maxSeqlen) := by
  have tp := parallel.tpPositive
  have cp := parallel.cpPositive
  have align := parallel.alignSize_pos
  -- the length is a multiple of the alignment with either padding
  have aligned : maxSeqlen ≤ bshdSeqlen parallel useFp8Padding batchSize maxSeqlen ∧
      parallel.alignSize ∣ bshdSeqlen parallel useFp8Padding batchSize maxSeqlen ∧
      (useFp8Padding = true → 128 * parallel.tpSize * parallel.cpSize /
        Nat.gcd batchSize (128 * parallel.tpSize * parallel.cpSize) ∣
          bshdSeqlen parallel useFp8Padding batchSize maxSeqlen) := by
    have first : maxSeqlen ≤ (if 1 < parallel.alignSize then maxSeqlen + padSize parallel.alignSize maxSeqlen
          else maxSeqlen) ∧
        parallel.alignSize ∣ (if 1 < parallel.alignSize then maxSeqlen + padSize parallel.alignSize maxSeqlen
          else maxSeqlen) := by
      by_cases several : 1 < parallel.alignSize
      · rw [if_pos several]
        exact ⟨Nat.le_add_right _ _, padSize_dvd align maxSeqlen⟩
      · obtain one : parallel.alignSize = 1 := by omega
        rw [if_neg several, one]
        exact ⟨Nat.le_refl _, Nat.one_dvd _⟩
    cases useFp8Padding with
    | false => exact ⟨first.1, first.2, fun on => absurd on (by decide)⟩
    | true =>
      have total : 0 < 128 * parallel.tpSize * parallel.cpSize :=
        Nat.mul_pos (Nat.mul_pos (by decide) tp) cp
      have share : 0 < 128 * parallel.tpSize * parallel.cpSize /
          Nat.gcd batchSize (128 * parallel.tpSize * parallel.cpSize) :=
        Nat.div_pos (Nat.le_of_dvd total (Nat.gcd_dvd_right _ _)) (Nat.gcd_pos_of_pos_left _ some)
      simp only [bshdSeqlen, ite_true]
      obtain ⟨covers, divides⟩ := roundUp_spec (Nat.lcm_pos share align)
        (if 1 < parallel.alignSize then maxSeqlen + padSize parallel.alignSize maxSeqlen else maxSeqlen)
      exact ⟨first.1.trans covers, (Nat.dvd_lcm_right _ _).trans divides,
        fun _ => (Nat.dvd_lcm_left _ _).trans divides⟩
  obtain ⟨covers, divides, fp8⟩ := aligned
  refine ⟨covers, ?_, ?_, ?_⟩
  · refine Nat.dvd_trans ?_ divides
    rw [Parallel.alignSize]
    split
    · exact ⟨parallel.cpSize * 2, by ring⟩
    · exact Nat.dvd_refl _
  · intro many
    refine Nat.dvd_trans ?_ divides
    rw [Parallel.alignSize, if_pos many]
    exact ⟨1, by ring⟩
  · intro on
    exact dvd_mul_of_share batchSize (fp8 on)

end Lengths

/-! ### The rows of one rank -/

section Rows
variable {α : Type} {parallel : Parallel} {cpRank maxSeqlen : Nat}

def rankPart {γ : Type} (parallel : Parallel) (cpRank maxSeqlen : Nat) (row : List γ) : List γ :=
  if 1 < parallel.cpSize then split parallel.cpSize (maxSeqlen / (2 * parallel.cpSize)) cpRank row else row

def rolledRow {γ : Type} (needRoll : Bool) (row : List γ) : List γ := if needRoll then row.rotate 1 else row

def rowMask (maxSeqlen seqlen : Nat) : List Bool := (List.range maxSeqlen).map (fun position => decide (position < seqlen))

def Splits (parallel : Parallel) (maxSeqlen : Nat) : Prop := 1 < parallel.cpSize → 2 * parallel.cpSize ∣ maxSeqlen

theorem Splits.whole (splits : Splits parallel maxSeqlen) (many : 1 < parallel.cpSize) :
    maxSeqlen = maxSeqlen / (2 * parallel.cpSize) * (2 * parallel.cpSize) ∧
      maxSeqlen / parallel.cpSize = 2 * (maxSeqlen / (2 * parallel.cpSize)) := by
  obtain ⟨half, rfl⟩ := splits many
  have positive := parallel.cpPositive
  rw [Nat.mul_div_cancel_left _ (by omega), show 2 * parallel.cpSize * half = 2 * half * parallel.cpSize by ring,
    Nat.mul_div_cancel _ positive]
  exact ⟨by ring, rfl⟩

theorem rankPart_length {γ : Type} (splits : Splits parallel maxSeqlen) (inside : cpRank < parallel.cpSize)
    {row : List γ} (length : row.length = maxSeqlen) :
    (rankPart parallel cpRank maxSeqlen row).length =
      if 1 < parallel.cpSize then maxSeqlen / parallel.cpSize else maxSeqlen := by
  by_cases many : 1 < parallel.cpSize
  · obtain ⟨whole, share⟩ := splits.whole many
    rw [rankPart, if_pos many, if_pos many, split_length inside (by rw [length]; exact whole), share]
  · rw [rankPart, if_neg many, if_neg many, length]

private theorem fill_nonempty {γ : Type} (items : List γ) (start length : Nat) (value : γ) :
    (if 0 < length then fill items start (start + length) value else items) = fill items start (start + length) value := by
  split
  · rfl
  next none =>
    obtain rfl := Nat.eq_zero_of_not_pos none
    simp [fill, Nat.sub_eq_zero_of_le (Nat.min_le_left _ _)]

private theorem masks_split {half : Nat} (whole : maxSeqlen = half * (2 * parallel.cpSize))
    (inside : cpRank < parallel.cpSize) (seqlen : Nat) :
    fill (fill (replicate (2 * half) false) 0 (0 + min (seqlen - half * cpRank) half) true) half
        (half + min (seqlen - half * (2 * parallel.cpSize - 1 - cpRank)) half) true =
      split parallel.cpSize half cpRank (rowMask maxSeqlen seqlen) := by
  have length : (rowMask maxSeqlen seqlen).length = half * (2 * parallel.cpSize) := by simpa [rowMask] using whole
  obtain ⟨mirror, mirrorEnd, front, double⟩ := mirror_bound half inside
  have firstEnd : half * (cpRank + 1) = half * cpRank + half := Nat.mul_succ _ _
  have lastEnd : half * (2 * parallel.cpSize - 1 - cpRank + 1) = half * (2 * parallel.cpSize - 1 - cpRank) + half :=
    Nat.mul_succ _ _
  have first : (fill (replicate (2 * half) false) 0 (0 + min (seqlen - half * cpRank) half) true).length =
      2 * half := by
    simp only [fill, length_append, length_take, length_replicate, length_drop]
    omega
  apply ext_getElem?
  intro index
  rw [fill_getElem? _ _ (by omega), fill_getElem? _ _ (by omega), first, length_replicate, getElem?_replicate]
  by_cases within : index < 2 * half
  · rw [split_getElem? inside length within]
    by_cases isFirst : index < half
    · rw [if_pos isFirst, rowMask, getElem?_map, getElem?_range (by omega), Option.map_some]
      rw [if_neg (by omega)]
      by_cases token : half * cpRank + index < seqlen
      · rw [if_pos (by omega), decide_eq_true token]
      · rw [if_neg (by omega), if_pos within, decide_eq_false token]
    · rw [if_neg isFirst, rowMask, getElem?_map, getElem?_range (by omega), Option.map_some]
      by_cases token : half * (2 * parallel.cpSize - 1 - cpRank) + (index - half) < seqlen
      · rw [if_pos (by omega), decide_eq_true token]
      · rw [if_neg (by omega), if_neg (by omega), if_pos within, decide_eq_false token]
  · rw [if_neg (by omega), if_neg (by omega), if_neg within,
      getElem?_eq_none (by rw [split_length inside length]; omega)]

private theorem rolled_chunk {size start : Nat} (seq : List α) (inside : start + size ≤ seq.length) :
    (range' start size).map (fun position => seq[(position + 1) % seq.length]?) =
      (slice (seq.rotate 1) start (start + size)).map some := by
  apply ext_getElem?
  intro index
  rw [getElem?_map, getElem?_map, slice_getElem?]
  by_cases within : index < size
  · have bound : start + index < seq.length := by omega
    have next : (start + index + 1) % seq.length < seq.length := Nat.mod_lt _ (by omega)
    rw [getElem?_range' within, if_pos (by omega), getElem?_rotate bound, Nat.one_mul, Option.map_some,
      getElem?_eq_getElem next, Option.map_some]
  · rw [getElem?_eq_none (by rw [length_range']; omega), if_neg (by omega), Option.map_none, Option.map_none]

private theorem takeIndices_rolled {half : Nat} {seq : List α} (whole : seq.length = half * (2 * parallel.cpSize))
    (inside : cpRank < parallel.cpSize) :
    takeIndices seq ((range' (half * cpRank) half ++ range' (half * (2 * parallel.cpSize - 1 - cpRank)) half).map
      (fun position => (position + 1) % seq.length)) = .ok (split parallel.cpSize half cpRank (seq.rotate 1)) := by
  obtain ⟨mirror, mirrorEnd, front, double⟩ := mirror_bound half inside
  have firstEnd : half * (cpRank + 1) = half * cpRank + half := Nat.mul_succ _ _
  have lastEnd : half * (2 * parallel.cpSize - 1 - cpRank + 1) = half * (2 * parallel.cpSize - 1 - cpRank) + half :=
    Nat.mul_succ _ _
  have picked : gather seq ((range' (half * cpRank) half ++
      range' (half * (2 * parallel.cpSize - 1 - cpRank)) half).map (fun position => (position + 1) % seq.length)) =
        some (split parallel.cpSize half cpRank (seq.rotate 1)) := by
    rw [gather_eq_some, map_map, map_append, split, map_append, chunk, chunk, firstEnd, lastEnd]
    exact congrArg₂ _ (rolled_chunk seq (by omega)) (rolled_chunk seq (by omega))
  rw [takeIndices, picked]

variable [Zero α]

theorem bshdRow_ok (splits : Splits parallel maxSeqlen) (inside : cpRank < parallel.cpSize) (needRoll : Bool)
    {tokens : List α} (covers : tokens.length ≤ maxSeqlen) :
    bshdRow parallel cpRank needRoll maxSeqlen (if 1 < parallel.cpSize then maxSeqlen / parallel.cpSize else maxSeqlen)
        tokens =
      .ok (rankPart parallel cpRank maxSeqlen
          (rolledRow (needRoll && decide (1 < parallel.cpSize)) (pad tokens maxSeqlen)),
        rankPart parallel cpRank maxSeqlen (rowMask maxSeqlen tokens.length)) := by
  by_cases many : 1 < parallel.cpSize
  · obtain ⟨half, isHalf⟩ : ∃ half, maxSeqlen / (2 * parallel.cpSize) = half := ⟨_, rfl⟩
    obtain ⟨whole, share⟩ := splits.whole many
    rw [isHalf] at whole share
    have firstEnd : half * (cpRank + 1) = half * cpRank + half := Nat.mul_succ _ _
    have lastEnd : half * (2 * parallel.cpSize - 1 - cpRank + 1) = half * (2 * parallel.cpSize - 1 - cpRank) + half :=
      Nat.mul_succ _ _
    have padded : (if tokens.length < maxSeqlen then tokens ++ replicate (maxSeqlen - tokens.length) 0 else tokens) =
        pad tokens maxSeqlen := by
      split
      · rfl
      · exact (pad_exact (by omega)).symm
    have length := pad_length covers
    have masked := masks_split whole inside tokens.length
    have localSeq : localSequence needRoll (pad tokens maxSeqlen) maxSeqlen (half * cpRank)
        (half * (2 * parallel.cpSize - 1 - cpRank)) half =
          .ok (split parallel.cpSize half cpRank (rolledRow needRoll (pad tokens maxSeqlen))) := by
      cases needRoll with
      | true =>
        have rolled := takeIndices_rolled (length.trans whole) inside
        rw [length] at rolled
        exact rolled
      | false =>
        simp only [localSequence, ← firstEnd, ← lastEnd]
        rfl
    have stored : setSlice (replicate (2 * half) 0) 0 (2 * half)
        (split parallel.cpSize half cpRank (rolledRow needRoll (pad tokens maxSeqlen))) =
          .ok (split parallel.cpSize half cpRank (rolledRow needRoll (pad tokens maxSeqlen))) := by
      refine setSlice_ok (assign_blank_all (split_length inside ?_))
      rw [rolledRow]
      split <;> simp [length, ← whole]
    have order : 2 * parallel.cpSize - cpRank - 1 = 2 * parallel.cpSize - 1 - cpRank := Nat.sub_right_comm ..
    simp only [bshdRow, many, show ¬ parallel.cpSize ≤ 1 by omega, ite_false, ite_true, share, isHalf, padded, order,
      Nat.mul_comm cpRank, Nat.mul_comm _ half, localSeq, ok_bind, decide_true, Bool.and_true]
    have front := fill_nonempty (replicate (2 * half) false) 0 (min (tokens.length - half * cpRank) half) true
    rw [Nat.zero_add] at front masked
    rw [Nat.mul_comm half 2, stored, front, fill_nonempty, masked, ok_bind, rankPart, if_pos many, isHalf,
      rankPart, if_pos many, isHalf]
    rfl
  · have written := assign_blank [] tokens covers (Nat.le_refl maxSeqlen)
    rw [Nat.sub_self, replicate_zero, append_nil, nil_append, nil_append, length_nil,
      Nat.zero_add] at written
    have masked : fill (replicate maxSeqlen false) 0 tokens.length true = rowMask maxSeqlen tokens.length := by
      apply ext_getElem?
      intro index
      rw [fill_getElem? _ _ (Nat.zero_le _), rowMask, getElem?_map, length_replicate, getElem?_replicate]
      by_cases within : index < maxSeqlen
      · rw [getElem?_range within, Option.map_some, if_pos within]
        by_cases token : index < tokens.length
        · rw [if_pos (by omega), decide_eq_true token]
        · rw [if_neg (by omega), decide_eq_false token]
      · rw [getElem?_eq_none (by simpa using within), if_neg (by omega), if_neg within, Option.map_none]
    simp only [bshdRow, many, Nat.not_lt.mp many, ite_true, ite_false, setSlice_ok written, ok_bind, masked,
      rankPart, rolledRow, decide_false, Bool.and_false, Bool.false_eq_true]
    rfl

end Rows

/-! ### The batch -/

section Batch
variable {α : Type} [Zero α] {parallel : Parallel} {cpRank maxSeqlen : Nat} {inputIds : List (List α)}

/-- The whole padded batch, which is split over the ranks. -/
def paddedBatch (needRoll : Bool) (maxSeqlen : Nat) (inputIds : List (List α)) : Bshd α where
  inputIds := inputIds.map (fun tokens => rolledRow needRoll (pad tokens maxSeqlen))
  attentionMask := inputIds.map (fun tokens => rowMask maxSeqlen tokens.length)
  positionIds := inputIds.map (fun _ => List.range maxSeqlen)

def Bshd.part (parallel : Parallel) (cpRank maxSeqlen : Nat) (whole : Bshd α) : Bshd α where
  inputIds := whole.inputIds.map (rankPart parallel cpRank maxSeqlen)
  attentionMask := whole.attentionMask.map (rankPart parallel cpRank maxSeqlen)
  positionIds := whole.positionIds.map (rankPart parallel cpRank maxSeqlen)

private theorem positions_part (splits : Splits parallel maxSeqlen) (inside : cpRank < parallel.cpSize) :
    (if parallel.cpSize ≤ 1 then range (if 1 < parallel.cpSize then maxSeqlen / parallel.cpSize else maxSeqlen)
      else range' (cpRank * (maxSeqlen / (2 * parallel.cpSize))) (maxSeqlen / (2 * parallel.cpSize)) ++
        range' (maxSeqlen - (cpRank + 1) * (maxSeqlen / (2 * parallel.cpSize)))
          (maxSeqlen / (2 * parallel.cpSize))) = rankPart parallel cpRank maxSeqlen (range maxSeqlen) := by
  have chunkRange : ∀ start size, start + size ≤ maxSeqlen →
      slice (range maxSeqlen) start (start + size) = range' start size := by
    intro start size bound
    apply ext_getElem?
    intro index
    rw [slice_getElem?]
    by_cases within : index < size
    · rw [if_pos (by omega), getElem?_range (by omega), getElem?_range' within, Nat.one_mul]
    · rw [if_neg (by omega), getElem?_eq_none (by rw [length_range']; omega)]
  by_cases many : 1 < parallel.cpSize
  · obtain ⟨half, isHalf⟩ : ∃ half, maxSeqlen / (2 * parallel.cpSize) = half := ⟨_, rfl⟩
    have whole := (splits.whole many).1
    rw [isHalf] at whole
    obtain ⟨mirror, mirrorEnd, front, double⟩ := mirror_bound half inside
    rw [← whole] at mirror mirrorEnd double
    have firstEnd : half * (cpRank + 1) = half * cpRank + half := Nat.mul_succ _ _
    have lastEnd : half * (2 * parallel.cpSize - 1 - cpRank + 1) = half * (2 * parallel.cpSize - 1 - cpRank) + half :=
      Nat.mul_succ _ _
    rw [if_neg (by omega), rankPart, if_pos many, isHalf, Nat.mul_comm cpRank, Nat.mul_comm (cpRank + 1), ← mirror, split,
      chunk, chunk, firstEnd, lastEnd, chunkRange _ _ (by omega), chunkRange _ _ (by omega)]
  · rw [if_pos (by omega), if_neg many, rankPart, if_neg many]

theorem bshd_ok (splits : Splits parallel maxSeqlen) (inside : cpRank < parallel.cpSize) (needRoll : Bool)
    (covers : ∀ tokens ∈ inputIds, tokens.length ≤ maxSeqlen) : bshd parallel cpRank needRoll maxSeqlen inputIds =
      .ok ((paddedBatch needRoll maxSeqlen inputIds).part parallel cpRank maxSeqlen) := by
  have rows := mapM_map _ (fun tokens member => bshdRow_ok splits inside needRoll (covers tokens member))
  have width : (rankPart parallel cpRank maxSeqlen (range maxSeqlen)).length = _ :=
    rankPart_length splits inside length_range
  simp only [bshd, rows, ok_bind, positions_part splits inside, width, ne_eq, not_true_eq_false, ite_false,
    map_map, length_map]
  by_cases many : 1 < parallel.cpSize
  · have several : ¬ parallel.cpSize ≤ 1 := by omega
    simp only [many, several, decide_true, decide_false, Bool.and_true, Bool.and_false, Bool.false_eq_true, ite_false,
      Bshd.part, paddedBatch, map_map, map_const', map_replicate]
    rfl
  · have single : parallel.cpSize ≤ 1 := Nat.not_lt.mp many
    have whole : ∀ γ : Type, (rankPart parallel cpRank maxSeqlen : List γ → List γ) = id := by
      intro γ
      funext row
      rw [rankPart, if_neg many]
      rfl
    cases needRoll with
    | true =>
      simp only [many, single, decide_true, decide_false, Bool.and_true, Bool.and_false, ite_true, Bshd.part,
        paddedBatch, map_map, map_const', map_replicate, whole, id_eq, Function.id_comp]
      rfl
    | false =>
      simp only [many, single, decide_true, decide_false, Bool.and_true, Bool.false_eq_true, ite_false, Bshd.part,
        paddedBatch, map_map, map_const', map_replicate, whole, id_eq, Function.id_comp]
      rfl

/-- One row put back in the order of its positions. -/
def putBack {γ : Type} (parallel : Parallel) (maxSeqlen : Nat) (parts : Nat → List γ) : List γ :=
  if 1 < parallel.cpSize then join parallel.cpSize (maxSeqlen / (2 * parallel.cpSize)) parts else parts 0

def putBackRows {γ : Type} (parallel : Parallel) (maxSeqlen batchSize : Nat) (parts : Nat → List (List γ)) :
    List (List γ) :=
  (List.range batchSize).map (fun i => putBack parallel maxSeqlen (fun rank => (parts rank).getD i []))

theorem putBackRows_part {γ : Type} (splits : Splits parallel maxSeqlen) {rows : List (List γ)}
    (lengths : ∀ row ∈ rows, row.length = maxSeqlen) {parts : Nat → List (List γ)}
    (held : ∀ rank < parallel.cpSize, parts rank = rows.map (rankPart parallel rank maxSeqlen)) :
    putBackRows parallel maxSeqlen rows.length parts = rows := by
  apply ext_getElem (by simp [putBackRows])
  intro i first inside
  have row : ∀ rank < parallel.cpSize, (parts rank).getD i [] = rankPart parallel rank maxSeqlen rows[i] := by
    intro rank below
    rw [held rank below, getD_eq_getElem?_getD, getElem?_map, getElem?_eq_getElem inside]
    rfl
  have length := lengths rows[i] (getElem_mem inside)
  simp only [putBackRows, getElem_map, getElem_range, putBack]
  by_cases many : 1 < parallel.cpSize
  · rw [if_pos many]
    apply join_split (length.trans (splits.whole many).1)
    intro rank below
    rw [row rank below, rankPart, if_pos many]
  · rw [if_neg many, row 0 parallel.cpPositive, rankPart, if_neg many]

end Batch

/-! ### Selecting by the masks -/

section Unpad
variable {β : Type} {parallel : Parallel} {maxSeqlen : Nat}

theorem selectMasked_row (values : Nat → β) {seqlen : Nat} (covers : seqlen ≤ maxSeqlen) :
    selectMasked ((range maxSeqlen).map values) (rowMask maxSeqlen seqlen) = .ok ((range seqlen).map values) := by
  obtain ⟨padding, rfl⟩ := Nat.exists_eq_add_of_le covers
  have selected : ∀ positions : List Nat, ((positions.map values).zip
      (positions.map (fun position => decide (position < seqlen)))).filterMap
        (fun entry => if entry.2 then some entry.1 else none) =
      (positions.filter (fun position => decide (position < seqlen))).map values := by
    intro positions
    induction positions with
    | nil => rfl
    | cons position positions ih =>
      by_cases token : position < seqlen <;> simp [token, ih]
  have front : (range (seqlen + padding)).filter (fun position => decide (position < seqlen)) =
      range seqlen := by
    rw [range_add, filter_append, filter_eq_self.mpr (by simp),
      filter_eq_nil_iff.mpr (by simp), append_nil]
  rw [selectMasked, if_pos (by simp [rowMask]), rowMask, selected, front]

theorem rankPart_map {γ δ : Type} (f : γ → δ) (cpRank : Nat) (row : List γ) :
    rankPart parallel cpRank maxSeqlen (row.map f) = (rankPart parallel cpRank maxSeqlen row).map f := by
  rw [rankPart, rankPart, split_map]
  split <;> rfl

structure RowHeld {localSeqlen maskSeqlen : Nat} (parallel : Parallel) (maxSeqlen i : Nat)
    (outputList : Nat → List (Vector β localSeqlen)) (maskList : Nat → List (Vector Bool maskSeqlen)) (items : List β)
    (mask : List Bool) : Prop where
  width : localSeqlen = if 1 < parallel.cpSize then maxSeqlen / parallel.cpSize else maxSeqlen
  output : ∀ rank < parallel.cpSize, getRow (outputList rank) i = .ok (rankPart parallel rank maxSeqlen items)
  mask : ∀ rank < parallel.cpSize, getRow (maskList rank) i = .ok (rankPart parallel rank maxSeqlen mask)

theorem unpadRow_ok {localSeqlen maskSeqlen i cpRank : Nat} {outputList : Nat → List (Vector β localSeqlen)}
    {maskList : Nat → List (Vector Bool maskSeqlen)} {items : List β} {mask : List Bool}
    (splits : Splits parallel maxSeqlen) (inside : cpRank < parallel.cpSize) (empty : Nat → β)
    (held : RowHeld parallel maxSeqlen i outputList maskList items mask)
    (length : items.length = maxSeqlen) (maskLength : mask.length = maxSeqlen) :
    unpadRow outputList maskList parallel.cpSize cpRank empty i = selectMasked items mask := by
  by_cases many : 1 < parallel.cpSize
  · obtain ⟨half, isHalf⟩ : ∃ half, maxSeqlen / (2 * parallel.cpSize) = half := ⟨_, rfl⟩
    obtain ⟨whole, share⟩ := splits.whole many
    have width := held.width
    rw [if_pos many] at width
    rw [isHalf] at whole share
    have full : localSeqlen * parallel.cpSize = maxSeqlen := by
      rw [width, share, whole]
      ring
    have parts : ∀ rank < parallel.cpSize, ∀ (γ : Type) (row : List γ), row.length = maxSeqlen →
        (rankPart parallel rank maxSeqlen row).take half = chunk half rank row ∧
        (rankPart parallel rank maxSeqlen row).drop half = chunk half (2 * parallel.cpSize - 1 - rank) row := by
      intro rank below γ row rowLength
      rw [rankPart, if_pos many, isHalf]
      exact ⟨split_take below (rowLength.trans whole), split_drop below (rowLength.trans whole)⟩
    -- both buffers are assembled side by side
    have loop : ∃ final, (range parallel.cpSize).foldlM
        (placeRank outputList maskList half maxSeqlen i)
          ⟨(range maxSeqlen).map empty, replicate maxSeqlen false⟩ = .ok final ∧
        Assembled half items parallel.cpSize final.tmp ∧ Assembled half mask parallel.cpSize final.fullMask := by
      apply foldlM_range
        (fun done (state : Unpadded β) => Assembled half items done state.tmp ∧ Assembled half mask done state.fullMask)
      · intro rank below state assembled
        obtain ⟨middle, next, first, second, rows⟩ := assembled.1.step below (length.trans whole)
        obtain ⟨middle', next', first', second', flags⟩ := assembled.2.step below (maskLength.trans whole)
        rw [length] at second
        rw [maskLength] at second'
        refine ⟨⟨next, next'⟩, ?_, rows, flags⟩
        obtain ⟨front, back⟩ := parts rank below β items length
        obtain ⟨front', back'⟩ := parts rank below Bool mask maskLength
        simp only [placeRank, held.output rank below, held.mask rank below, ok_bind, front, back, front', back',
          Nat.mul_comm rank, Nat.mul_comm (rank + 1), setSlice_ok first, setSlice_ok second, setSlice_ok first',
          setSlice_ok second']
        rfl
      · exact ⟨.start (by simp [length]), .start (by simp [maskLength])⟩
    obtain ⟨final, ran, rows, flags⟩ := loop
    have even : localSeqlen % 2 = 0 := by omega
    have halved : localSeqlen / 2 = half := by omega
    simp only [unpadRow, show ¬ parallel.cpSize ≤ 1 by omega, ite_false, even, ne_eq, not_true_eq_false, full, halved, ran,
      ok_bind, rows.complete (length.trans whole), flags.complete (maskLength.trans whole)]
  · simp only [unpadRow, Nat.not_lt.mp many, ite_true, held.output cpRank inside, held.mask cpRank inside,
      ok_bind, rankPart, many, ite_false]

end Unpad

/-! ### The engine -/

section Engine
variable {α : Type} [Zero α] {parallel : Parallel} {useFp8Padding : Bool} {inputIds : List (List α)}

/-- What the ranks return for a batch whose sequences are padded to `maxSeqlen`. -/
structure BshdSound (parallel : Parallel) (useFp8Padding needRoll : Bool) (inputIds : List (List α)) (maxSeqlen : Nat)
    (ranks : Nat → Bshd α) : Prop where
  returned : ∀ cpRank < parallel.cpSize,
    preprocessBshdEngine parallel cpRank needRoll useFp8Padding inputIds = .ok (ranks cpRank)
  single : bshd ⟨parallel.tpSize, 1, parallel.tpPositive, Nat.one_pos⟩ 0 needRoll maxSeqlen inputIds =
    .ok (paddedBatch needRoll maxSeqlen inputIds)
  tokensBack : putBackRows parallel maxSeqlen inputIds.length (fun rank => (ranks rank).inputIds) =
    (paddedBatch needRoll maxSeqlen inputIds).inputIds
  masksBack : putBackRows parallel maxSeqlen inputIds.length (fun rank => (ranks rank).attentionMask) =
    (paddedBatch needRoll maxSeqlen inputIds).attentionMask
  positionsBack : putBackRows parallel maxSeqlen inputIds.length (fun rank => (ranks rank).positionIds) =
    (paddedBatch needRoll maxSeqlen inputIds).positionIds
  postprocess : ∀ (β : Type) (values : Nat → Nat → β) (empty : Nat → β) (localSeqlen maskSeqlen : Nat)
    (outputList : Nat → List (Vector β localSeqlen)) (maskList : Nat → List (Vector Bool maskSeqlen)),
    (∀ rank < parallel.cpSize, (outputList rank).map Vector.toList =
      (ranks rank).positionIds.zipIdx.map (fun row => row.1.map (values row.2))) →
    (∀ rank < parallel.cpSize, (maskList rank).map Vector.toList = (ranks rank).attentionMask) →
    ∀ cpRank < parallel.cpSize, postprocessBshdEngine outputList maskList parallel cpRank empty =
      .ok (inputIds.zipIdx.map (fun sequence => (List.range sequence.1.length).map (values sequence.2)))

private theorem part_rows {maxSeqlen rank : Nat} (needRoll : Bool) :
    ((paddedBatch needRoll maxSeqlen inputIds).part parallel rank maxSeqlen).inputIds =
        (inputIds.map (fun tokens => rolledRow needRoll (pad tokens maxSeqlen))).map (rankPart parallel rank maxSeqlen) ∧
      ((paddedBatch needRoll maxSeqlen inputIds).part parallel rank maxSeqlen).attentionMask =
        (inputIds.map (fun tokens => rowMask maxSeqlen tokens.length)).map (rankPart parallel rank maxSeqlen) ∧
      ((paddedBatch needRoll maxSeqlen inputIds).part parallel rank maxSeqlen).positionIds =
        (inputIds.map (fun _ => range maxSeqlen)).map (rankPart parallel rank maxSeqlen) := ⟨rfl, rfl, rfl⟩

omit [Zero α] in
private theorem getRow_of_map {γ : Type} {width i : Nat} {rows : List (Vector γ width)} {lists : List (List γ)}
    (same : rows.map Vector.toList = lists) {list : List γ} (named : lists[i]? = some list) :
    getRow rows i = .ok list ∧ list.length = width := by
  subst same
  rw [getElem?_map, Option.map_eq_some_iff] at named
  obtain ⟨row, isRow, rfl⟩ := named
  simp [getRow, isRow]

theorem postprocessBshdEngine_ok {β : Type} {maxSeqlen localSeqlen maskSeqlen cpRank : Nat}
    (splits : Splits parallel maxSeqlen) (covers : ∀ tokens ∈ inputIds, tokens.length ≤ maxSeqlen)
    (some : inputIds ≠ []) (needRoll : Bool) (values : Nat → Nat → β) (empty : Nat → β)
    {outputList : Nat → List (Vector β localSeqlen)} {maskList : Nat → List (Vector Bool maskSeqlen)}
    (outputs : ∀ rank < parallel.cpSize, (outputList rank).map Vector.toList =
      ((paddedBatch needRoll maxSeqlen inputIds).part parallel rank maxSeqlen).positionIds.zipIdx.map
        (fun row => row.1.map (values row.2))) (masks : ∀ rank < parallel.cpSize, (maskList rank).map Vector.toList =
      ((paddedBatch needRoll maxSeqlen inputIds).part parallel rank maxSeqlen).attentionMask)
    (inside : cpRank < parallel.cpSize) : postprocessBshdEngine outputList maskList parallel cpRank empty =
      .ok (inputIds.zipIdx.map (fun sequence => (range sequence.1.length).map (values sequence.2))) := by
  have outputRow : ∀ rank < parallel.cpSize, ∀ i < inputIds.length,
      getRow (outputList rank) i = .ok (rankPart parallel rank maxSeqlen ((range maxSeqlen).map (values i))) ∧
        (rankPart parallel rank maxSeqlen ((range maxSeqlen).map (values i))).length = localSeqlen := by
    intro rank below i bound
    apply getRow_of_map (outputs rank below)
    rw [(part_rows needRoll).2.2, getElem?_map, getElem?_zipIdx, getElem?_map, getElem?_map,
      getElem?_eq_getElem bound]
    simp [rankPart_map]
  have maskRow : ∀ rank < parallel.cpSize, ∀ i tokens, inputIds[i]? = Option.some tokens →
      getRow (maskList rank) i = .ok (rankPart parallel rank maxSeqlen (rowMask maxSeqlen tokens.length)) ∧
        (rankPart parallel rank maxSeqlen (rowMask maxSeqlen tokens.length)).length = maskSeqlen := by
    intro rank below i tokens named
    apply getRow_of_map (masks rank below)
    rw [(part_rows needRoll).2.1, getElem?_map, getElem?_map, named]
    rfl
  have batch : (outputList cpRank).length = inputIds.length ∧ (maskList cpRank).length = inputIds.length := by
    have first := congrArg length (outputs cpRank inside)
    have second := congrArg length (masks cpRank inside)
    simpa [part_rows needRoll] using And.intro first second
  -- there is a row, so both widths are the local length
  have positive : 0 < inputIds.length := length_pos_iff.mpr some
  have width := (outputRow cpRank inside 0 positive).2
  have maskWidth := (maskRow cpRank inside 0 _ (getElem?_eq_getElem positive)).2
  rw [rankPart_length splits inside (by simp)] at width
  rw [rankPart_length splits inside (by simp [rowMask])] at maskWidth
  have each : ∀ i ∈ range inputIds.length,
      unpadRow outputList maskList parallel.cpSize cpRank empty i =
        .ok ((range (inputIds.getD i []).length).map (values i)) := by
    intro i member
    have bound := mem_range.mp member
    have named : inputIds[i]? = Option.some inputIds[i] := getElem?_eq_getElem bound
    have held : RowHeld parallel maxSeqlen i outputList maskList ((range maxSeqlen).map (values i))
        (rowMask maxSeqlen inputIds[i].length) :=
      ⟨width.symm, fun rank below => (outputRow rank below i bound).1, fun rank below => (maskRow rank below i _ named).1⟩
    rw [unpadRow_ok splits inside empty held (by simp) (by simp [rowMask]), selectMasked_row _ (covers _ (getElem_mem bound)), getD_eq_getElem?_getD, named]
    rfl
  have same : localSeqlen = maskSeqlen := width.symm.trans maskWidth
  rw [postprocessBshdEngine, batch.1, batch.2, if_neg (by simp [same]), mapM_map _ each]
  congr 1
  apply ext_getElem (by simp)
  intro i first second
  have bound : i < inputIds.length := by simpa using first
  simp [bound]

/-- For every batch with a sequence, whatever its lengths. -/
theorem bshd_engine_sound (parallel : Parallel) (useFp8Padding : Bool) (inputIds : List (List α)) (some : inputIds ≠ []) :
    ∃ longest maxSeqlen, (inputIds.map List.length).max? = Option.some longest ∧
      BshdLength parallel useFp8Padding inputIds.length longest maxSeqlen ∧
      ∀ needRoll, ∃ ranks, BshdSound parallel useFp8Padding needRoll inputIds maxSeqlen ranks := by
  obtain ⟨longest, isMax⟩ := Option.ne_none_iff_exists'.mp
    (mt List.max?_eq_none_iff.mp (show inputIds.map List.length ≠ [] by simpa using some))
  have length := bshdSeqlen_spec parallel useFp8Padding (List.length_pos_iff.mpr some) longest
  generalize isPadded : bshdSeqlen parallel useFp8Padding inputIds.length longest = maxSeqlen at length
  have covers : ∀ tokens ∈ inputIds, tokens.length ≤ maxSeqlen := by
    intro tokens member
    exact ((List.max?_eq_some_iff.mp isMax).2 _ (List.mem_map_of_mem member)).trans length.covers
  have splits : Splits parallel maxSeqlen := fun many => (Nat.dvd_mul_right _ _).trans (length.contextParallel many)
  have alone : Splits ⟨parallel.tpSize, 1, parallel.tpPositive, Nat.one_pos⟩ maxSeqlen :=
    fun many => absurd many (Nat.lt_irrefl 1)
  have back : ∀ (γ : Type) (row : List α → List γ), (∀ tokens ∈ inputIds, (row tokens).length = maxSeqlen) →
      putBackRows parallel maxSeqlen inputIds.length
        (fun rank => (inputIds.map row).map (rankPart parallel rank maxSeqlen)) = inputIds.map row := by
    intro γ row lengths
    have each : ∀ other ∈ inputIds.map row, other.length = maxSeqlen := by
      intro other member
      obtain ⟨tokens, sequence, rfl⟩ := List.mem_map.mp member
      exact lengths tokens sequence
    have put : putBackRows parallel maxSeqlen (inputIds.map row).length
        (fun rank => (inputIds.map row).map (rankPart parallel rank maxSeqlen)) = inputIds.map row :=
      putBackRows_part splits each (fun _ _ => rfl)
    rwa [List.length_map] at put
  refine ⟨longest, maxSeqlen, isMax, length, ?_⟩
  intro needRoll
  refine ⟨fun rank => (paddedBatch needRoll maxSeqlen inputIds).part parallel rank maxSeqlen, ?_, ?_, ?_, ?_, ?_, ?_⟩
  · intro cpRank inside
    rw [preprocessBshdEngine, isMax]
    simp only [isPadded]
    exact bshd_ok splits inside needRoll covers
  · rw [bshd_ok alone Nat.one_pos needRoll covers]
    have whole : ∀ γ : Type, (rankPart ⟨parallel.tpSize, 1, parallel.tpPositive, Nat.one_pos⟩ 0 maxSeqlen :
        List γ → List γ) = id := fun γ => rfl
    simp [Bshd.part, whole]
  · refine back α _ (fun tokens member => ?_)
    rw [rolledRow]
    split <;> simp [pad_length (covers tokens member)]
  · exact back Bool _ (fun _ _ => by simp [rowMask])
  · exact back Nat _ (fun _ _ => by simp)
  · intro β values empty localSeqlen maskSeqlen outputList maskList outputs masks cpRank inside
    exact postprocessBshdEngine_ok splits covers some needRoll values empty outputs masks inside

theorem bshd_engine_sound_two : ∃ longest maxSeqlen,
    (([[10, 11, 12], [20]] : List (List Nat)).map List.length).max? = some longest ∧
      BshdLength ⟨1, 2, by decide, by decide⟩ true 2 longest maxSeqlen ∧
      ∀ needRoll, ∃ ranks, BshdSound ⟨1, 2, by decide, by decide⟩ true needRoll [[10, 11, 12], [20]] maxSeqlen ranks :=
  bshd_engine_sound ⟨1, 2, by decide, by decide⟩ true [[10, 11, 12], [20]] (by decide)

end Engine

end LLMFusion.Mcore
