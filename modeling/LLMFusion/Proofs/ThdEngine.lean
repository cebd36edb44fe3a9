import LLMFusion.Proofs.PackedLayout
import LLMFusion.ThdEngine

/-! Packing nested sequences without a clipped first chunk. The slices match as long
as half of each padded length stays within the aligned tokens, which only the extra
padding of the last sequence can break. -/

namespace LLMFusion.Mcore
open Slices ZigZag Fallible List

section Write
variable {α : Type} [Zero α] {parallel : Parallel} {alignSize cpRank : Nat}

theorem alignTokens_eq (alignSize : Nat) (tokens : List α) : alignTokens alignSize tokens = pad tokens alignSize := by
  rw [alignTokens, pad]
  split
  · rfl
  next enough => simp [Nat.sub_eq_zero_of_le (Nat.not_lt.mp enough)]

theorem alignTokens_length (alignSize : Nat) (tokens : List α) :
    (alignTokens alignSize tokens).length = max tokens.length alignSize := by
  rw [alignTokens_eq, pad, length_append, length_replicate]
  omega

private theorem slice_alignTokens (tokens : List α) {padded start stop : Nat}
    (inside : stop ≤ max tokens.length alignSize) (inside' : stop ≤ padded) :
    slice (alignTokens alignSize tokens) start stop = slice (pad tokens padded) start stop := by
  rw [alignTokens_eq]
  apply ext_getElem?
  intro index
  rw [slice_getElem?, slice_getElem?, pad_getElem?, pad_getElem?]
  by_cases within : start + index < stop
  · by_cases token : start + index < tokens.length
    · simp [token]
    · simp [token, show start + index < alignSize by omega, show start + index < padded by omega]
  · simp [within]

private theorem slice_alignTokens_clip (alignSize : Nat) (tokens : List α) {padded stop : Nat} (start : Nat) (inside : stop ≤ padded) :
    pad (slice (alignTokens alignSize tokens) start (min stop (alignTokens alignSize tokens).length))
      (stop - start) = slice (pad tokens padded) start stop := by
  have length := alignTokens_length alignSize tokens
  rw [alignTokens_eq] at *
  apply ext_getElem?
  intro index
  rw [pad_getElem?, slice_getElem?, slice_getElem?, slice_length, length, pad_getElem?, pad_getElem?]
  generalize isLast : min stop (max tokens.length alignSize) = last
  generalize isSize : min last (max tokens.length alignSize) - start = size
  by_cases within : start + index < stop
  · by_cases clipped : start + index < max tokens.length alignSize
    · rw [if_pos (show index < size by omega), if_pos (show start + index < last by omega), if_pos within]
      by_cases token : start + index < tokens.length
      · rw [if_pos token, if_pos token]
      · rw [if_neg token, if_neg token, if_pos (by omega), if_pos (by omega)]
    · rw [if_neg (show ¬ index < size by omega), if_pos (by omega), if_pos within, if_neg (by omega), if_pos (by omega)]
  · rw [if_neg (show ¬ index < size by omega), if_neg (by omega), if_neg within]

def localPositions (parallel : Parallel) (cpRank : Nat) (row : List α × Nat) : List Nat :=
  if 1 < parallel.cpSize then
    let half := row.2 / parallel.cpSize / 2
    let remainStart := row.2 - half * (cpRank + 1)
    List.range' (half * cpRank) half ++
      pad (List.range' remainStart (min (row.2 - half * cpRank) row.1.length - remainStart)) half
  else pad (List.range row.1.length) row.2

def FirstChunk (parallel : Parallel) (alignSize cpRank : Nat) (row : List α × Nat) : Prop :=
  1 < parallel.cpSize → row.2 / parallel.cpSize / 2 * (cpRank + 1) ≤ max row.1.length alignSize

omit [Zero α] in
theorem localPositions_length {row : List α × Nat} (fits : Fits parallel row.1.length row.2)
    (inside : cpRank < parallel.cpSize) : (localPositions parallel cpRank row).length = row.2 / parallel.cpSize := by
  by_cases many : 1 < parallel.cpSize
  · obtain ⟨half, isHalf⟩ : ∃ half, row.2 / parallel.cpSize / 2 = half := ⟨_, rfl⟩
    have whole := fits.chunks many
    have twice := fits.half many
    rw [isHalf] at whole twice
    obtain ⟨mirror, mirrorEnd, front, double⟩ := mirror_bound half inside
    have ends : half * (cpRank + 1) = half * cpRank + half := Nat.mul_succ half cpRank
    simp only [localPositions, many, ite_true, isHalf, length_append, length_range']
    rw [pad_length (by rw [length_range']; omega)]
    omega
  · have one : parallel.cpSize = 1 := by omega
    have enough := fits.enough
    rw [localPositions, if_neg many, pad_length (by simpa using enough), one, Nat.div_one]

theorem writeThd_ok (inside : cpRank < parallel.cpSize) {row : List α × Nat}
    (fits : Fits parallel row.1.length row.2) (first : FirstChunk parallel alignSize cpRank row)
    (done : List α) {donePositions : List Nat} (same : donePositions.length = done.length) (blank : Nat)
    (savedRoll : List (Int × α)) (savedPositionRoll : List (Int × SavedPosition)) :
    writeThd parallel alignSize cpRank
        ⟨done ++ replicate (row.2 / parallel.cpSize + blank) 0,
          donePositions ++ replicate (row.2 / parallel.cpSize + blank) 0, savedRoll, savedPositionRoll⟩
        ⟨row.1, row.2, done.length * parallel.cpSize⟩ =
      .ok ⟨done ++ localPart parallel cpRank row ++ replicate blank 0,
        donePositions ++ localPositions parallel cpRank row ++ replicate blank 0,
        savedRoll, savedPositionRoll⟩ := by
  have enough := fits.enough
  by_cases many : 1 < parallel.cpSize
  · obtain ⟨half, isHalf⟩ : ∃ half, row.2 / parallel.cpSize / 2 = half := ⟨_, rfl⟩
    have start : done.length * parallel.cpSize / parallel.cpSize = done.length :=
      Nat.mul_div_cancel _ parallel.cpPositive
    have whole := fits.chunks many
    have twice := fits.half many
    have bound := first many
    rw [isHalf] at whole twice bound
    obtain ⟨mirror, mirrorEnd, front, double⟩ := mirror_bound half inside
    rw [← whole] at mirror mirrorEnd double
    have ends : half * (cpRank + 1) = half * cpRank + half := Nat.mul_succ half cpRank
    have length := alignTokens_length alignSize row.1
    -- the tokens
    have firstChunk : slice (alignTokens alignSize row.1) (half * cpRank) (half * (cpRank + 1)) =
        chunk half cpRank (pad row.1 row.2) := slice_alignTokens row.1 bound (by omega)
    have firstLength : (chunk half cpRank (pad row.1 row.2)).length = half :=
      chunk_length (by rw [pad_length enough]; omega)
    have written := assign_blank done (chunk half cpRank (pad row.1 row.2)) (Nat.le_of_eq firstLength)
      (show half ≤ row.2 / parallel.cpSize + blank by omega)
    rw [pad_exact firstLength, firstLength, ← firstChunk] at written
    have size : row.2 - half * cpRank - (row.2 - half * (cpRank + 1)) = half := by omega
    have secondChunk := slice_alignTokens_clip alignSize row.1 (row.2 - half * (cpRank + 1))
      (show row.2 - half * cpRank ≤ row.2 by omega)
    rw [size, show slice (pad row.1 row.2) (row.2 - half * (cpRank + 1)) (row.2 - half * cpRank) =
      chunk half (2 * parallel.cpSize - 1 - cpRank) (pad row.1 row.2) by rw [chunk, mirror, mirrorEnd]] at secondChunk
    have secondLength := slice_length (alignTokens alignSize row.1) (row.2 - half * (cpRank + 1))
      (min (row.2 - half * cpRank) (alignTokens alignSize row.1).length)
    rw [Nat.min_assoc, Nat.min_self] at secondLength
    have written' := setNonempty_ok (done ++ chunk half cpRank (pad row.1 row.2)) secondLength
      (show _ ≤ half by omega) (show half ≤ row.2 / parallel.cpSize + blank - half by omega)
    rw [length_append, firstLength, secondChunk, ← firstChunk] at written'
    -- the positions
    have positions := assign_blank donePositions (range' (half * cpRank) half)
      (Nat.le_of_eq length_range') (show half ≤ row.2 / parallel.cpSize + blank by omega)
    rw [pad_exact length_range', length_range', same] at positions
    have positions' := setNonempty_ok (donePositions ++ range' (half * cpRank) half)
      (show (range' (row.2 - half * (cpRank + 1))
        (min (row.2 - half * cpRank) row.1.length - (row.2 - half * (cpRank + 1)))).length = _ from
          length_range')
      (show _ ≤ half by omega) (show half ≤ row.2 / parallel.cpSize + blank - half by omega)
    rw [length_append, length_range', same] at positions'
    have left : row.2 / parallel.cpSize + blank - half - half = blank := by omega
    have valid : min (min (row.2 - half * cpRank) (alignTokens alignSize row.1).length) row.1.length =
        min (row.2 - half * cpRank) row.1.length := by omega
    rw [left] at written' positions'
    simp only [writeThd, show ¬ parallel.cpSize ≤ 1 by omega, ite_false, start, isHalf, setSlice_ok written,
      setSlice_ok positions, ok_bind, valid, written', positions']
    simp only [localPart, localPositions, many, ite_true, isHalf, split, firstChunk, append_assoc]
    rfl
  · have one : parallel.cpSize = 1 := by omega
    have room : row.2 ≤ row.2 / parallel.cpSize + blank := by
      rw [one, Nat.div_one]
      omega
    have written := assign_blank done row.1 enough room
    have positions := assign_blank donePositions (range row.1.length) (by simpa using enough) room
    rw [length_range, same] at positions
    have left : row.2 / parallel.cpSize + blank - row.2 = blank := by
      rw [one, Nat.div_one, Nat.add_sub_cancel_left]
    rw [left] at written positions
    simp only [writeThd, show parallel.cpSize ≤ 1 by omega, ite_true]
    rw [show done.length * parallel.cpSize = done.length by rw [one, Nat.mul_one], setSlice_ok written,
      setSlice_ok positions]
    simp only [localPart, localPositions, many, ite_false]
    rfl

theorem writeThd_error (many : 1 < parallel.cpSize) {row : List α × Nat}
    (fits : Fits parallel row.1.length row.2)
    (beyond : max row.1.length alignSize < row.2 / parallel.cpSize / 2 * (cpRank + 1))
    (done : List α) (rmpad : Rmpad α) (blank : Nat)
    (buffer : rmpad.inputIds = done ++ replicate (row.2 / parallel.cpSize + blank) 0) :
    ∃ target source, writeThd parallel alignSize cpRank rmpad ⟨row.1, row.2, done.length * parallel.cpSize⟩ =
      .error (.sliceLength target source) := by
  obtain ⟨half, isHalf⟩ : ∃ half, row.2 / parallel.cpSize / 2 = half := ⟨_, rfl⟩
  have start : done.length * parallel.cpSize / parallel.cpSize = done.length :=
    Nat.mul_div_cancel _ parallel.cpPositive
  have twice := fits.half many
  rw [isHalf] at twice beyond
  have ends : half * (cpRank + 1) = half * cpRank + half := Nat.mul_succ half cpRank
  have positive : 0 < half := by
    by_contra none
    obtain rfl : half = 0 := by omega
    rw [Nat.zero_mul] at beyond
    omega
  have length := alignTokens_length alignSize row.1
  have short := slice_length (alignTokens alignSize row.1) (half * cpRank) (half * (cpRank + 1))
  have refused : assign rmpad.inputIds done.length (done.length + half)
      (slice (alignTokens alignSize row.1) (half * cpRank) (half * (cpRank + 1))) = none := by
    apply assign_eq_none (Nat.le_add_right _ _)
    · rw [buffer, length_append, length_replicate]
      omega
    · rw [short]
      omega
  simp only [writeThd, show ¬ parallel.cpSize ≤ 1 by omega, ite_false, start, isHalf, setSlice, refused]
  exact ⟨_, _, rfl⟩

theorem saveRoll_yields (parallel : Parallel) (alignSize cpRank : Nat) (rmpad : Rmpad α) (entry : Entry α) :
    Yields (fun failure => failure = .indexError)
      (fun next => next.inputIds = rmpad.inputIds ∧ next.positionIds = rmpad.positionIds)
      (saveRoll parallel alignSize cpRank rmpad entry) := by
  have index : ∀ {β : Type} (items : List β) (place : Int),
      Yields (fun failure => failure = .indexError) (fun _ => True) (getIndex items place) := by
    intro β items place
    rw [getIndex]
    split
    · exact trivial
    · rfl
  simp only [saveRoll]
  refine (index _ _).bind (fun next _ => (index _ _).bind (fun position _ => ?_))
  split
  · split
    · exact (index _ _).bind (fun _ _ => ⟨rfl, rfl⟩)
    · exact (index _ _).bind (fun _ _ => (index _ _).bind (fun _ _ => ⟨rfl, rfl⟩))
  · exact ⟨rfl, rfl⟩

end Write

/-! ### The loop -/

section Loop
variable {α : Type} [Zero α] {parallel : Parallel} {alignSize cpRank : Nat}

def packedPositions (parallel : Parallel) (cpRank : Nat) (rows : List (List α × Nat)) : List Nat :=
  rows.flatMap (localPositions parallel cpRank)

omit [Zero α] in
theorem packedPositions_length [Zero α] {rows : List (List α × Nat)} (fits : FitsAll parallel rows)
    (inside : cpRank < parallel.cpSize) :
    (packedPositions parallel cpRank rows).length = (packed parallel cpRank rows).length := by
  rw [packedPositions, packed, length_flatMap, length_flatMap]
  congr 1
  apply map_congr_left
  intro row member
  rw [localPositions_length (fits row member) inside, localPart_length (fits row member) inside]

structure Written (parallel : Parallel) (cpRank : Nat) (done rest : List (List α × Nat)) (rmpad : Rmpad α) :
    Prop where
  inputIds : rmpad.inputIds =
    packed parallel cpRank done ++ List.replicate (paddedSum rest / parallel.cpSize) 0
  positionIds : rmpad.positionIds =
    packedPositions parallel cpRank done ++ List.replicate (paddedSum rest / parallel.cpSize) 0

theorem Written.start (parallel : Parallel) (cpRank : Nat) (rows : List (List α × Nat)) :
    Written parallel cpRank [] rows (Rmpad.blank (paddedSum rows / parallel.cpSize)) where
  inputIds := by simp [packed, Rmpad.blank]
  positionIds := by simp [packedPositions, Rmpad.blank]

theorem Written.write (inside : cpRank < parallel.cpSize) {done rest : List (List α × Nat)}
    {row : List α × Nat} {rmpad : Rmpad α} (fits : Fits parallel row.1.length row.2)
    (before : FitsAll parallel done) (first : FirstChunk parallel alignSize cpRank row)
    (written : Written parallel cpRank done (row :: rest) rmpad) :
    ∃ next, writeThd parallel alignSize cpRank rmpad ⟨row.1, row.2, paddedSum done⟩ = .ok next ∧
      Written parallel cpRank (done ++ [row]) rest next ∧ next.savedRoll = rmpad.savedRoll ∧
      next.savedPositionRoll = rmpad.savedPositionRoll := by
  obtain ⟨inputIds, positionIds, savedRoll, savedPositionRoll⟩ := rmpad
  obtain ⟨tokens, positions⟩ := written
  rw [paddedSum_cons_div fits] at tokens positions
  simp only at tokens positions
  subst tokens positions
  have next := writeThd_ok inside fits first (packed parallel cpRank done)
    (packedPositions_length before inside) (paddedSum rest / parallel.cpSize) savedRoll savedPositionRoll
  rw [(packed_length before inside).1] at next
  exact ⟨_, next, ⟨by simp [packed], by simp [packedPositions]⟩, rfl, rfl⟩

/-- As long as every first chunk of the rank stays within the aligned tokens, only the
roll can fail, for want of a token to save. -/
theorem thd_loop (needRoll : Bool) (inside : cpRank < parallel.cpSize) {rows rest : List (List α × Nat)}
    (fits : FitsAll parallel rows) (first : ∀ row ∈ rows, FirstChunk parallel alignSize cpRank row)
    {rmpad : Rmpad α} (start : Written parallel cpRank [] (rows ++ rest) rmpad) :
    Yields (fun failure => needRoll = true ∧ failure = .indexError) (Written parallel cpRank rows rest)
      ((entriesFrom 0 rows).foldlM (packThdSequence parallel alignSize needRoll cpRank) rmpad) := by
  have none : FitsAll parallel ([] : List (List α × Nat)) := by simp [FitsAll]
  have loop : Yields (fun failure => needRoll = true ∧ failure = .indexError)
      (fun rmpad => (∀ row ∈ [], FirstChunk parallel alignSize cpRank row) ∧
        Written parallel cpRank ([] ++ rows) ([] ++ rest) rmpad)
      ((entriesFrom (paddedSum ([] : List (List α × Nat))) rows).foldlM
        (packThdSequence parallel alignSize needRoll cpRank) rmpad) := packing_loop
    (fun done coming rmpad => (∀ row ∈ coming, FirstChunk parallel alignSize cpRank row) ∧
      Written parallel cpRank done (coming ++ rest) rmpad)
    (by
      intro done row coming rmpad fitsRow before ⟨chunks, written⟩
      obtain ⟨next, wrote, written, _, _⟩ := written.write inside fitsRow before (chunks row mem_cons_self)
      have later : ∀ other ∈ coming, FirstChunk parallel alignSize cpRank other :=
        fun other member => chunks other (mem_cons_of_mem _ member)
      simp only [packThdSequence, wrote, ok_bind]
      cases needRoll with
      | false => exact ⟨later, written⟩
      | true =>
        by_cases many : 1 < parallel.cpSize
        · simp only [many, decide_true, Bool.and_true, ite_true]
          have saved := saveRoll_yields parallel alignSize cpRank next ⟨row.1, row.2, paddedSum done⟩
          cases result : saveRoll parallel alignSize cpRank next ⟨row.1, row.2, paddedSum done⟩ with
          | error failure =>
            rw [result] at saved
            exact ⟨trivial, saved⟩
          | ok last =>
            rw [result] at saved
            exact ⟨later, saved.1.trans written.inputIds, saved.2.trans written.positionIds⟩
        · simp only [many, decide_false, Bool.and_false, Bool.false_eq_true, ite_false]
          exact ⟨later, written⟩)
    none fits ⟨first, start⟩
  exact loop.imp (fun _ => id) (fun _ both => both.2)

end Loop

/-! ### Which lengths match -/

section Lengths
variable {α : Type} {parallel : Parallel}

theorem padSize_le_double {alignSize : Nat} (positive : 0 < alignSize) (length : Nat) :
    length + padSize alignSize length ≤ 2 * max length alignSize := by
  have bound := padSize_lt positive length
  omega

theorem firstChunk_iff {alignSize : Nat} {row : List α × Nat} (fits : Fits parallel row.1.length row.2)
    (many : 1 < parallel.cpSize) : (∀ cpRank < parallel.cpSize, FirstChunk parallel alignSize cpRank row) ↔
      row.2 ≤ 2 * max row.1.length alignSize := by
  have whole := fits.chunks many
  generalize isHalf : row.2 / parallel.cpSize / 2 = half at whole
  have double : half * (2 * parallel.cpSize) = half * parallel.cpSize + half * parallel.cpSize := by ring
  constructor
  · intro first
    have last := first (parallel.cpSize - 1) (by omega) many
    rw [isHalf, Nat.sub_add_cancel parallel.cpPositive] at last
    omega
  · intro short cpRank inside _
    have before : half * (cpRank + 1) ≤ half * parallel.cpSize := Nat.mul_le_mul_left half inside
    rw [isHalf]
    omega

/-- The padded length of the last sequence is at most twice its aligned length. -/
def LastFits (parallel : Parallel) (useFp8Padding : Bool) (lengths : List Nat) : Prop :=
  ∀ last ∈ lengths.getLast?, last + padSize (perSeqAlign parallel useFp8Padding) last +
    padSizeLast parallel useFp8Padding lengths ≤ 2 * max last (perSeqAlign parallel useFp8Padding)

theorem firstChunks_fit {useFp8Padding : Bool} {inputIds : List (List α)}
    (fits : useFp8Padding = false ∨ parallel.cpSize ≤ 1 ∨
      LastFits parallel useFp8Padding (inputIds.map length)) {cpRank : Nat} (inside : cpRank < parallel.cpSize) :
    ∀ row ∈ paddedRows parallel useFp8Padding inputIds,
      FirstChunk parallel (perSeqAlign parallel useFp8Padding) cpRank row := by
  intro row member many
  have fitsRow := paddedRows_fits parallel useFp8Padding inputIds row member
  suffices short : row.2 ≤ 2 * max row.1.length (perSeqAlign parallel useFp8Padding) from
    (firstChunk_iff fitsRow many).mpr short cpRank inside many
  have align := perSeqAlign_pos parallel useFp8Padding
  rcases eq_nil_or_concat inputIds with rfl | ⟨front, last, rfl⟩
  · simp [paddedRows] at member
  · rw [concat_eq_append] at member fits
    rw [paddedRows_concat] at member
    rcases mem_append.mp member with early | final
    · obtain ⟨tokens, _, rfl⟩ := mem_map.mp early
      exact padSize_le_double align tokens.length
    · obtain rfl := mem_singleton.mp final
      rcases fits with plain | single | bounded
      · simp only [padSizeLast, plain, Bool.false_eq_true, ite_false, Nat.add_zero]
        exact padSize_le_double (plain ▸ align) last.length
      · omega
      · exact bounded last.length (by simp)

end Lengths

/-! ### The engine -/

section Engine
variable {α : Type} [Zero α] {parallel : Parallel} {useFp8Padding : Bool} {inputIds : List (List α)}

/-- No slice is assigned from a source of another length on any rank, with or without
a roll, and the outputs of the ranks are unpacked to those of the sequences. -/
structure ThdSound (parallel : Parallel) (useFp8Padding : Bool) (inputIds : List (List α)) : Prop where
  slices : ∀ cpRank < parallel.cpSize, ∀ needRoll target source,
    preprocessThdEngine parallel cpRank useFp8Padding needRoll inputIds ≠ .error (.sliceLength target source)
  roundTrip : ∃ (packedIds : Nat → List α) (params : PackedSeqParams) (positions : Nat → List Nat),
    (∀ cpRank < parallel.cpSize, preprocessThdEngine parallel cpRank useFp8Padding false inputIds =
      .ok (packedIds cpRank, params, positions cpRank)) ∧
    ∀ (β : Type) (f : α → β) (empty : Nat → β) (outputList : Nat → List β),
      (∀ cpRank < parallel.cpSize, outputList cpRank = (packedIds cpRank).map f) →
      postprocessThdEngine parallel outputList empty params inputIds = .ok (inputIds.map (List.map f))

omit [Zero α] in
theorem thd_params (useFp8Padding : Bool) (some : inputIds ≠ []) :
    ∃ params, packedSeqParams parallel useFp8Padding (inputIds.map length) = .ok params ∧
      params.seqlensInBatchPadded = (paddedRows parallel useFp8Padding inputIds).map Prod.snd ∧
      params.cuSeqlensPadded = cumsum 0 params.seqlensInBatchPadded := by
  obtain ⟨params, returned, padded, offsets⟩ : ∃ params, packedSeqParams parallel useFp8Padding
      (inputIds.map length) = .ok params ∧ _ := packedSeqParams_ok (by simpa using some)
  exact ⟨params, returned, padded.trans (paddedRows_snd ..).symm, offsets⟩

theorem preprocessThdEngine_eq {params : PackedSeqParams} (cpRank : Nat) (needRoll : Bool)
    (returned : packedSeqParams parallel useFp8Padding (inputIds.map length) = .ok params)
    (padded : params.seqlensInBatchPadded = (paddedRows parallel useFp8Padding inputIds).map Prod.snd)
    (offsets : params.cuSeqlensPadded = cumsum 0 params.seqlensInBatchPadded) :
    preprocessThdEngine parallel cpRank useFp8Padding needRoll inputIds = (do
      let rmpad ← (entriesFrom 0 (paddedRows parallel useFp8Padding inputIds)).foldlM
        (packThdSequence parallel (perSeqAlign parallel useFp8Padding) needRoll cpRank)
        (Rmpad.blank (paddedSum (paddedRows parallel useFp8Padding inputIds) / parallel.cpSize))
      if needRoll then
        let rolled ← rollSaved rmpad.inputIds rmpad.savedRoll
        let positions ← rollSaved rmpad.positionIds
          (rmpad.savedPositionRoll.map (fun entry => (entry.1, entry.2.value rmpad.positionIds)))
        return (rolled, params, positions)
      else return (rmpad.inputIds, params, rmpad.positionIds)) := by
  have entries := entries_eq padded offsets
  rw [paddedRows_fst] at entries
  simp only [preprocessThdEngine, returned, ok_bind, entries, padded, paddedSum]

omit [Zero α] in
private theorem rollSaved_yields (items : List α) (saved : List (Int × α)) :
    Yields (fun failure => failure = .indexError) (fun _ => True) (rollSaved items saved) := by
  rw [rollSaved]
  split
  · trivial
  · rfl

theorem preprocessThdEngine_ok {params : PackedSeqParams} {cpRank : Nat} (inside : cpRank < parallel.cpSize)
    (fits : useFp8Padding = false ∨ parallel.cpSize ≤ 1 ∨ LastFits parallel useFp8Padding (inputIds.map length))
    (returned : packedSeqParams parallel useFp8Padding (inputIds.map length) = .ok params)
    (padded : params.seqlensInBatchPadded = (paddedRows parallel useFp8Padding inputIds).map Prod.snd)
    (offsets : params.cuSeqlensPadded = cumsum 0 params.seqlensInBatchPadded) :
    preprocessThdEngine parallel cpRank useFp8Padding false inputIds =
      .ok (packed parallel cpRank (paddedRows parallel useFp8Padding inputIds), params,
        packedPositions parallel cpRank (paddedRows parallel useFp8Padding inputIds)) := by
  have start := Written.start parallel cpRank (paddedRows parallel useFp8Padding inputIds ++ [])
  have loop := thd_loop false inside (paddedRows_fits parallel useFp8Padding inputIds) (firstChunks_fit fits inside) start
  rw [append_nil] at loop
  obtain ⟨rmpad, ran, written⟩ := yields_ok.mp (loop.imp (fun _ both => by simp at both) (fun _ => id))
  rw [preprocessThdEngine_eq cpRank false returned padded offsets]
  simp only [ran, ok_bind, Bool.false_eq_true, ite_false, written.inputIds, written.positionIds]
  simp [paddedSum]
  rfl

theorem thdSound_of_fits (some : inputIds ≠ []) (fits : useFp8Padding = false ∨ parallel.cpSize ≤ 1 ∨
    LastFits parallel useFp8Padding (inputIds.map length)) : ThdSound parallel useFp8Padding inputIds := by
  obtain ⟨params, returned, padded, offsets⟩ := thd_params useFp8Padding some
  have rowsFit := paddedRows_fits parallel useFp8Padding inputIds
  have start := fun cpRank => Written.start parallel cpRank (paddedRows parallel useFp8Padding inputIds ++ [])
  have loop := fun cpRank (inside : cpRank < parallel.cpSize) needRoll =>
    thd_loop needRoll inside rowsFit (firstChunks_fit fits inside) (start cpRank)
  simp only [append_nil] at loop
  refine ⟨?_, fun cpRank => packed parallel cpRank (paddedRows parallel useFp8Padding inputIds), params,
    fun cpRank => packedPositions parallel cpRank (paddedRows parallel useFp8Padding inputIds), ?_, ?_⟩
  · intro cpRank inside needRoll target source
    have ran : Yields (fun failure => failure = .indexError) (fun _ => True)
        (preprocessThdEngine parallel cpRank useFp8Padding needRoll inputIds) := by
      rw [preprocessThdEngine_eq cpRank needRoll returned padded offsets]
      refine ((loop cpRank inside needRoll).imp (fun _ both => both.2) (fun _ => id)).bind ?_
      intro rmpad _
      cases needRoll with
      | false => trivial
      | true => exact (rollSaved_yields _ _).bind (fun _ _ => (rollSaved_yields _ _).bind (fun _ _ => trivial))
    exact ran.ne_error (by simp)
  · intro cpRank inside
    exact preprocessThdEngine_ok inside fits returned padded offsets
  · intro β f empty outputList outputs
    have unpacked := unpackSequences_ok f empty rowsFit (padded ▸ offsets) outputs
    rwa [paddedRows_fst] at unpacked

theorem thd_slice_mismatch (many : 1 < parallel.cpSize)
    (long : ¬ LastFits parallel useFp8Padding (inputIds.map length)) :
    ∃ target source, preprocessThdEngine parallel (parallel.cpSize - 1) useFp8Padding false inputIds =
      .error (.sliceLength target source) := by
  rcases eq_nil_or_concat inputIds with rfl | ⟨front, last, rfl⟩
  · simp [LastFits] at long
  · rw [concat_eq_append] at *
    have inside : parallel.cpSize - 1 < parallel.cpSize := by omega
    obtain ⟨params, returned, padded, offsets⟩ := thd_params useFp8Padding (show front ++ [last] ≠ [] by simp)
    have rowsFit := paddedRows_fits parallel useFp8Padding (front ++ [last])
    have equation := preprocessThdEngine_eq (parallel.cpSize - 1) false returned padded offsets
    have align := perSeqAlign_pos parallel useFp8Padding
    rw [paddedRows_concat] at rowsFit equation
    generalize isRows : front.map (fun tokens => (tokens, tokens.length +
      padSize (perSeqAlign parallel useFp8Padding) tokens.length)) = rows at rowsFit equation
    generalize isLast : (last, last.length + padSize (perSeqAlign parallel useFp8Padding) last.length +
      padSizeLast parallel useFp8Padding ((front ++ [last]).map length)) = row at rowsFit equation
    have before : FitsAll parallel rows := fun other member => rowsFit other (mem_append_left _ member)
    have fitsLast := rowsFit row (by simp)
    have early : ∀ other ∈ rows, FirstChunk parallel (perSeqAlign parallel useFp8Padding) (parallel.cpSize - 1) other := by
      intro other member
      refine (firstChunk_iff (before other member) many).mpr ?_ _ inside
      rw [← isRows] at member
      obtain ⟨tokens, _, rfl⟩ := mem_map.mp member
      exact padSize_le_double align tokens.length
    obtain ⟨rmpad, ran, written⟩ := yields_ok.mp
      ((thd_loop false inside before early (Written.start parallel _ (rows ++ [row]))).imp
        (fun _ both => by simp at both) (fun _ => id))
    have beyond : max row.1.length (perSeqAlign parallel useFp8Padding) <
        row.2 / parallel.cpSize / 2 * (parallel.cpSize - 1 + 1) := by
      have whole := fitsLast.chunks many
      have far : ¬ row.2 ≤ 2 * max row.1.length (perSeqAlign parallel useFp8Padding) := by
        intro short
        apply long
        intro length member
        obtain rfl : length = last.length := by simpa using member.symm
        rw [← isLast] at short
        exact short
      generalize row.2 / parallel.cpSize / 2 = half at whole ⊢
      have double : half * (2 * parallel.cpSize) = half * parallel.cpSize + half * parallel.cpSize := by ring
      rw [Nat.sub_add_cancel parallel.cpPositive]
      omega
    have buffer := written.inputIds
    rw [paddedSum_cons_div fitsLast] at buffer
    obtain ⟨target, source, failed⟩ := writeThd_error many fitsLast beyond _ rmpad _ buffer
    rw [(packed_length before inside).1] at failed
    refine ⟨target, source, ?_⟩
    rw [equation, entriesFrom_append, foldlM_append]
    simp only [ran, ok_bind, entriesFrom, foldlM_cons, Nat.zero_add, packThdSequence, failed,
      error_bind]

end Engine

end LLMFusion.Mcore
