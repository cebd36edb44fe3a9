import LLMFusion.Proofs.PackedSeqs
import LLMFusion.Proofs.ThdEngine

/-! Rolling packed sequences by one place. On one rank both buffers are rolled. On
several ranks the last slot of a chunk gets the next token but keeps the position of
its own token, so that the two paths agree only on sequences without such a slot. -/

namespace LLMFusion.Mcore
open Slices ZigZag Indexing Fallible List

/-! ### One iteration -/

section Save
variable {α : Type} {parallel : Parallel} {alignSize cpRank : Nat}

def halfSeqlen (parallel : Parallel) (row : List α × Nat) : Nat := row.2 / parallel.cpSize / 2

def remainLen (parallel : Parallel) (alignSize cpRank : Nat) (row : List α × Nat) : Nat :=
  min (row.2 - halfSeqlen parallel row * cpRank) (max row.1.length alignSize) -
    (row.2 - halfSeqlen parallel row * (cpRank + 1))

/-- The slot of the last place of the first chunk of a row that starts at `start`. -/
def firstKey (parallel : Parallel) (start : Nat) (row : List α × Nat) : Int :=
  (start + halfSeqlen parallel row : Nat) - 1

/-- The slot of the last token of the second chunk, when the rank has such a chunk. -/
structure IsLastKey (parallel : Parallel) (alignSize cpRank start : Nat) (row : List α × Nat) (key : Int) : Prop where
  remains : 0 < remainLen parallel alignSize cpRank row
  isKey : key = (start + halfSeqlen parallel row + remainLen parallel alignSize cpRank row : Nat) - 1

structure Saves (parallel : Parallel) (alignSize cpRank start : Nat) (row : List α × Nat) (rmpad next : Rmpad α) :
    Prop where
  inputIds : next.inputIds = rmpad.inputIds
  positionIds : next.positionIds = rmpad.positionIds
  tokens : ∀ entry ∈ next.savedRoll, entry ∈ rmpad.savedRoll ∨
    entry.1 = firstKey parallel start row ∨ IsLastKey parallel alignSize cpRank start row entry.1
  positions : ∀ entry ∈ next.savedPositionRoll, entry ∈ rmpad.savedPositionRoll ∨
    entry = (firstKey parallel start row, .view (firstKey parallel start row)) ∨
    IsLastKey parallel alignSize cpRank start row entry.1
  keys : ∀ key, key = firstKey parallel start row ∨ key ∈ rmpad.savedPositionRoll.map Prod.fst →
    key ∈ next.savedPositionRoll.map Prod.fst

theorem getIndex_ok {β : Type} (items : List β) (index : Int) (low : -(items.length : Int) ≤ index)
    (high : index < items.length) : ∃ item, getIndex items index = .ok item := by
  obtain ⟨place, named⟩ := Option.isSome_iff_exists.mp (position_isSome low high)
  have inside := (position_inside named).1
  exact ⟨items[place], by simp [getIndex, getItem, named, inside]⟩

/-- The indices are in range as soon as there are slots at all: the first key of an
empty sequence at the start names the last slot. -/
theorem saveRoll_ok [Zero α] {row : List α × Nat} {start : Nat} {rmpad : Rmpad α}
    (token : halfSeqlen parallel row * (cpRank + 1) < max row.1.length alignSize)
    (room : start + halfSeqlen parallel row + remainLen parallel alignSize cpRank row ≤ rmpad.positionIds.length)
    (some : 0 < rmpad.positionIds.length) :
    ∃ next, saveRoll parallel alignSize cpRank rmpad ⟨row.1, row.2, start * parallel.cpSize⟩ = .ok next ∧
      Saves parallel alignSize cpRank start row rmpad next := by
  have offset : start * parallel.cpSize / parallel.cpSize = start := Nat.mul_div_cancel _ parallel.cpPositive
  have length := alignTokens_length alignSize row.1
  have isHalf : row.2 / parallel.cpSize / 2 = halfSeqlen parallel row := rfl
  have isRemain : min (row.2 - halfSeqlen parallel row * cpRank) (max row.1.length alignSize) -
      (row.2 - halfSeqlen parallel row * (cpRank + 1)) = remainLen parallel alignSize cpRank row := rfl
  have isFirst : ((start + halfSeqlen parallel row : Nat) : Int) - 1 = firstKey parallel start row := rfl
  obtain ⟨next, gotNext⟩ := getIndex_ok (alignTokens alignSize row.1) ((cpRank + 1) * halfSeqlen parallel row : Nat)
    (by omega) (by rw [length, Nat.mul_comm]; omega)
  obtain ⟨first, gotFirst⟩ := getIndex_ok rmpad.positionIds (firstKey parallel start row)
    (by rw [firstKey]; omega) (by rw [firstKey]; omega)
  simp only [saveRoll, offset, length, isHalf, isRemain, isFirst, gotNext, gotFirst, ok_bind]
  by_cases remains : 0 < remainLen parallel alignSize cpRank row
  · obtain ⟨lastKey, isLast⟩ : ∃ lastKey : Int,
        ((start + halfSeqlen parallel row + remainLen parallel alignSize cpRank row : Nat) : Int) - 1 = lastKey :=
      ⟨_, rfl⟩
    have key : IsLastKey parallel alignSize cpRank start row lastKey := ⟨remains, isLast.symm⟩
    -- whatever is saved under the last key, it adds nothing but that key
    have saves : ∀ token (position : SavedPosition), Saves parallel alignSize cpRank start row rmpad
        { rmpad with
          savedRoll := insert lastKey token (insert (firstKey parallel start row) next rmpad.savedRoll)
          savedPositionRoll := insert lastKey position
            (insert (firstKey parallel start row) (.view (firstKey parallel start row)) rmpad.savedPositionRoll) } := by
      intro token position
      refine ⟨rfl, rfl, ?_, ?_, ?_⟩
      · intro entry member
        rcases mem_insert member with rfl | member
        · exact Or.inr (Or.inr key)
        · rcases mem_insert member with rfl | member
          · exact Or.inr (Or.inl rfl)
          · exact Or.inl member
      · intro entry member
        rcases mem_insert member with rfl | member
        · exact Or.inr (Or.inr key)
        · rcases mem_insert member with rfl | member
          · exact Or.inr (Or.inl rfl)
          · exact Or.inl member
      · intro key named
        exact mem_insert_keys.mpr (Or.inr (mem_insert_keys.mpr named))
    simp only [remains, ite_true, isLast]
    split
    · obtain ⟨token, got⟩ := getIndex_ok (alignTokens alignSize row.1) 0 (by omega) (by rw [length]; omega)
      rw [got]
      exact ⟨_, rfl, saves token .zero⟩
    next inner =>
      obtain ⟨token, gotToken⟩ := getIndex_ok (alignTokens alignSize row.1)
        (min (row.2 - halfSeqlen parallel row * cpRank) (max row.1.length alignSize) : Nat)
        (by omega) (by rw [length]; omega)
      obtain ⟨last, gotLast⟩ := getIndex_ok rmpad.positionIds lastKey (by omega) (by omega)
      rw [gotToken, ok_bind, gotLast]
      exact ⟨_, rfl, saves token (.view lastKey)⟩
  · simp only [remains, ite_false]
    refine ⟨_, rfl, rfl, rfl, ?_, ?_, ?_⟩
    · intro entry member
      rcases mem_insert member with rfl | member
      · exact Or.inr (Or.inl rfl)
      · exact Or.inl member
    · intro entry member
      rcases mem_insert member with rfl | member
      · exact Or.inr (Or.inl rfl)
      · exact Or.inl member
    · intro key named
      exact mem_insert_keys.mpr named

theorem saveRoll_needs_slot [Zero α] {rmpad next : Rmpad α} {entry : Entry α}
    (saved : saveRoll parallel alignSize cpRank rmpad entry = .ok next) : rmpad.positionIds ≠ [] := by
  intro empty
  simp only [saveRoll, bind_eq_ok, getIndex, getItem, empty, List.getElem?_nil, Option.bind_fun_none] at saved
  obtain ⟨_, _, _, found, _⟩ := saved
  cases found

end Save

/-! ### The loop -/

section Loop
variable {α : Type} [Zero α] {parallel : Parallel} {cpRank : Nat}

omit [Zero α] in
theorem paddedRows_plain (parallel : Parallel) (sequences : List (List α)) : paddedRows parallel false sequences =
      sequences.map (fun tokens => (tokens, tokens.length + padSize parallel.alignSize tokens.length)) := by
  simp only [paddedRows, seqlensPadded, padSizeLast, Bool.false_eq_true, ite_false, addLast_zero, map_map]
  exact map_prod_left_eq_zip.symm

/-- A row as it is padded without eight-bit padding: the extra places are fewer than
one alignment. -/
structure Plain (parallel : Parallel) (row : List α × Nat) : Prop where
  fits : Fits parallel row.1.length row.2
  short : row.2 < row.1.length + parallel.alignSize

omit [Zero α] in
theorem paddedRows_all_plain {sequences : List (List α)} :
    ∀ row ∈ paddedRows parallel false sequences, Plain parallel row := by
  intro row member
  refine ⟨paddedRows_fits parallel false sequences row member, ?_⟩
  rw [paddedRows_plain] at member
  obtain ⟨tokens, _, rfl⟩ := mem_map.mp member
  exact Nat.add_lt_add_left (padSize_lt parallel.alignSize_pos _) _

omit [Zero α] in
theorem Plain.chunks {row : List α × Nat} (plain : Plain parallel row) (many : 1 < parallel.cpSize)
    (inside : cpRank < parallel.cpSize) : row.2 / parallel.cpSize = 2 * halfSeqlen parallel row ∧
      halfSeqlen parallel row * (cpRank + 1) < max row.1.length parallel.alignSize ∧
      remainLen parallel parallel.alignSize cpRank row ≤ halfSeqlen parallel row := by
  have whole : row.2 = halfSeqlen parallel row * (2 * parallel.cpSize) := plain.fits.chunks many
  have double : halfSeqlen parallel row * (2 * parallel.cpSize) =
      halfSeqlen parallel row * parallel.cpSize + halfSeqlen parallel row * parallel.cpSize := by ring
  have before : halfSeqlen parallel row * (cpRank + 1) ≤ halfSeqlen parallel row * parallel.cpSize :=
    Nat.mul_le_mul_left _ inside
  have ends : halfSeqlen parallel row * (cpRank + 1) = halfSeqlen parallel row * cpRank + halfSeqlen parallel row :=
    Nat.mul_succ _ _
  have short := plain.short
  refine ⟨plain.fits.half many, by omega, ?_⟩
  rw [remainLen]
  omega

/-- What is saved after some rows: nothing but their keys, and every first key. -/
structure Saved (parallel : Parallel) (cpRank : Nat) (done : List (List α × Nat)) (rmpad : Rmpad α) : Prop where
  tokens : ∀ entry ∈ rmpad.savedRoll, 1 < parallel.cpSize ∧
    AtBlock (localPart parallel cpRank) done (fun start row => entry.1 = firstKey parallel start row ∨
      IsLastKey parallel parallel.alignSize cpRank start row entry.1)
  positions : ∀ entry ∈ rmpad.savedPositionRoll, 1 < parallel.cpSize ∧
    AtBlock (localPart parallel cpRank) done (fun start row =>
      entry = (firstKey parallel start row, .view (firstKey parallel start row)) ∨
      IsLastKey parallel parallel.alignSize cpRank start row entry.1)
  keys : 1 < parallel.cpSize → ∀ index row, done[index]? = some row →
    firstKey parallel (blockStart (localPart parallel cpRank) done index) row ∈ rmpad.savedPositionRoll.map Prod.fst

theorem Saved.start (parallel : Parallel) (cpRank shape : Nat) :
    Saved parallel cpRank [] (Rmpad.blank shape : Rmpad α) where
  tokens := by simp [Rmpad.blank]
  positions := by simp [Rmpad.blank]
  keys := by simp

theorem Saved.step {done : List (List α × Nat)} {row : List α × Nat} {rmpad next : Rmpad α}
    (saved : Saved parallel cpRank done rmpad) (many : 1 < parallel.cpSize)
    (saves : Saves parallel parallel.alignSize cpRank (packed parallel cpRank done).length row rmpad next) :
    Saved parallel cpRank (done ++ [row]) next where
  tokens := by
    intro entry member
    rcases saves.tokens entry member with before | here
    · exact ⟨many, (saved.tokens entry before).2.append [row]⟩
    · exact ⟨many, .last here⟩
  positions := by
    intro entry member
    rcases saves.positions entry member with before | here
    · exact ⟨many, (saved.positions entry before).2.append [row]⟩
    · exact ⟨many, .last here⟩
  keys := by
    intro _ index other named
    apply saves.keys
    by_cases early : index < done.length
    · rw [List.getElem?_append_left early] at named
      rw [blockStart_append [row] (Nat.le_of_lt early)]
      exact Or.inr (saved.keys many index other named)
    · have bound := (List.getElem?_eq_some_iff.mp named).1
      obtain rfl : index = done.length := by simp at bound; omega
      obtain rfl : row = other := by simpa using named
      rw [blockStart_append [row] (Nat.le_refl _), blockStart, take_length]
      exact Or.inl rfl

theorem roll_loop (inside : cpRank < parallel.cpSize) {rows : List (List α × Nat)}
    (plain : ∀ row ∈ rows, Plain parallel row) (some : 1 < parallel.cpSize → 0 < paddedSum rows / parallel.cpSize) :
    ∃ rmpad, (entriesFrom 0 rows).foldlM (packThdSequence parallel parallel.alignSize true cpRank)
        (Rmpad.blank (paddedSum rows / parallel.cpSize)) = .ok rmpad ∧
      Written parallel cpRank rows [] rmpad ∧ Saved parallel cpRank rows rmpad := by
  have none : FitsAll parallel ([] : List (List α × Nat)) := by simp [FitsAll]
  have fits : FitsAll parallel rows := fun row member => (plain row member).fits
  have loop : Yields (fun _ => False)
      (fun rmpad : Rmpad α => (∀ row ∈ [], Plain parallel row) ∧
        rmpad.positionIds.length = paddedSum rows / parallel.cpSize ∧
        Written parallel cpRank ([] ++ rows) [] rmpad ∧ Saved parallel cpRank ([] ++ rows) rmpad)
      ((entriesFrom (paddedSum ([] : List (List α × Nat))) rows).foldlM
        (packThdSequence parallel parallel.alignSize true cpRank)
        (Rmpad.blank (paddedSum rows / parallel.cpSize))) := packing_loop
    (fun done rest rmpad => (∀ row ∈ rest, Plain parallel row) ∧
      rmpad.positionIds.length = paddedSum rows / parallel.cpSize ∧
      Written parallel cpRank done rest rmpad ∧ Saved parallel cpRank done rmpad)
    (by
      intro done row rest rmpad fitsRow before holds
      obtain ⟨plain, slots, written, saved⟩ := holds
      have first : FirstChunk parallel parallel.alignSize cpRank row := by
        intro many
        exact Nat.le_of_lt ((plain row mem_cons_self).chunks many inside).2.1
      obtain ⟨next, wrote, writtenNext, savedTokens, savedPositions⟩ := written.write inside fitsRow before first
      have later : ∀ other ∈ rest, Plain parallel other := fun other member => plain other (mem_cons_of_mem _ member)
      have total : next.positionIds.length = rmpad.positionIds.length := by
        have place := localPositions_length fitsRow inside
        rw [writtenNext.positionIds, written.positionIds, paddedSum_cons_div fitsRow]
        simp only [packedPositions, flatMap_append, flatMap_cons, flatMap_nil, append_nil,
          length_append, length_replicate, place]
        omega
      have carried : Saved parallel cpRank done next := by
        refine ⟨?_, ?_, ?_⟩
        · rw [savedTokens]
          exact saved.tokens
        · rw [savedPositions]
          exact saved.positions
        · rw [savedPositions]
          exact saved.keys
      simp only [packThdSequence, wrote, ok_bind]
      by_cases many : 1 < parallel.cpSize
      · obtain ⟨twice, token, remain⟩ := (plain row mem_cons_self).chunks many inside
        have room : (packed parallel cpRank done).length + row.2 / parallel.cpSize ≤ next.positionIds.length := by
          rw [total, written.positionIds, length_append, packedPositions_length before inside,
            length_replicate, paddedSum_cons_div fitsRow]
          exact Nat.add_le_add_left (Nat.le_add_right _ _) _
        obtain ⟨last, returned, saves⟩ := saveRoll_ok token
          (show (packed parallel cpRank done).length + halfSeqlen parallel row +
            remainLen parallel parallel.alignSize cpRank row ≤ next.positionIds.length by omega)
          (by rw [total, slots]; exact some many)
        rw [(packed_length before inside).1] at returned
        simp only [many, decide_true, Bool.and_true, ite_true, returned]
        refine ⟨later, ?_, ⟨?_, ?_⟩, carried.step many saves⟩
        · rw [saves.positionIds, total, slots]
        · rw [saves.inputIds, writtenNext.inputIds]
        · rw [saves.positionIds, writtenNext.positionIds]
      · simp only [many, decide_false, Bool.and_false, Bool.false_eq_true, ite_false]
        refine ⟨later, by rw [total, slots], writtenNext, ?_⟩
        refine ⟨?_, ?_, fun several => absurd several many⟩
        · intro entry member
          exact absurd (carried.tokens entry member).1 many
        · intro entry member
          exact absurd (carried.positions entry member).1 many)
    none fits ⟨plain, by simp [Rmpad.blank], Written.start parallel cpRank rows, Saved.start ..⟩
  obtain ⟨rmpad, ran, _, _, written, saved⟩ := yields_ok.mp loop
  exact ⟨rmpad, ran, written, saved⟩

end Loop

/-! ### Where the tokens are -/

section Slots
variable {α : Type} [Zero α] {parallel : Parallel} {cpRank : Nat}

/-- The place in the sequence that a place in the rank's part comes from. -/
def origin (parallel : Parallel) (cpRank : Nat) (row : List α × Nat) (place : Nat) : Nat :=
  if 1 < parallel.cpSize then
    if place < halfSeqlen parallel row then halfSeqlen parallel row * cpRank + place
    else halfSeqlen parallel row * (2 * parallel.cpSize - 1 - cpRank) + (place - halfSeqlen parallel row)
  else place

theorem localPart_getElem? (inside : cpRank < parallel.cpSize) {row : List α × Nat}
    (fits : Fits parallel row.1.length row.2) {place : Nat} (within : place < row.2 / parallel.cpSize) :
    (localPart parallel cpRank row)[place]? = (pad row.1 row.2)[origin parallel cpRank row place]? := by
  by_cases many : 1 < parallel.cpSize
  · have whole := fits.chunks many
    rw [fits.half many] at within
    rw [localPart, if_pos many, split_getElem? inside (by rwa [pad_length fits.enough]) within, origin, if_pos many]
    rfl
  · rw [localPart, if_neg many, origin, if_neg many]

omit [Zero α] in
theorem localPositions_getElem? (inside : cpRank < parallel.cpSize) {row : List α × Nat}
    (fits : Fits parallel row.1.length row.2) {place : Nat} (within : place < row.2 / parallel.cpSize)
    (token : origin parallel cpRank row place < row.1.length) :
    (localPositions parallel cpRank row)[place]? = some (origin parallel cpRank row place) := by
  have enough := fits.enough
  by_cases many : 1 < parallel.cpSize
  · obtain ⟨mirror, mirrorEnd, front, double⟩ := mirror_bound (halfSeqlen parallel row) inside
    have whole : row.2 = halfSeqlen parallel row * (2 * parallel.cpSize) := fits.chunks many
    have twice : row.2 / parallel.cpSize = 2 * halfSeqlen parallel row := fits.half many
    have ends : halfSeqlen parallel row * (cpRank + 1) = halfSeqlen parallel row * cpRank + halfSeqlen parallel row :=
      Nat.mul_succ _ _
    rw [← whole] at mirror mirrorEnd double
    rw [localPositions, if_pos many]
    rw [origin, if_pos many] at token ⊢
    change (range' (halfSeqlen parallel row * cpRank) (halfSeqlen parallel row) ++
      pad (range' (row.2 - halfSeqlen parallel row * (cpRank + 1))
        (min (row.2 - halfSeqlen parallel row * cpRank) row.1.length -
          (row.2 - halfSeqlen parallel row * (cpRank + 1)))) (halfSeqlen parallel row))[place]? = _
    by_cases first : place < halfSeqlen parallel row
    · rw [List.getElem?_append_left (by rwa [length_range']), List.getElem?_range' first, if_pos first,
        Nat.one_mul]
    · rw [if_neg first, mirror] at token ⊢
      rw [List.getElem?_append_right (by rw [length_range']; omega), length_range', pad_getElem?,
        length_range', if_pos (by omega), List.getElem?_range' (by omega), Nat.one_mul]
  · rw [localPositions, if_neg many]
    rw [origin, if_neg many] at token ⊢
    rw [pad_getElem?, length_range, if_pos token, List.getElem?_range token]

omit [Zero α] in
theorem origin_succ {row : List α × Nat} {place : Nat}
    (inner : 1 < parallel.cpSize → place + 1 < halfSeqlen parallel row) :
    origin parallel cpRank row (place + 1) = origin parallel cpRank row place + 1 := by
  by_cases many : 1 < parallel.cpSize
  · have next := inner many
    rw [origin, if_pos many, if_pos next, origin, if_pos many, if_pos (by omega), Nat.add_assoc]
  · rw [origin, if_neg many, origin, if_neg many]

/-- Every token replaced by its place in the batch. -/
def tags (inputIds : List (List α)) : List (List Slot) :=
  inputIds.zipIdx.map (fun sequence => (List.range sequence.1.length).map (Slot.token sequence.2))

omit [Zero α] in
theorem tags_lengths (inputIds : List (List α)) : (tags inputIds).map length = inputIds.map length := by
  apply ext_getElem?
  intro index
  simp only [tags, map_map, List.getElem?_map, List.getElem?_zipIdx]
  cases inputIds[index]? <;> simp

omit [Zero α] in
theorem tags_getElem? (inputIds : List (List α)) (index : Nat) :
    (tags inputIds)[index]? = inputIds[index]?.map (fun tokens => (range tokens.length).map (Slot.token index)) := by
  simp only [tags, List.getElem?_map, List.getElem?_zipIdx]
  cases inputIds[index]? <;> simp

omit [Zero α] in
theorem pad_tags {length padded index place i q : Nat}
    (found : (pad ((range length).map (Slot.token index)) padded)[place]? = some (.token i q)) :
    i = index ∧ q = place ∧ place < length := by
  rw [pad_getElem?, length_map, length_range] at found
  by_cases token : place < length
  · rw [if_pos token, List.getElem?_map, List.getElem?_range token] at found
    cases found
    exact ⟨rfl, rfl, token⟩
  · rw [if_neg token] at found
    split at found
    · cases found
    · cases found

end Slots

/-! ### The roll -/

section Roll
variable {α : Type} [Zero α] {parallel : Parallel} {cpRank : Nat} {rows : List (List α × Nat)}

theorem block_end (inside : cpRank < parallel.cpSize) (plain : ∀ row ∈ rows, Plain parallel row) {index : Nat}
    {row : List α × Nat} (named : rows[index]? = some row) :
    blockStart (localPart parallel cpRank) rows index + row.2 / parallel.cpSize ≤ (packed parallel cpRank rows).length := by
  have length := localPart_length (plain row (mem_of_getElem? named)).fits inside
  have next := blockStart_succ (localPart parallel cpRank) named
  rw [← length, ← next]
  exact blockStart_le ..

/-- What is saved under a key, as the number of places of its row that it closes. -/
structure Closes (parallel : Parallel) (cpRank : Nat) (rows : List (List α × Nat)) (key : Int) (index size : Nat)
    (row : List α × Nat) : Prop where
  named : rows[index]? = some row
  bound : size ≤ row.2 / parallel.cpSize
  isKey : key = (blockStart (localPart parallel cpRank) rows index + size : Nat) - 1

/-- A key names the last place that it closes; only an empty front of the batch has a
key that names the last slot instead. -/
theorem Closes.slot (inside : cpRank < parallel.cpSize) (plain : ∀ row ∈ rows, Plain parallel row) {index index' size place : Nat}
    {row row' : List α × Nat} {key : Int} (closes : Closes parallel cpRank rows key index' size row')
    (named : rows[index]? = some row) (within : place + 1 < row.2 / parallel.cpSize)
    (found : position (packed parallel cpRank rows).length key =
      some (blockStart (localPart parallel cpRank) rows index + place)) : index' = index ∧ size = place + 1 := by
  have fits := (plain row (mem_of_getElem? named)).fits
  have fits' := (plain row' (mem_of_getElem? closes.named)).fits
  have last := block_end inside plain named
  have isKey := closes.isKey
  apply block_apart (localPart parallel cpRank) named closes.named
  · rwa [localPart_length fits inside]
  · rw [localPart_length fits' inside]
    exact closes.bound
  · obtain ⟨bound, same | mirrored⟩ := position_inside found
    · omega
    · omega

omit [Zero α] in
private theorem IsLastKey.size {start : Nat} {row : List α × Nat} {key : Int} (plain : Plain parallel row)
    (many : 1 < parallel.cpSize) (inside : cpRank < parallel.cpSize)
    (last : IsLastKey parallel parallel.alignSize cpRank start row key) :
    ∃ size, halfSeqlen parallel row < size ∧ size ≤ row.2 / parallel.cpSize ∧ key = (start + size : Nat) - 1 := by
  obtain ⟨twice, _, remain⟩ := plain.chunks many inside
  refine ⟨halfSeqlen parallel row + remainLen parallel parallel.alignSize cpRank row, ?_, by omega, ?_⟩
  · exact Nat.lt_add_of_pos_right last.remains
  · rw [last.isKey, Nat.add_assoc]

theorem key_closes (inside : cpRank < parallel.cpSize) (many : 1 < parallel.cpSize)
    (plain : ∀ row ∈ rows, Plain parallel row) {key : Int} {first : Nat → List α × Nat → Prop}
    (isFirst : ∀ start row, first start row → key = firstKey parallel start row)
    (here : AtBlock (localPart parallel cpRank) rows
      (fun start row => first start row ∨ IsLastKey parallel parallel.alignSize cpRank start row key)) :
    ∃ index size row, Closes parallel cpRank rows key index size row ∧
      (size = halfSeqlen parallel row ∧ first (blockStart (localPart parallel cpRank) rows index) row ∨
        halfSeqlen parallel row < size) := by
  obtain ⟨index, row, named, front | last⟩ := here
  · have twice := (plain row (mem_of_getElem? named)).fits.half many
    refine ⟨index, halfSeqlen parallel row, row, ⟨named, ?_, isFirst _ _ front⟩, Or.inl ⟨rfl, front⟩⟩
    rw [twice]
    exact Nat.le_mul_of_pos_left _ (by decide)
  · obtain ⟨size, longer, bound, isKey⟩ := last.size (plain row (mem_of_getElem? named)) many inside
    exact ⟨index, size, row, ⟨named, bound, isKey⟩, Or.inr longer⟩

theorem Closes.inside (inside : cpRank < parallel.cpSize) (plain : ∀ row ∈ rows, Plain parallel row)
    (some : 0 < (packed parallel cpRank rows).length) {index size : Nat} {row : List α × Nat} {key : Int}
    (closes : Closes parallel cpRank rows key index size row) :
    (position (packed parallel cpRank rows).length key).isSome := by
  have last := block_end inside plain closes.named
  have bound := closes.bound
  have isKey := closes.isKey
  exact position_isSome (by omega) (by omega)

theorem key_elsewhere (inside : cpRank < parallel.cpSize) (plain : ∀ row ∈ rows, Plain parallel row) {index place : Nat}
    {row : List α × Nat} {key : Int} {first : Nat → List α × Nat → Prop}
    (isFirst : ∀ start row, first start row → key = firstKey parallel start row)
    (named : rows[index]? = some row) (inner : 1 < parallel.cpSize → place + 1 < halfSeqlen parallel row)
    (here : 1 < parallel.cpSize ∧ AtBlock (localPart parallel cpRank) rows
      (fun start row => first start row ∨ IsLastKey parallel parallel.alignSize cpRank start row key)) :
    position (packed parallel cpRank rows).length key ≠ some (blockStart (localPart parallel cpRank) rows index + place) := by
  intro found
  obtain ⟨many, here⟩ := here
  have short := inner many
  have twice : row.2 / parallel.cpSize = 2 * halfSeqlen parallel row :=
    (plain row (mem_of_getElem? named)).fits.half many
  obtain ⟨index', size, row', closes, larger⟩ := key_closes inside many plain isFirst here
  obtain ⟨rfl, rfl⟩ := closes.slot inside plain named (by omega) found
  obtain rfl : row = row' := Option.some.inj (named.symm.trans closes.named)
  rcases larger with ⟨same, _⟩ | larger <;> omega

theorem roll_elsewhere {β : Type} {items rolled : List β} {saved : List (Int × β)} {slot : Nat}
    (written : setItems saved (items.rotate 1) = some rolled) (inside : slot + 1 < items.length)
    (elsewhere : ∀ entry ∈ saved, position items.length entry.1 ≠ some slot) : rolled[slot]? = items[slot + 1]? := by
  rw [setItems_other written (by simpa using elsewhere), List.getElem?_rotate (by omega), Nat.mod_eq_of_lt inside]

theorem preprocess_rolled {inputIds : List (List α)} {params : PackedSeqParams} (inside : cpRank < parallel.cpSize)
    (isRows : paddedRows parallel false inputIds = rows)
    (returned : packedSeqParams parallel false (inputIds.map length) = .ok params)
    (padded : params.seqlensInBatchPadded = (paddedRows parallel false inputIds).map Prod.snd)
    (offsets : params.cuSeqlensPadded = cumsum 0 params.seqlensInBatchPadded)
    (slots : 1 < parallel.cpSize → 0 < (packed parallel cpRank rows).length) :
    ∃ rmpad rolled positions, Saved parallel cpRank rows rmpad ∧
      preprocessThdEngine parallel cpRank false true inputIds = .ok (rolled, params, positions) ∧
      setItems rmpad.savedRoll ((packed parallel cpRank rows).rotate 1) = some rolled ∧
      setItems (rmpad.savedPositionRoll.map
          (fun entry => (entry.1, entry.2.value (packedPositions parallel cpRank rows))))
        ((packedPositions parallel cpRank rows).rotate 1) = some positions := by
  have plain : ∀ row ∈ rows, Plain parallel row := isRows ▸ paddedRows_all_plain
  have fits : FitsAll parallel rows := fun row member => (plain row member).fits
  have total := (packed_length fits inside).2
  have same := packedPositions_length fits inside
  have equation := preprocessThdEngine_eq cpRank true returned padded offsets
  rw [isRows] at equation
  obtain ⟨rmpad, ran, written, saved⟩ := roll_loop inside plain (by rwa [← total])
  have tokens : rmpad.inputIds = packed parallel cpRank rows := by simp [written.inputIds, paddedSum]
  have positions : rmpad.positionIds = packedPositions parallel cpRank rows := by
    simp [written.positionIds, paddedSum]
  have tokenKeys : ∀ entry ∈ rmpad.savedRoll,
      (position ((packed parallel cpRank rows).rotate 1).length entry.1).isSome := by
    intro entry member
    obtain ⟨many, here⟩ := saved.tokens entry member
    obtain ⟨_, _, _, closes, _⟩ := key_closes inside many plain (fun _ _ same => same) here
    rw [length_rotate]
    exact closes.inside inside plain (slots many)
  have positionKeys : ∀ entry ∈ rmpad.savedPositionRoll.map
        (fun entry => (entry.1, entry.2.value (packedPositions parallel cpRank rows))),
      (position ((packedPositions parallel cpRank rows).rotate 1).length entry.1).isSome := by
    intro entry member
    obtain ⟨key, saved', rfl⟩ := mem_map.mp member
    obtain ⟨many, here⟩ := saved.positions key saved'
    obtain ⟨_, _, _, closes, _⟩ := key_closes inside many plain (fun _ _ same => congrArg Prod.fst same) here
    rw [length_rotate, same]
    exact closes.inside inside plain (slots many)
  obtain ⟨rolled, wroteTokens⟩ := setItems_isSome tokenKeys
  obtain ⟨rolledPositions, wrotePositions⟩ := setItems_isSome positionKeys
  refine ⟨rmpad, rolled, rolledPositions, saved, ?_, wroteTokens, wrotePositions⟩
  have align : perSeqAlign parallel false = parallel.alignSize := rfl
  rw [equation, align, ran]
  simp only [ok_bind, ite_true, rollSaved, tokens, positions, wroteTokens, wrotePositions]
  rfl

end Roll

/-! ### When the roll agrees -/

section Agreement
variable {α : Type} [Zero α] {parallel : Parallel} {cpRank : Nat} {inputIds : List (List α)}

/-- With a roll, the slot that without a roll holds a token that is not the last of its
sequence holds the next token of that sequence and its position. -/
def RollAgrees (parallel : Parallel) (cpRank : Nat) (inputIds : List (List α)) : Prop :=
  ∃ (slots : List Slot) (params : PackedSeqParams) (positions : List Nat) (rolled : List α)
    (rolledPositions : List Nat),
    preprocessThdEngine parallel cpRank false false (tags inputIds) = .ok (slots, params, positions) ∧
    preprocessThdEngine parallel cpRank false true inputIds = .ok (rolled, params, rolledPositions) ∧
    ∀ (slot i q : Nat) (tokens : List α), slots[slot]? = some (.token i q) → inputIds[i]? = some tokens → q + 1 < tokens.length →
      rolled[slot]? = tokens[q + 1]? ∧ rolledPositions[slot]? = some (q + 1)

/-- Half of the rank's part of a sequence, from its length. -/
def chunkLength (parallel : Parallel) (length : Nat) : Nat :=
  (length + padSize parallel.alignSize length) / parallel.cpSize / 2

omit [Zero α] in
theorem tags_rows (parallel : Parallel) (inputIds : List (List α)) (index : Nat) :
    (paddedRows parallel false (tags inputIds))[index]? = (paddedRows parallel false inputIds)[index]?.map
        (fun row => ((range row.1.length).map (Slot.token index), row.2)) := by
  rw [paddedRows_plain, paddedRows_plain, List.getElem?_map, List.getElem?_map, tags_getElem?]
  cases inputIds[index]? <;> simp

theorem tags_start (inside : cpRank < parallel.cpSize) (inputIds : List (List α)) (index : Nat) :
    blockStart (localPart parallel cpRank) (paddedRows parallel false (tags inputIds)) index =
      blockStart (localPart parallel cpRank) (paddedRows parallel false inputIds) index := by
  apply blockStart_congr
  have each : ∀ {γ : Type} [Zero γ] (sequences : List (List γ)),
      (paddedRows parallel false sequences).map (fun row => (localPart parallel cpRank row).length) =
        ((sequences.map length).map (fun length => length + padSize parallel.alignSize length)).map
          (fun padded => padded / parallel.cpSize) := by
    intro γ _ sequences
    rw [map_congr_left (fun row member => localPart_length (paddedRows_all_plain row member).fits inside),
      paddedRows_plain, map_map, map_map, map_map]
    rfl
  rw [each, each, tags_lengths]

theorem positions_start (inside : cpRank < parallel.cpSize) {rows : List (List α × Nat)}
    (plain : ∀ row ∈ rows, Plain parallel row) (index : Nat) :
    blockStart (localPositions parallel cpRank) rows index = blockStart (localPart parallel cpRank) rows index := by
  apply blockStart_congr
  apply map_congr_left
  intro row member
  rw [localPositions_length (plain row member).fits inside, localPart_length (plain row member).fits inside]

theorem token_slot (inside : cpRank < parallel.cpSize) {slot i q : Nat}
    (found : (packed parallel cpRank (paddedRows parallel false (tags inputIds)))[slot]? = some (.token i q)) :
    ∃ row place, (paddedRows parallel false inputIds)[i]? = some row ∧ place < row.2 / parallel.cpSize ∧
      slot = blockStart (localPart parallel cpRank) (paddedRows parallel false inputIds) i + place ∧
      origin parallel cpRank row place = q ∧ q < row.1.length := by
  obtain ⟨index, tagged, place, named, rfl, here⟩ := exists_block found
  rw [tags_rows] at named
  obtain ⟨row, isRow, rfl⟩ := Option.map_eq_some_iff.mp named
  have fits := (paddedRows_all_plain row (List.mem_of_getElem? isRow)).fits
  have fits' : Fits parallel ((List.range row.1.length).map (Slot.token index)).length row.2 := by simpa using fits
  have width : (localPart parallel cpRank ((List.range row.1.length).map (Slot.token index), row.2)).length =
      row.2 / parallel.cpSize := localPart_length fits' inside
  have within : place < row.2 / parallel.cpSize := width ▸ (List.getElem?_eq_some_iff.mp here).1
  have source : (localPart parallel cpRank ((List.range row.1.length).map (Slot.token index), row.2))[place]? = _ :=
    localPart_getElem? inside fits' within
  rw [source] at here
  obtain ⟨rfl, rfl, token⟩ := pad_tags here
  exact ⟨row, place, isRow, within, by rw [tags_start inside], rfl, token⟩

theorem slot_of_token (inside : cpRank < parallel.cpSize) {index place : Nat} {row : List α × Nat}
    (named : (paddedRows parallel false inputIds)[index]? = some row) (within : place < row.2 / parallel.cpSize)
    (token : origin parallel cpRank row place < row.1.length) :
    (packed parallel cpRank (paddedRows parallel false (tags inputIds)))[
      blockStart (localPart parallel cpRank) (paddedRows parallel false inputIds) index + place]? =
        some (.token index (origin parallel cpRank row place)) := by
  have fits := (paddedRows_all_plain row (mem_of_getElem? named)).fits
  have fits' : Fits parallel ((range row.1.length).map (Slot.token index)).length row.2 := by simpa using fits
  have tagged := tags_rows parallel inputIds index
  rw [named, Option.map_some] at tagged
  have width : (localPart parallel cpRank ((range row.1.length).map (Slot.token index), row.2)).length =
      row.2 / parallel.cpSize := localPart_length fits' inside
  have source : (localPart parallel cpRank ((range row.1.length).map (Slot.token index), row.2))[place]? =
      (pad ((range row.1.length).map (Slot.token index)) row.2)[origin parallel cpRank row place]? :=
    localPart_getElem? inside fits' within
  rw [← tags_start inside, packed, block_getElem? tagged (by rwa [width]), source, pad_getElem?, length_map,
    length_range, if_pos token, List.getElem?_map, List.getElem?_range token]
  rfl

omit [Zero α] in
theorem rows_getElem? (parallel : Parallel) (inputIds : List (List α)) (index : Nat) :
    (paddedRows parallel false inputIds)[index]? = inputIds[index]?.map
      (fun tokens => (tokens, tokens.length + padSize parallel.alignSize tokens.length)) := by
  rw [paddedRows_plain, List.getElem?_map]

theorem slots_of_token (inside : cpRank < parallel.cpSize) {tokens : List α} (member : tokens ∈ inputIds)
    (filled : tokens ≠ []) : 0 < (packed parallel cpRank (paddedRows parallel false inputIds)).length := by
  obtain ⟨index, named⟩ := mem_iff_getElem?.mp member
  have isRow := rows_getElem? parallel inputIds index
  rw [named, Option.map_some] at isRow
  have plain := paddedRows_all_plain _ (mem_of_getElem? isRow)
  have last := block_end inside paddedRows_all_plain isRow
  have whole := plain.fits.split
  have positive : 0 < tokens.length := length_pos_iff.mpr filled
  have share : (tokens.length + padSize parallel.alignSize tokens.length) / parallel.cpSize ≠ 0 := by
    intro none
    simp only [none, Nat.zero_mul] at whole
    omega
  exact Nat.lt_of_lt_of_le (Nat.pos_of_ne_zero share) (Nat.le_trans (Nat.le_add_left _ _) last)

omit [Zero α] in
theorem preprocess_tagged {params : PackedSeqParams} (inside : cpRank < parallel.cpSize)
    (returned : packedSeqParams parallel false (inputIds.map length) = .ok params)
    (padded : params.seqlensInBatchPadded = (paddedRows parallel false inputIds).map Prod.snd)
    (offsets : params.cuSeqlensPadded = cumsum 0 params.seqlensInBatchPadded) :
    ∃ positions, preprocessThdEngine parallel cpRank false false (tags inputIds) =
      .ok (packed parallel cpRank (paddedRows parallel false (tags inputIds)), params, positions) := by
  have lengths := tags_lengths inputIds
  refine ⟨_, preprocessThdEngine_ok inside (Or.inl rfl) (by rwa [lengths]) ?_ offsets⟩
  rw [padded, paddedRows_snd, paddedRows_snd, lengths]

/-- Within a first chunk that is not the last of the tokens, the slot behind is the
next place. -/
theorem roll_agrees_of (inside : cpRank < parallel.cpSize) (notEmpty : inputIds ≠ [])
    (ends : parallel.cpSize ≤ 1 ∨ (∃ tokens ∈ inputIds, tokens ≠ []) ∧
      ∀ tokens ∈ inputIds, tokens.length ≤ chunkLength parallel tokens.length * (cpRank + 1)) :
    RollAgrees parallel cpRank inputIds := by
  obtain ⟨params, returned, padded, offsets⟩ : ∃ params, packedSeqParams parallel false
      (inputIds.map length) = .ok params ∧ _ := thd_params false notEmpty
  have plain : ∀ row ∈ paddedRows parallel false inputIds, Plain parallel row := paddedRows_all_plain
  have slots : 1 < parallel.cpSize → 0 < (packed parallel cpRank (paddedRows parallel false inputIds)).length := by
    intro many
    rcases ends with single | ⟨⟨tokens, member, filled⟩, _⟩
    · omega
    · exact slots_of_token inside member filled
  obtain ⟨rmpad, rolled, positions, saved, ran, wroteTokens, wrotePositions⟩ :=
    preprocess_rolled inside rfl returned padded offsets slots
  obtain ⟨_, tagged⟩ := preprocess_tagged inside returned padded offsets
  refine ⟨_, params, _, rolled, positions, tagged, ran, ?_⟩
  intro slot i q tokens found named next
  obtain ⟨row, place, isRow, within, rfl, isOrigin, _⟩ := token_slot inside found
  have fits := (plain row (mem_of_getElem? isRow)).fits
  obtain rfl : row = (tokens, tokens.length + padSize parallel.alignSize tokens.length) := by
    rw [rows_getElem?, named] at isRow
    exact (Option.some.inj isRow).symm
  -- the token is in the first chunk, and not in its last place
  have inner : 1 < parallel.cpSize →
      place + 1 < halfSeqlen parallel (tokens, tokens.length + padSize parallel.alignSize tokens.length) := by
    intro many
    rcases ends with single | ⟨_, short⟩
    · omega
    · have last := short tokens (mem_of_getElem? named)
      have chunkEnd : chunkLength parallel tokens.length * (cpRank + 1) =
          chunkLength parallel tokens.length * cpRank + chunkLength parallel tokens.length := Nat.mul_succ _ _
      change place + 1 < chunkLength parallel tokens.length
      rw [origin, if_pos many] at isOrigin
      change (if place < chunkLength parallel tokens.length then chunkLength parallel tokens.length * cpRank + place
        else chunkLength parallel tokens.length * (2 * parallel.cpSize - 1 - cpRank) +
          (place - chunkLength parallel tokens.length)) = q at isOrigin
      split at isOrigin
      · omega
      · have mirror : chunkLength parallel tokens.length * (cpRank + 1) ≤
            chunkLength parallel tokens.length * (2 * parallel.cpSize - 1 - cpRank) :=
          Nat.mul_le_mul_left _ (by omega)
        omega
  have enough := fits.enough
  have whole := fits.split
  have behind : place + 1 < (tokens.length + padSize parallel.alignSize tokens.length) / parallel.cpSize := by
    by_cases many : 1 < parallel.cpSize
    · have twice := fits.half many
      have short := inner many
      simp only [halfSeqlen] at twice short
      omega
    · obtain one : parallel.cpSize = 1 := by omega
      rw [origin, if_neg many] at isOrigin
      rw [one, Nat.div_one]
      omega
  have successor : origin parallel cpRank (tokens, tokens.length + padSize parallel.alignSize tokens.length) (place + 1) =
      q + 1 := by rw [origin_succ inner, isOrigin]
  have same := packedPositions_length (fun row member => (plain row member).fits) inside
  have last := block_end inside plain isRow
  have room : blockStart (localPart parallel cpRank) (paddedRows parallel false inputIds) i + place + 1 <
      (packed parallel cpRank (paddedRows parallel false inputIds)).length :=
    Nat.lt_of_lt_of_le (Nat.add_lt_add_left behind _) last
  constructor
  · have rolls := roll_elsewhere wroteTokens room
      (fun entry member => key_elsewhere inside plain (fun _ _ same => same) isRow inner (saved.tokens entry member))
    rw [rolls, packed, Nat.add_assoc, block_getElem? isRow (by rwa [localPart_length fits inside]),
      localPart_getElem? inside fits behind, successor, pad_getElem?, if_pos next]
  · have rolls := roll_elsewhere wrotePositions (by rwa [same]) (by
      intro entry member
      obtain ⟨key, savedKey, rfl⟩ := mem_map.mp member
      rw [same]
      exact key_elsewhere inside plain (fun _ _ same => congrArg Prod.fst same) isRow inner
        (saved.positions key savedKey))
    rw [rolls, packedPositions, ← positions_start inside plain, Nat.add_assoc,
      block_getElem? isRow (by rwa [localPositions_length fits inside]),
      localPositions_getElem? inside fits behind (by rwa [successor]), successor]

theorem boundary_position (inside : cpRank < parallel.cpSize) (many : 1 < parallel.cpSize)
    {rows : List (List α × Nat)} (plain : ∀ row ∈ rows, Plain parallel row) {rmpad : Rmpad α} {positions : List Nat}
    (saved : Saved parallel cpRank rows rmpad) (written : setItems (rmpad.savedPositionRoll.map
        (fun entry => (entry.1, entry.2.value (packedPositions parallel cpRank rows))))
      ((packedPositions parallel cpRank rows).rotate 1) = some positions)
    {index : Nat} {row : List α × Nat} (named : rows[index]? = some row) {place : Nat}
    (boundary : halfSeqlen parallel row = place + 1) :
    positions[blockStart (localPart parallel cpRank) rows index + place]? =
      (packedPositions parallel cpRank rows)[blockStart (localPart parallel cpRank) rows index + place]? := by
  have same := packedPositions_length (fun row member => (plain row member).fits) inside
  have last := block_end inside plain named
  have twice : row.2 / parallel.cpSize = 2 * halfSeqlen parallel row :=
    (plain row (mem_of_getElem? named)).fits.half many
  have room : blockStart (localPart parallel cpRank) rows index + place < (packedPositions parallel cpRank rows).length := by
    omega
  rw [List.getElem?_eq_getElem room]
  apply setItems_value written (by simpa using room)
  · intro entry member names
    obtain ⟨key, savedKey, rfl⟩ := mem_map.mp member
    rw [length_rotate, same] at names
    obtain ⟨_, here⟩ := saved.positions key savedKey
    obtain ⟨index', size, row', closes, ⟨_, first⟩ | larger⟩ :=
      key_closes inside many plain (fun _ _ same => congrArg Prod.fst same) here
    · -- the view reads the slot itself
      have isView : key.2 = .view key.1 := by rw [first]
      simp only [isView, SavedPosition.value, getItem, same, names, Option.bind_some,
        List.getElem?_eq_getElem room, Option.getD_some]
    · obtain ⟨rfl, isSize⟩ := closes.slot inside plain named (by omega) names
      obtain rfl : row = row' := Option.some.inj (named.symm.trans closes.named)
      omega
  · obtain ⟨key, savedKey, isKey⟩ := mem_map.mp (saved.keys many index row named)
    refine Or.inr ⟨_, mem_map.mpr ⟨key, savedKey, rfl⟩, ?_⟩
    have slot : firstKey parallel (blockStart (localPart parallel cpRank) rows index) row =
        (blockStart (localPart parallel cpRank) rows index + place : Nat) := by
      rw [firstKey, boundary]
      omega
    simp only [isKey, slot, length_rotate]
    exact position_of_nat room

theorem roll_without_slots (inside : cpRank < parallel.cpSize) (many : 1 < parallel.cpSize)
    (notEmpty : inputIds ≠ []) (empty : ∀ tokens ∈ inputIds, tokens = []) : ¬ RollAgrees parallel cpRank inputIds := by
  rintro ⟨_, _, _, rolled, positions, _, ran, _⟩
  obtain ⟨params, returned, padded, offsets⟩ : ∃ params, packedSeqParams parallel false
      (inputIds.map length) = .ok params ∧ _ := thd_params false notEmpty
  rw [preprocessThdEngine_eq cpRank true returned padded offsets] at ran
  have plain : ∀ row ∈ paddedRows parallel false inputIds, Plain parallel row := paddedRows_all_plain
  have none : ∀ row ∈ paddedRows parallel false inputIds, row.2 = 0 := by
    intro row member
    rw [paddedRows_plain] at member
    obtain ⟨tokens, sequence, rfl⟩ := mem_map.mp member
    simp [empty tokens sequence, padSize]
  cases isRows : paddedRows parallel false inputIds with
  | nil =>
    have front := paddedRows_fst parallel false inputIds
    rw [isRows] at front
    exact notEmpty front.symm
  | cons row rest =>
    rw [isRows] at ran plain none
    have blank : paddedSum (row :: rest) = 0 := by
      apply sum_eq_zero
      intro padded member
      obtain ⟨other, later, rfl⟩ := mem_map.mp member
      exact none other later
    have first := plain row mem_cons_self
    have chunk : FirstChunk parallel parallel.alignSize cpRank row :=
      fun _ => Nat.le_of_lt (first.chunks many inside).2.1
    have start : Written parallel cpRank [] (row :: rest)
        (Rmpad.blank (paddedSum (row :: rest) / parallel.cpSize) : Rmpad α) := Written.start ..
    obtain ⟨next, wrote, written, _, _⟩ := start.write inside first.fits (by simp [FitsAll]) chunk
    have align : perSeqAlign parallel false = parallel.alignSize := rfl
    simp only [entriesFrom, foldlM_cons, bind_eq_ok, align] at ran
    obtain ⟨_, ⟨_, iteration, _⟩, _⟩ := ran
    have offset : paddedSum ([] : List (List α × Nat)) = 0 := rfl
    rw [offset] at wrote
    simp only [packThdSequence, wrote, ok_bind, many, decide_true, Bool.and_true, ite_true] at iteration
    apply saveRoll_needs_slot iteration
    have width := localPositions_length first.fits inside
    rw [none row mem_cons_self, Nat.zero_div] at width
    have total : paddedSum rest = 0 := by
      simp only [paddedSum, map_cons, sum_cons] at blank ⊢
      omega
    rw [written.positionIds, total, Nat.zero_div]
    simpa [packedPositions] using width

/-- The engine rolls correctly on a rank exactly when no sequence goes on behind the
first chunk of the rank, and there is something to roll. -/
theorem roll_agrees_iff (inside : cpRank < parallel.cpSize) :
    RollAgrees parallel cpRank inputIds ↔ inputIds ≠ [] ∧
      (parallel.cpSize ≤ 1 ∨ (∃ tokens ∈ inputIds, tokens ≠ []) ∧
        ∀ tokens ∈ inputIds, tokens.length ≤ chunkLength parallel tokens.length * (cpRank + 1)) := by
  refine ⟨fun agrees => ?_, fun ⟨notEmpty, ends⟩ => roll_agrees_of inside notEmpty ends⟩
  have notEmpty : inputIds ≠ [] := by
    rintro rfl
    obtain ⟨_, _, _, _, _, _, ran, _⟩ := agrees
    cases ran
  refine ⟨notEmpty, ?_⟩
  by_cases many : 1 < parallel.cpSize
  · have filled : ∃ tokens ∈ inputIds, tokens ≠ [] := by
      by_contra none
      push Not at none
      exact roll_without_slots inside many notEmpty none agrees
    refine Or.inr ⟨filled, ?_⟩
    obtain ⟨params, returned, padded, offsets⟩ : ∃ params, packedSeqParams parallel false
        (inputIds.map List.length) = .ok params ∧ _ := thd_params false notEmpty
    have plain : ∀ row ∈ paddedRows parallel false inputIds, Plain parallel row := paddedRows_all_plain
    obtain ⟨tokens, member, long⟩ := filled
    obtain ⟨rmpad, rolled, positions, saved, ran, _, wrotePositions⟩ :=
      preprocess_rolled inside rfl returned padded offsets (fun _ => slots_of_token inside member long)
    obtain ⟨_, tagged⟩ := preprocess_tagged inside returned padded offsets
    obtain ⟨slots, _, _, rolled', positions', tagged', ran', holds⟩ := agrees
    rw [tagged] at tagged'
    rw [ran] at ran'
    cases tagged'
    cases ran'
    intro tokens member
    by_contra further
    obtain ⟨index, named⟩ := List.mem_iff_getElem?.mp member
    have isRow := rows_getElem? parallel inputIds index
    rw [named, Option.map_some] at isRow
    have fits := (plain _ (List.mem_of_getElem? isRow)).fits
    have twice := fits.half many
    have whole := fits.chunks many
    have enough := fits.enough
    -- the last place of the first chunk holds a token that has a next one
    obtain ⟨place, boundary⟩ : ∃ place, chunkLength parallel tokens.length = place + 1 := by
      apply Nat.exists_eq_succ_of_ne_zero
      intro none
      change _ = chunkLength parallel tokens.length * (2 * parallel.cpSize) at whole
      rw [none, Nat.zero_mul] at whole further
      simp only at whole enough
      omega
    have isOrigin : origin parallel cpRank (tokens, tokens.length + padSize parallel.alignSize tokens.length) place + 1 =
        chunkLength parallel tokens.length * (cpRank + 1) := by
      rw [origin, if_pos many]
      change (if place < chunkLength parallel tokens.length then chunkLength parallel tokens.length * cpRank + place
        else chunkLength parallel tokens.length * (2 * parallel.cpSize - 1 - cpRank) +
          (place - chunkLength parallel tokens.length)) + 1 = _
      rw [if_pos (by omega), Nat.mul_succ]
      omega
    have within : place < (tokens.length + padSize parallel.alignSize tokens.length) / parallel.cpSize := by
      change _ = 2 * chunkLength parallel tokens.length at twice
      simp only at twice
      omega
    have token : origin parallel cpRank (tokens, tokens.length + padSize parallel.alignSize tokens.length) place <
        tokens.length := by omega
    have agreed := (holds _ index _ tokens (slot_of_token inside isRow within token) named (by omega)).2
    have same := positions_start inside plain index
    rw [boundary_position inside many plain saved wrotePositions isRow boundary, packedPositions, ← same,
      block_getElem? isRow (by rwa [localPositions_length fits inside]),
      localPositions_getElem? inside fits within token] at agreed
    simp at agreed
  · exact Or.inl (Nat.not_lt.mp many)

theorem roll_agrees_short : RollAgrees ⟨4, 2, by decide, by decide⟩ 0 [[10, 11, 12], [], [20]] :=
  (roll_agrees_iff (show 0 < (⟨4, 2, by decide, by decide⟩ : Parallel).cpSize by decide)).mpr (by decide)

end Agreement

/-- Five tokens on two ranks: the first rank holds tokens 0 and 1, then 6 and 7. After
the roll its second slot holds token 2, but at position 1. -/
theorem roll_disagrees : ¬ RollAgrees ⟨1, 2, by decide, by decide⟩ 0 [[100, 101, 102, 103, 104]] := by
  rintro ⟨slots, params, positions, rolled, rolledPositions, tagged, ran, holds⟩
  have slot : preprocessThdEngine ⟨1, 2, by decide, by decide⟩ 0 false false (tags [[100, 101, 102, 103, 104]]) = .ok
      ([.token 0 0, .token 0 1, .padding, .padding], ⟨[8], [0, 8], 8⟩, [0, 1, 0, 0]) := by rfl
  have roll : preprocessThdEngine ⟨1, 2, by decide, by decide⟩ 0 false true [[100, 101, 102, 103, 104]] = .ok
      ([101, 102, 0, 100], ⟨[8], [0, 8], 8⟩, [1, 1, 0, 0]) := by rfl
  rw [slot] at tagged
  rw [roll] at ran
  cases tagged
  cases ran
  exact absurd (holds 1 0 1 [100, 101, 102, 103, 104] rfl rfl (by decide)).2 (by decide)

end LLMFusion.Mcore
