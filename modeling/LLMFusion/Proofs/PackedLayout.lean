import LLMFusion.PackedSeqs
import LLMFusion.Lib.ZigZag

/-! Where the padded sequences of a packed batch lie. Both packing functions fill a
rank's buffer from the left with the rank's part of each sequence, and reading the
parts of all ranks at the same offsets gives back the sequence. -/

namespace LLMFusion.Mcore
open Slices ZigZag Fallible List

/-! ### Padded lengths -/

section Lengths
variable {parallel : Parallel}

theorem Parallel.alignSize_pos (parallel : Parallel) : 0 < parallel.alignSize := by
  have tp := parallel.tpPositive
  have cp := parallel.cpPositive
  rw [alignSize]
  split
  · exact Nat.mul_pos (Nat.mul_pos tp cp) (by decide)
  · exact tp

theorem padSize_lt {alignSize : Nat} (positive : 0 < alignSize) (length : Nat) :
    padSize alignSize length < alignSize := Nat.mod_lt _ positive

theorem padSize_dvd {alignSize : Nat} (positive : 0 < alignSize) (length : Nat) :
    alignSize ∣ length + padSize alignSize length := by
  have bound := Nat.mod_lt length positive
  have whole := Nat.div_add_mod length alignSize
  by_cases exact : length % alignSize = 0
  · simp [padSize, exact, Nat.dvd_of_mod_eq_zero exact]
  · rw [padSize, Nat.mod_eq_of_lt (by omega)]
    refine ⟨length / alignSize + 1, ?_⟩
    rw [Nat.mul_succ]
    omega

theorem addLast_cons {lengths : List Nat} (some : lengths ≠ []) (extra length : Nat) :
    addLast extra (length :: lengths) = length :: addLast extra lengths := by
  cases lengths with
  | nil => exact absurd rfl some
  | cons next lengths => rfl

@[simp] theorem addLast_length (extra : Nat) (lengths : List Nat) : (addLast extra lengths).length = lengths.length := by
  induction lengths using addLast.induct with
  | case1 => rfl
  | case2 last => rfl
  | case3 length next lengths ih =>
    rw [addLast, length_cons, ih]
    rfl

theorem addLast_zero (lengths : List Nat) : addLast 0 lengths = lengths := by
  induction lengths using addLast.induct with
  | case1 => rfl
  | case2 last => rfl
  | case3 length next lengths ih => rw [addLast, ih]

theorem cumsum_ne_nil (start : Nat) (lengths : List Nat) : cumsum start lengths ≠ [] := by
  cases lengths <;> simp [cumsum]

theorem cumsum_addLast {lengths : List Nat} (some : lengths ≠ []) (extra start : Nat) :
    addLast extra (cumsum start lengths) = cumsum start (addLast extra lengths) := by
  induction lengths using addLast.induct generalizing start with
  | case1 => exact absurd rfl some
  | case2 last => simp [cumsum, addLast, Nat.add_assoc]
  | case3 length next lengths ih =>
    rw [cumsum, addLast_cons (cumsum_ne_nil _ _), ih (by simp), addLast, cumsum]

theorem cumsum_getLastD (start : Nat) (lengths : List Nat) : (cumsum start lengths).getLastD 0 = start + lengths.sum := by
  induction lengths generalizing start with
  | nil => simp [cumsum]
  | cons length lengths ih =>
    rw [cumsum, sum_cons, ← Nat.add_assoc, ← ih (start + length)]
    cases lengths <;> rfl

theorem cumsum_getElem? (start : Nat) (lengths : List Nat) {index : Nat} (inside : index ≤ lengths.length) :
    (cumsum start lengths)[index]? = some (start + (lengths.take index).sum) := by
  induction lengths generalizing start index with
  | nil =>
    obtain rfl : index = 0 := by simpa using inside
    simp [cumsum]
  | cons length lengths ih =>
    cases index with
    | zero => simp [cumsum]
    | succ index =>
      rw [cumsum, getElem?_cons_succ, ih _ (by simpa using inside), take_succ_cons, sum_cons,
        Nat.add_assoc]

theorem addLast_forall₂ {relation : Nat → Nat → Prop} {lengths padded : List Nat} {extra : Nat}
    (related : List.Forall₂ relation lengths padded)
    (grows : ∀ length last, relation length last → relation length (last + extra)) :
    List.Forall₂ relation lengths (addLast extra padded) := by
  induction related with
  | nil => exact .nil
  | cons head tail ih =>
    cases tail with
    | nil => exact .cons (grows _ _ head) .nil
    | cons next tail => exact .cons head ih

/-- A padded length has room for the sequence, and for two equal chunks a rank. -/
structure Fits (parallel : Parallel) (length padded : Nat) : Prop where
  enough : length ≤ padded
  chunks : 1 < parallel.cpSize → padded = padded / parallel.cpSize / 2 * (2 * parallel.cpSize)

theorem Fits.of_dvd {length padded : Nat} (enough : length ≤ padded) (divides : parallel.alignSize ∣ padded) :
    Fits parallel length padded where
  enough := enough
  chunks many := by
    rw [Parallel.alignSize, if_pos many] at divides
    obtain ⟨count, rfl⟩ := divides
    have positive := parallel.cpPositive
    rw [show parallel.tpSize * parallel.cpSize * 2 * count =
        parallel.tpSize * count * 2 * parallel.cpSize by ring, Nat.mul_div_cancel _ positive,
      Nat.mul_div_cancel _ (by decide)]
    ring

theorem Fits.split {length padded : Nat} (fits : Fits parallel length padded) :
    padded = padded / parallel.cpSize * parallel.cpSize := by
  by_cases many : 1 < parallel.cpSize
  · have positive := parallel.cpPositive
    have whole := fits.chunks many
    generalize padded / parallel.cpSize / 2 = half at whole
    rw [whole, ← Nat.mul_assoc, Nat.mul_div_cancel _ positive]
  · have one : parallel.cpSize = 1 := by
      have := parallel.cpPositive
      omega
    simp [one]

theorem Fits.half {length padded : Nat} (fits : Fits parallel length padded) (many : 1 < parallel.cpSize) :
    padded / parallel.cpSize = 2 * (padded / parallel.cpSize / 2) := by
  have positive := parallel.cpPositive
  have whole := fits.chunks many
  generalize padded / parallel.cpSize / 2 = half at whole ⊢
  rw [whole, ← Nat.mul_assoc, Nat.mul_div_cancel _ positive, Nat.mul_comm]

theorem alignSize_dvd_perSeqAlign (parallel : Parallel) (useFp8Padding : Bool) :
    parallel.alignSize ∣ perSeqAlign parallel useFp8Padding := by
  cases useFp8Padding with
  | false => exact Nat.dvd_refl _
  | true => exact Nat.dvd_lcm_right _ _

theorem perSeqAlign_pos (parallel : Parallel) (useFp8Padding : Bool) : 0 < perSeqAlign parallel useFp8Padding := by
  cases useFp8Padding with
  | false => exact parallel.alignSize_pos
  | true => exact Nat.lcm_pos (by decide) parallel.alignSize_pos

/-- The extra padding of the last sequence. -/
def padSizeLast (parallel : Parallel) (useFp8Padding : Bool) (seqlens : List Nat) : Nat :=
  if useFp8Padding then padSize (computeFp8ThdAlignSize parallel.alignSize).2
    (seqlens.map (fun length => length + padSize (perSeqAlign parallel useFp8Padding) length)).sum
  else 0

def seqlensPadded (parallel : Parallel) (useFp8Padding : Bool) (seqlens : List Nat) : List Nat :=
  addLast (padSizeLast parallel useFp8Padding seqlens)
    (seqlens.map (fun length => length + padSize (perSeqAlign parallel useFp8Padding) length))

theorem packedSeqParams_ok {useFp8Padding : Bool} {seqlens : List Nat} (some : seqlens ≠ []) :
    ∃ params, packedSeqParams parallel useFp8Padding seqlens = .ok params ∧
      params.seqlensInBatchPadded = seqlensPadded parallel useFp8Padding seqlens ∧
      params.cuSeqlensPadded = cumsum 0 params.seqlensInBatchPadded := by
  have padded : seqlens.map (fun length => length + padSize (perSeqAlign parallel useFp8Padding) length) ≠ [] := by
    simpa using some
  have filled : seqlensPadded parallel useFp8Padding seqlens ≠ [] := by
    rw [← length_pos_iff, seqlensPadded, addLast_length]
    exact length_pos_iff.mpr padded
  obtain ⟨longest, isMax⟩ := Option.ne_none_iff_exists'.mp (mt max?_eq_none_iff.mp filled)
  refine ⟨⟨_, cumsum 0 (seqlensPadded parallel useFp8Padding seqlens), longest⟩, ?_, rfl, rfl⟩
  cases useFp8Padding with
  | false =>
    simp only [seqlensPadded, padSizeLast, Bool.false_eq_true, ite_false] at isMax ⊢
    simp only [packedSeqParams, Bool.false_eq_true, ite_false, Bool.false_and, isMax]
    rw [cumsum_addLast (by simpa using some)]
    rfl
  | true =>
    have notEmpty : seqlens.isEmpty = false := by simpa using some
    simp only [seqlensPadded, padSizeLast, ite_true] at isMax ⊢
    simp only [packedSeqParams, ite_true, cumsum_getLastD, Nat.zero_add, isMax, isEmpty_map, notEmpty,
      Bool.and_false, Bool.false_eq_true, ite_false]
    rw [cumsum_addLast (by simpa using some)]
    rfl

theorem alignSize_dvd_padSizeLast (parallel : Parallel) (useFp8Padding : Bool) (seqlens : List Nat) :
    parallel.alignSize ∣ padSizeLast parallel useFp8Padding seqlens := by
  cases useFp8Padding with
  | false => exact Nat.dvd_zero _
  | true =>
    rw [padSizeLast, if_pos rfl]
    have each : parallel.alignSize ∣
        (seqlens.map (fun length => length + padSize (perSeqAlign parallel true) length)).sum := by
      apply dvd_sum
      intro padded member
      obtain ⟨length, _, rfl⟩ := mem_map.mp member
      exact (alignSize_dvd_perSeqAlign parallel true).trans (padSize_dvd (perSeqAlign_pos parallel true) length)
    have positive : 0 < (computeFp8ThdAlignSize parallel.alignSize).2 :=
      Nat.mul_pos parallel.alignSize_pos (by decide)
    have total := padSize_dvd positive
      (seqlens.map (fun length => length + padSize (perSeqAlign parallel true) length)).sum
    exact (Nat.dvd_add_right each).mp ((Nat.dvd_mul_right _ _).trans total)

theorem seqlensPadded_fits (parallel : Parallel) (useFp8Padding : Bool) (seqlens : List Nat) :
    List.Forall₂ (Fits parallel) seqlens (seqlensPadded parallel useFp8Padding seqlens) := by
  have before : List.Forall₂ (fun length padded => length ≤ padded ∧ parallel.alignSize ∣ padded) seqlens
      (seqlens.map (fun length => length + padSize (perSeqAlign parallel useFp8Padding) length)) := by
    rw [forall₂_map_right_iff]
    refine forall₂_same.mpr (fun length _ => ⟨Nat.le_add_right _ _, ?_⟩)
    exact (alignSize_dvd_perSeqAlign parallel useFp8Padding).trans
      (padSize_dvd (perSeqAlign_pos parallel useFp8Padding) length)
  have extra := alignSize_dvd_padSizeLast parallel useFp8Padding seqlens
  have after := addLast_forall₂ before
    (fun length last holds => ⟨Nat.le_add_right_of_le holds.1, Nat.dvd_add holds.2 extra⟩)
  exact after.imp (fun _ _ holds => Fits.of_dvd holds.1 holds.2)

end Lengths

/-! ### The part of one rank -/

section Parts
variable {α β : Type} [Zero α] [Zero β] {parallel : Parallel}

def localPart (parallel : Parallel) (cpRank : Nat) (row : List α × Nat) : List α :=
  if 1 < parallel.cpSize then
    split parallel.cpSize (row.2 / parallel.cpSize / 2) cpRank (pad row.1 row.2)
  else pad row.1 row.2

def packed (parallel : Parallel) (cpRank : Nat) (rows : List (List α × Nat)) : List α :=
  rows.flatMap (localPart parallel cpRank)

variable {row : List α × Nat}

theorem pad_whole (fits : Fits parallel row.1.length row.2) (many : 1 < parallel.cpSize) :
    (pad row.1 row.2).length = row.2 / parallel.cpSize / 2 * (2 * parallel.cpSize) := by
  rw [pad_length fits.enough, ← fits.chunks many]

theorem localPart_length (fits : Fits parallel row.1.length row.2) {cpRank : Nat}
    (inside : cpRank < parallel.cpSize) : (localPart parallel cpRank row).length = row.2 / parallel.cpSize := by
  by_cases many : 1 < parallel.cpSize
  · rw [localPart, if_pos many, split_length inside (pad_whole fits many), ← fits.half many]
  · have one : parallel.cpSize = 1 := by omega
    rw [localPart, if_neg many, pad_length fits.enough, one, Nat.div_one]

theorem localPart_halves (fits : Fits parallel row.1.length row.2)
    (many : 1 < parallel.cpSize) {cpRank : Nat} (inside : cpRank < parallel.cpSize) :
    slice (localPart parallel cpRank row) 0 (row.2 / parallel.cpSize / 2) =
        ZigZag.chunk (row.2 / parallel.cpSize / 2) cpRank (pad row.1 row.2) ∧
      slice (localPart parallel cpRank row) (row.2 / parallel.cpSize / 2) (row.2 / parallel.cpSize) =
        ZigZag.chunk (row.2 / parallel.cpSize / 2) (2 * parallel.cpSize - 1 - cpRank) (pad row.1 row.2) := by
  obtain ⟨first, second⟩ := split_halves inside (pad_whole fits many)
  rw [← fits.half many] at second
  rw [localPart, if_pos many]
  exact ⟨first, second⟩

def paddedSum (rows : List (List α × Nat)) : Nat := (rows.map Prod.snd).sum

def FitsAll (parallel : Parallel) (rows : List (List α × Nat)) : Prop :=
  ∀ row ∈ rows, Fits parallel row.1.length row.2

variable {rows : List (List α × Nat)}

omit [Zero α] in
theorem paddedSum_split (fits : FitsAll parallel rows) :
    paddedSum rows = (rows.map (fun row => row.2 / parallel.cpSize)).sum * parallel.cpSize := by
  induction rows with
  | nil => simp [paddedSum]
  | cons row rows ih =>
    have rest := ih (fun other member => fits other (mem_cons_of_mem _ member))
    have whole := (fits row mem_cons_self).split
    simp only [paddedSum, map_cons, sum_cons, Nat.add_mul] at rest ⊢
    omega

omit [Zero α] in
theorem paddedSum_cons_div (fits : Fits parallel row.1.length row.2)
    (rows : List (List α × Nat)) : paddedSum (row :: rows) / parallel.cpSize =
      row.2 / parallel.cpSize + paddedSum rows / parallel.cpSize := by
  have whole := fits.split
  have total : paddedSum (row :: rows) = paddedSum rows + row.2 / parallel.cpSize * parallel.cpSize := by
    simp only [paddedSum, map_cons, sum_cons]
    omega
  rw [total, Nat.add_mul_div_right _ _ parallel.cpPositive, Nat.add_comm]

theorem packed_length (fits : FitsAll parallel rows) {cpRank : Nat} (inside : cpRank < parallel.cpSize) :
    (packed parallel cpRank rows).length * parallel.cpSize = paddedSum rows ∧
      (packed parallel cpRank rows).length = paddedSum rows / parallel.cpSize := by
  have each : (packed parallel cpRank rows).length = (rows.map (fun row => row.2 / parallel.cpSize)).sum := by
    rw [packed, length_flatMap]
    congr 1
    exact map_congr_left (fun row member => localPart_length (fits row member) inside)
  have total := paddedSum_split fits
  rw [each, total, Nat.mul_div_cancel _ parallel.cpPositive]
  exact ⟨rfl, rfl⟩

theorem packed_perm (fits : FitsAll parallel rows) :
    ((range parallel.cpSize).flatMap (fun rank => packed parallel rank rows)).Perm
      (rows.flatMap (fun row => pad row.1 row.2)) := by
  induction rows with
  | nil => simp [packed]
  | cons row rows ih =>
    have rest := ih (fun other member => fits other (mem_cons_of_mem _ member))
    have first : ((range parallel.cpSize).flatMap (fun rank => localPart parallel rank row)).Perm
        (pad row.1 row.2) := by
      by_cases many : 1 < parallel.cpSize
      · simp only [localPart, if_pos many]
        exact split_perm (pad_whole (fits row mem_cons_self) many)
      · have one : parallel.cpSize = 1 := by
          have := parallel.cpPositive
          omega
        simp [localPart, one]
    simp only [packed, flatMap_cons]
    exact (flatMap_append_perm _ _ _).symm.trans (first.append rest)

theorem packed_map {f : α → β} (zero : f 0 = 0) (cpRank : Nat) (rows : List (List α × Nat)) :
    packed parallel cpRank (rows.map (fun row => (row.1.map f, row.2))) = (packed parallel cpRank rows).map f := by
  have padded : ∀ row : List α × Nat, pad (row.1.map f) row.2 = (pad row.1 row.2).map f := by
    simp [pad, zero]
  rw [packed, packed, flatMap_map, map_flatMap]
  congr 1
  funext row
  simp only [localPart, padded, split_map]
  split <;> rfl

def paddedRows (parallel : Parallel) (useFp8Padding : Bool) (sequences : List (List α)) : List (List α × Nat) :=
  sequences.zip (seqlensPadded parallel useFp8Padding (sequences.map List.length))

omit [Zero α] in
theorem paddedRows_fst (parallel : Parallel) (useFp8Padding : Bool) (sequences : List (List α)) :
    (paddedRows parallel useFp8Padding sequences).map Prod.fst = sequences :=
  map_fst_zip (by simp [seqlensPadded])

omit [Zero α] in
theorem paddedRows_snd (parallel : Parallel) (useFp8Padding : Bool) (sequences : List (List α)) :
    (paddedRows parallel useFp8Padding sequences).map Prod.snd =
      seqlensPadded parallel useFp8Padding (sequences.map length) :=
  map_snd_zip (by simp [seqlensPadded])

omit [Zero α] in
theorem paddedRows_concat (parallel : Parallel) (useFp8Padding : Bool) (front : List (List α)) (last : List α) :
    paddedRows parallel useFp8Padding (front ++ [last]) = front.map (fun tokens => (tokens, tokens.length +
        padSize (perSeqAlign parallel useFp8Padding) tokens.length)) ++
      [(last, last.length + padSize (perSeqAlign parallel useFp8Padding) last.length +
        padSizeLast parallel useFp8Padding ((front ++ [last]).map length))] := by
  have concat : ∀ (extra : Nat) (lengths : List Nat) (length : Nat),
      addLast extra (lengths ++ [length]) = lengths ++ [length + extra] := by
    intro extra lengths length
    induction lengths with
    | nil => rfl
    | cons first lengths ih => rw [cons_append, addLast_cons (by simp), ih, cons_append]
  rw [paddedRows, seqlensPadded]
  generalize padSizeLast parallel useFp8Padding ((front ++ [last]).map length) = extra
  rw [map_append, map_append, map_singleton, map_singleton, concat, map_map,
    zip_append (by simp)]
  congr 1
  exact map_prod_left_eq_zip.symm

omit [Zero α] in
theorem paddedRows_fits (parallel : Parallel) (useFp8Padding : Bool) (sequences : List (List α)) :
    FitsAll parallel (paddedRows parallel useFp8Padding sequences) := by
  have fits := seqlensPadded_fits parallel useFp8Padding (sequences.map length)
  rw [forall₂_map_left_iff] at fits
  exact fun row member => forall₂_zip fits member

omit [Zero α] [Zero β] in
theorem paddedRows_map (f : α → β) (useFp8Padding : Bool) (sequences : List (List α)) :
    paddedRows parallel useFp8Padding (sequences.map (map f)) =
      (paddedRows parallel useFp8Padding sequences).map (fun row => (row.1.map f, row.2)) := by
  have lengths : (sequences.map (map f)).map length = sequences.map length := by
    simp [Function.comp_def]
  rw [paddedRows, lengths, zip_map_left]
  rfl

omit [Zero α] in
theorem setSlice_ok {items source result : List α} {start stop : Nat}
    (assigned : assign items start stop source = some result) : setSlice items start stop source = .ok result := by
  simp only [setSlice, assigned]

theorem setNonempty_ok (done : List α) {source : List α} {size blank length : Nat}
    (same : source.length = length) (fits : length ≤ size) (room : size ≤ blank) :
    setNonempty (done ++ replicate blank 0) done.length length source =
      .ok (done ++ pad source size ++ replicate (blank - size) 0) := by
  subst same
  rw [setNonempty]
  split
  · exact setSlice_ok (assign_blank done source fits room)
  next empty =>
    obtain rfl := length_eq_zero_iff.mp (Nat.eq_zero_of_not_pos empty)
    rw [pad, nil_append, append_assoc, replicate_append_replicate]
    congr
    simp only [length_nil]
    omega

/-- The iterations for some rows, from the padded length before them. -/
def entriesFrom (start : Nat) : List (List α × Nat) → List (Entry α)
  | [] => []
  | row :: rows => ⟨row.1, row.2, start⟩ :: entriesFrom (start + row.2) rows

omit [Zero α] in
theorem entriesFrom_append (start : Nat) (before after : List (List α × Nat)) :
    entriesFrom start (before ++ after) = entriesFrom start before ++ entriesFrom (start + paddedSum before) after := by
  induction before generalizing start with
  | nil => simp [entriesFrom, paddedSum]
  | cons row before ih => simp [entriesFrom, ih, paddedSum, Nat.add_assoc]

omit [Zero α] in
theorem entries_eq {params : PackedSeqParams} (padded : params.seqlensInBatchPadded = rows.map Prod.snd)
    (offsets : params.cuSeqlensPadded = cumsum 0 params.seqlensInBatchPadded) :
    params.entries (rows.map Prod.fst) = entriesFrom 0 rows := by
  rw [PackedSeqParams.entries, offsets, padded]
  generalize 0 = start
  clear padded offsets
  induction rows generalizing start with
  | nil => rfl
  | cons row rows ih => rw [map_cons, map_cons, cumsum, entriesFrom, ← ih]; rfl

omit [Zero α] in
/-- The rule for a packing loop: the invariant relates the rows written so far, the
rows to come and the buffers. -/
theorem packing_loop {σ : Type} {body : σ → Entry α → Except Failure σ} {failed : Failure → Prop}
    (invariant : List (List α × Nat) → List (List α × Nat) → σ → Prop)
    (step : ∀ done row rest state, Fits parallel row.1.length row.2 → FitsAll parallel done →
      invariant done (row :: rest) state →
        Yields failed (invariant (done ++ [row]) rest) (body state ⟨row.1, row.2, paddedSum done⟩))
    {done rest : List (List α × Nat)} {state : σ} (before : FitsAll parallel done) (after : FitsAll parallel rest)
    (holds : invariant done rest state) :
    Yields failed (invariant (done ++ rest) [])
      ((entriesFrom (paddedSum done) rest).foldlM body state) := by
  induction rest generalizing done state with
  | nil =>
    rw [append_nil]
    exact holds
  | cons row rest ih =>
    have head := after row mem_cons_self
    have grown : FitsAll parallel (done ++ [row]) := by
      intro other member
      rcases mem_append.mp member with member | member
      · exact before other member
      · exact mem_singleton.mp member ▸ head
    have offset : paddedSum (done ++ [row]) = paddedSum done + row.2 := by simp [paddedSum]
    rw [entriesFrom, foldlM_cons]
    apply (step done row rest state head before holds).bind
    intro next holds
    have tail := ih grown (fun other member => after other (mem_cons_of_mem _ member)) holds
    rwa [offset, append_assoc] at tail

end Parts

/-! ### Reading the parts back -/

section Unpack
variable {α β : Type} [Zero α] {parallel : Parallel}

theorem slice_packed (f : α → β) {before after : List (List α × Nat)} {row : List α × Nat}
    (fits : FitsAll parallel (before ++ row :: after)) {cpRank : Nat} (inside : cpRank < parallel.cpSize)
    (start stop : Nat) (bound : stop ≤ row.2 / parallel.cpSize) :
    slice ((packed parallel cpRank (before ++ row :: after)).map f) (paddedSum before / parallel.cpSize + start)
      (paddedSum before / parallel.cpSize + stop) = (slice (localPart parallel cpRank row) start stop).map f := by
  have earlier : FitsAll parallel before := fun other member => fits other (mem_append_left _ member)
  have fitsRow := fits row (by simp)
  rw [slice_map, ← (packed_length earlier inside).2, packed, flatMap_append, flatMap_cons]
  rw [packed, slice_shift, slice_append_left _ _ _ _ (by rw [localPart_length fitsRow inside]; exact bound)]

theorem unpackSequence_ok (f : α → β) (empty : Nat → β) {before after : List (List α × Nat)}
    {row : List α × Nat} (fits : FitsAll parallel (before ++ row :: after)) {outputList : Nat → List β}
    (outputs : ∀ rank < parallel.cpSize, outputList rank = (packed parallel rank (before ++ row :: after)).map f) :
    unpackSequence parallel.cpSize outputList empty (paddedSum before) (paddedSum before + row.2) row.1.length =
      .ok (row.1.map f) := by
  have fitsRow := fits row (by simp)
  have enough := fitsRow.enough
  by_cases many : 1 < parallel.cpSize
  · -- the loop writes both chunks of every rank to where they came from
    let items := (pad row.1 row.2).map f
    let half := row.2 / parallel.cpSize / 2
    have chunk : row.2 / parallel.cpSize = 2 * half := fitsRow.half many
    have length : items.length = row.2 := by rw [length_map, pad_length enough]
    have whole : items.length = half * (2 * parallel.cpSize) := by
      rw [length]
      exact fitsRow.chunks many
    have parts : ∀ rank < parallel.cpSize,
        slice (outputList rank) (paddedSum before / parallel.cpSize) (paddedSum before / parallel.cpSize + half) =
          ZigZag.chunk half rank items ∧
        slice (outputList rank) (paddedSum before / parallel.cpSize + half)
          (paddedSum before / parallel.cpSize + row.2 / parallel.cpSize) =
            ZigZag.chunk half (2 * parallel.cpSize - 1 - rank) items := by
      intro rank inside
      obtain ⟨first, second⟩ := localPart_halves fitsRow many inside
      have front := slice_packed f fits inside 0 half (by omega)
      have back := slice_packed f fits inside half (row.2 / parallel.cpSize) (Nat.le_refl _)
      rw [Nat.add_zero, first, ← chunk_map] at front
      rw [second, ← chunk_map] at back
      rw [outputs rank inside]
      exact ⟨front, back⟩
    have blank : ((range row.2).map empty).length = items.length := by simp [length]
    have loop : ∃ tmp, (range parallel.cpSize).foldlM (fun (tmp : List β) j => do
        let tmp ← setSlice tmp (j * half) ((j + 1) * half) (slice (outputList j)
          (paddedSum before / parallel.cpSize) (paddedSum before / parallel.cpSize + half))
        setSlice tmp (row.2 - (j + 1) * half) (row.2 - j * half) (slice (outputList j)
          (paddedSum before / parallel.cpSize + half)
          (paddedSum before / parallel.cpSize + row.2 / parallel.cpSize)))
        ((range row.2).map empty) = .ok tmp ∧ Assembled half items parallel.cpSize tmp := by
      apply foldlM_range (Assembled half items) _ (Assembled.start blank)
      intro rank inside state assembled
      obtain ⟨middle, next, first, second, assembled⟩ := assembled.step inside whole
      rw [length] at second
      refine ⟨next, ?_, assembled⟩
      rw [(parts rank inside).1, (parts rank inside).2, Nat.mul_comm rank, Nat.mul_comm (rank + 1),
        setSlice_ok first, ok_bind, setSlice_ok second]
    obtain ⟨tmp, written, assembled⟩ := loop
    have size : paddedSum before + row.2 - paddedSum before = row.2 := by omega
    have several : ¬ parallel.cpSize ≤ 1 := by omega
    simp only [unpackSequence, several, ite_false, size, ← fitsRow.split]
    rw [written, ok_bind, assembled.complete whole]
    simp only [items, slice_map, slice_pad_left _ _ _ _ (Nat.le_refl _), slice_full _ _ (Nat.le_refl _)]
    rfl
  · have small : parallel.cpSize ≤ 1 := by omega
    have one : parallel.cpSize = 1 := by
      have := parallel.cpPositive
      omega
    have front := slice_packed f fits (show 0 < parallel.cpSize by omega) 0 row.1.length
      (by rw [one, Nat.div_one]; exact enough)
    rw [one, Nat.div_one, Nat.add_zero, localPart, if_neg many, slice_pad_left _ _ _ _ (Nat.le_refl _),
      slice_full _ _ (Nat.le_refl _)] at front
    rw [unpackSequence, if_pos small, outputs 0 (by omega), front]

theorem unpackSequences_ok (f : α → β) (empty : Nat → β) {rows : List (List α × Nat)}
    (fits : FitsAll parallel rows) {params : PackedSeqParams}
    (offsets : params.cuSeqlensPadded = cumsum 0 (rows.map Prod.snd)) {outputList : Nat → List β}
    (outputs : ∀ rank < parallel.cpSize, outputList rank = (packed parallel rank rows).map f) :
    unpackSequences parallel outputList empty params ((rows.map Prod.fst).map length) =
      .ok ((rows.map Prod.fst).map (map f)) := by
  rw [map_map, map_map]
  change unpackSequences parallel outputList empty params (rows.map (fun row => row.1.length)) =
    .ok (rows.map (fun row => row.1.map f))
  have each : ∀ entry ∈ (rows.map (fun row => row.1.length)).zipIdx,
      unpackIndex parallel outputList empty params entry.1 entry.2 =
        .ok ((rows.map (fun row => row.1.map f)).getD entry.2 []) := by
    intro ⟨length, index⟩ member
    have named := mem_zipIdx_iff_getElem?.mp member
    have inside : index < rows.length := by
      by_contra outside
      simp [getElem?_eq_none (Nat.not_lt.mp outside)] at named
    have around : rows = rows.take index ++ rows[index] :: rows.drop (index + 1) := by
      rw [getElem_cons_drop, take_append_drop]
    obtain rfl : rows[index].1.length = length := by simpa [inside] using named
    have before : (rows.map Prod.snd).take index = (rows.take index).map Prod.snd := (map_take ..).symm
    have next : ((rows.map Prod.snd).take (index + 1)).sum = paddedSum (rows.take index) + rows[index].2 := by
      rw [take_succ_eq_append_getElem (by simpa using inside), before, sum_append, paddedSum]
      simp
    have stop : params.cuSeqlensPadded[index + 1]? = some (paddedSum (rows.take index) + rows[index].2) := by
      rw [offsets, cumsum_getElem? 0 _ (by simpa using inside), next, Nat.zero_add]
    have start : params.cuSeqlensPadded[index]? = some (paddedSum (rows.take index)) := by
      rw [offsets, cumsum_getElem? 0 _ (by simp; omega), before, Nat.zero_add, paddedSum]
    have unpacked := unpackSequence_ok f empty (around ▸ fits) (fun rank below => around ▸ outputs rank below)
    simp only [unpackIndex, start, stop, unpacked]
    simp [inside]
  rw [unpackSequences, mapM_map _ each]
  congr 1
  apply ext_getElem (by simp)
  intro index first second
  have inside : index < rows.length := by simpa using first
  simp [inside]

end Unpack

end LLMFusion.Mcore
