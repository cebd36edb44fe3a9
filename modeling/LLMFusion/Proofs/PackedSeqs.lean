import LLMFusion.Proofs.PackedLayout

/-! Packing a padded batch and unpacking the outputs is the function of each attended
token at its place, for all lengths, masks and world sizes. -/

namespace LLMFusion.Mcore
open List hiding mapM_map Vector
open Slices ZigZag Fallible

section Pack
variable {α β : Type} [Zero α] {parallel : Parallel}

theorem chunk_pad (tokens : List α) {size count index padded : Nat} (whole : padded = size * count)
    (inside : index < count) : chunk size index (pad tokens padded) =
      pad (slice tokens (size * index) (min (size * (index + 1)) tokens.length)) size := by
  have bound := Nat.mul_le_mul_left size (Nat.succ_le_of_lt inside)
  rw [chunk, slice_pad _ (Nat.mul_le_mul_left size (Nat.le_succ index)) (by omega), Nat.mul_succ,
    Nat.add_sub_cancel_left]

theorem packSequence_ok {cpRank : Nat} (inside : cpRank < parallel.cpSize) {row : List α × Nat}
    (fits : Fits parallel row.1.length row.2) (done : List α) (blank : Nat) :
    packSequence parallel cpRank (done ++ replicate (row.2 / parallel.cpSize + blank) 0)
        ⟨row.1, row.2, done.length * parallel.cpSize⟩ =
      .ok (done ++ localPart parallel cpRank row ++ replicate blank 0) := by
  have enough := fits.enough
  by_cases many : 1 < parallel.cpSize
  · obtain ⟨half, isHalf⟩ : ∃ half, row.2 / parallel.cpSize / 2 = half := ⟨_, rfl⟩
    have start : done.length * parallel.cpSize / parallel.cpSize = done.length :=
      Nat.mul_div_cancel _ parallel.cpPositive
    have whole := fits.chunks many
    have twice := fits.half many
    rw [isHalf] at whole twice
    obtain ⟨mirror, mirrorEnd, _, _⟩ := mirror_bound half inside
    have ends : half * (cpRank + 1) = half * cpRank + half := Nat.mul_succ half cpRank
    have first := chunk_pad row.1 whole (show cpRank < 2 * parallel.cpSize by omega)
    have second := chunk_pad row.1 whole (show 2 * parallel.cpSize - 1 - cpRank < 2 * parallel.cpSize by omega)
    rw [← whole] at mirror mirrorEnd
    rw [mirror, mirrorEnd] at second
    have front := slice_length row.1 (half * cpRank) (min (half * (cpRank + 1)) row.1.length)
    have back := slice_length row.1 (row.2 - half * (cpRank + 1)) (min (row.2 - half * cpRank) row.1.length)
    rw [Nat.min_assoc, Nat.min_self] at front back
    have written := setNonempty_ok done front (show _ ≤ half by omega)
      (show half ≤ row.2 / parallel.cpSize + blank by omega)
    rw [← first] at written
    have length : (done ++ chunk half cpRank (pad row.1 row.2)).length = done.length + half := by
      rw [first, length_append, pad_length (by omega)]
    have written' := setNonempty_ok (done ++ chunk half cpRank (pad row.1 row.2)) back
      (show _ ≤ half by omega) (show half ≤ row.2 / parallel.cpSize + blank - half by omega)
    rw [length, ← second] at written'
    have left : row.2 / parallel.cpSize + blank - half - half = blank := by omega
    simp only [packSequence, show ¬ parallel.cpSize ≤ 1 by omega, ite_false, start, isHalf]
    rw [written, ok_bind, written', left, localPart, if_pos many, split, isHalf]
    simp only [append_assoc]
  · have one : parallel.cpSize = 1 := by omega
    have written := assign_blank done row.1 enough (show row.2 ≤ row.2 / parallel.cpSize + blank by
      rw [one, Nat.div_one]
      omega)
    simp only [packSequence, show parallel.cpSize ≤ 1 by omega, ite_true]
    rw [one, Nat.mul_one]
    rw [one] at written
    rw [setSlice_ok written, localPart, if_neg many, Nat.div_one, Nat.add_sub_cancel_left]

theorem packSequences_ok {cpRank : Nat} (inside : cpRank < parallel.cpSize) {params : PackedSeqParams}
    {rows : List (List α × Nat)} (padded : params.seqlensInBatchPadded = rows.map Prod.snd)
    (offsets : params.cuSeqlensPadded = cumsum 0 params.seqlensInBatchPadded) (fits : FitsAll parallel rows) :
    (params.entries (rows.map Prod.fst)).foldlM (packSequence parallel cpRank)
        (replicate (params.seqlensInBatchPadded.sum / parallel.cpSize) 0) = .ok (packed parallel cpRank rows) := by
  have start : replicate (params.seqlensInBatchPadded.sum / parallel.cpSize) (0 : α) =
      packed parallel cpRank [] ++ replicate (paddedSum rows / parallel.cpSize) 0 := by
    simp [packed, padded, paddedSum]
  obtain ⟨final, written, holds⟩ := yields_ok.mp (packing_loop
    (fun done rest buffer => buffer = packed parallel cpRank done ++
      replicate (paddedSum rest / parallel.cpSize) (0 : α))
    (by
      intro done row rest buffer fitsRow fitsDone holds
      have written := packSequence_ok inside fitsRow (packed parallel cpRank done) (paddedSum rest / parallel.cpSize)
      rw [(packed_length fitsDone inside).1, ← paddedSum_cons_div fitsRow, ← holds] at written
      exact yields_ok.mpr ⟨_, written, by simp [packed]⟩)
    (show FitsAll parallel [] by simp [FitsAll]) fits start)
  rw [entries_eq padded offsets]
  rw [show paddedSum ([] : List (List α × Nat)) = 0 from rfl] at written
  rw [written, holds]
  simp [paddedSum]

end Pack

/-! ### Masks -/

/-- What a slot of a packed buffer holds: padding, or the token of a row and column. -/
inductive Slot where
  | padding
  | token (i t : Nat)
  deriving DecidableEq

instance : Zero Slot := ⟨.padding⟩

def Slot.read {α : Type} [Zero α] (inputIds : Nat → Nat → α) : Slot → α
  | .padding => 0
  | .token i t => inputIds i t

section Masks
variable {α β : Type}

theorem attended_map (f : α → β) (row : Nat → α) (mask : List Bool) :
    (attended row mask).map f = attended (fun t => f (row t)) mask := by
  rw [attended, attended, map_filterMap]
  congr 1
  funext entry
  split <;> rfl

private theorem attendedFrom_length (row : Nat → α) (mask : List Bool) (start : Nat) :
    ((mask.zipIdx start).filterMap (fun entry => if entry.1 then some (row entry.2) else none)).length =
      mask.count true := by
  induction mask generalizing start with
  | nil => rfl
  | cons on mask ih => cases on <;> simp [zipIdx_cons, ih (start + 1)]

theorem attended_length (row : Nat → α) (mask : List Bool) : (attended row mask).length = mask.count true :=
  attendedFrom_length row mask 0

/-- Values at the attended places, zeros elsewhere. -/
def maskedRow [Zero β] (row : Nat → β) (mask : List Bool) : List β :=
  mask.zipIdx.map (fun entry => if entry.1 then row entry.2 else 0)

theorem setMasked_attended [Zero β] (row : Nat → β) (mask : List Bool) :
    setMasked mask (attended row mask) = .ok (maskedRow row mask) := by
  have filled : ∀ (mask : List Bool) (start : Nat),
      fillMask mask ((mask.zipIdx start).filterMap (fun entry => if entry.1 then some (row entry.2) else none)) =
        some ((mask.zipIdx start).map (fun entry => if entry.1 then row entry.2 else 0)) := by
    intro mask
    induction mask with
    | nil => simp [fillMask]
    | cons on mask ih =>
      intro start
      cases on <;> simp [zipIdx_cons, fillMask, ih (start + 1)]
  rw [setMasked, attended, filled mask 0, maskedRow]

theorem count_attended (k i t : Nat) (mask : List Bool) :
    (attended (Slot.token k) mask).count (.token i t) = if k = i ∧ mask[t]? = some true then 1 else 0 := by
  have counted : ∀ (mask : List Bool) (start : Nat),
      ((mask.zipIdx start).filterMap (fun entry => if entry.1 then some (Slot.token k entry.2) else none)).count
        (.token i t) = if k = i ∧ start ≤ t ∧ mask[t - start]? = some true then 1 else 0 := by
    intro mask
    induction mask with
    | nil => simp
    | cons on mask ih =>
      intro start
      have rest := ih (start + 1)
      by_cases here : start = t
      · subst here
        rw [if_neg (by omega)] at rest
        cases on <;> simp [zipIdx_cons, rest]
        split <;> simp_all
      · by_cases later : start ≤ t
        · have shift : t - start = (t - (start + 1)) + 1 := by omega
          rw [shift, getElem?_cons_succ]
          simp only [show start + 1 ≤ t by omega, true_and] at rest
          cases on <;> simp [zipIdx_cons, rest, here, later]
        · rw [if_neg (by omega)] at rest
          cases on <;> simp [zipIdx_cons, rest, here, later]
  simpa [attended] using counted mask 0

theorem count_rows {seqLen : Nat} (attentionMask : List (Vector Bool seqLen)) (i t : Nat) :
    ((attentionMask.zipIdx.map (fun row => attended (Slot.token row.2) row.1.toList)).map
      (count (.token i t))).sum =
      if (attentionMask[i]?.bind (fun mask => mask.toList[t]?)) = some true then 1 else 0 := by
  have counted : ∀ (masks : List (Vector Bool seqLen)) (start : Nat),
      (((masks.zipIdx start).map (fun row => attended (Slot.token row.2) row.1.toList)).map
        (count (.token i t))).sum =
        if start ≤ i ∧ (masks[i - start]?.bind (fun mask => mask.toList[t]?)) = some true then 1 else 0 := by
    intro masks
    induction masks with
    | nil => simp
    | cons mask masks ih =>
      intro start
      have rest := ih (start + 1)
      simp only [zipIdx_cons, map_cons, sum_cons, count_attended]
      rw [rest]
      by_cases here : start = i
      · subst here
        simp
      · by_cases later : start ≤ i
        · have shift : i - start = (i - (start + 1)) + 1 := by omega
          rw [shift, getElem?_cons_succ]
          simp [here, later, show start + 1 ≤ i by omega]
        · simp [here, later, show ¬ start + 1 ≤ i by omega]
  simpa using counted attentionMask 0

theorem count_padded (rows : List (List Slot × Nat)) (i t : Nat) :
    (rows.flatMap (fun row => pad row.1 row.2)).count (.token i t) =
      ((rows.map Prod.fst).map (count (.token i t))).sum := by
  induction rows with
  | nil => rfl
  | cons row rows ih =>
    have zeros : (replicate (row.2 - row.1.length) (0 : Slot)).count (.token i t) = 0 :=
      count_eq_zero.mpr (fun member => by cases (eq_of_mem_replicate member))
    rw [flatMap_cons, count_append, ih, pad, count_append, zeros]
    rfl

end Masks

section Batch
variable {α β : Type} {seqLen : Nat}

def sequences (attentionMask : List (Vector Bool seqLen)) (inputIds : Nat → Nat → α) : List (List α) :=
  attentionMask.zipIdx.map (fun row => attended (inputIds row.2) row.1.toList)

theorem sequences_map (f : α → β) (attentionMask : List (Vector Bool seqLen)) (inputIds : Nat → Nat → α) :
    (sequences attentionMask inputIds).map (map f) = sequences attentionMask (fun i t => f (inputIds i t)) := by
  simp only [sequences, map_map, Function.comp_def, attended_map]

theorem sequences_length (attentionMask : List (Vector Bool seqLen)) (inputIds : Nat → Nat → α) :
    (sequences attentionMask inputIds).map length = attentionMask.map (fun mask => mask.toList.count true) := by
  have firsts : attentionMask.zipIdx.map Prod.fst = attentionMask := zipIdx_map_fst ..
  nth_rewrite 2 [← firsts]
  simp only [sequences, map_map, Function.comp_def, attended_length]

end Batch

/-- Every batch with a row is packed on every rank without a mismatched slice, each
attended token lies in exactly one slot, and unpacking a function of the slots gives
the function of each attended token at its place and zero elsewhere. -/
theorem packed_seqs_round_trip (parallel : Parallel) (useFp8Padding : Bool) {seqLen : Nat}
    (attentionMask : List (Vector Bool seqLen)) (rows : attentionMask ≠ []) :
    ∃ (slots : Nat → List Slot) (params : PackedSeqParams),
      (∀ (α : Type) [Zero α] (inputIds : Nat → Nat → α), ∀ cpRank < parallel.cpSize,
        preprocessPackedSeqs parallel cpRank useFp8Padding inputIds attentionMask =
          .ok ((slots cpRank).map (Slot.read inputIds), params)) ∧
      (∀ i t, ((List.range parallel.cpSize).flatMap slots).count (.token i t) =
        if (attentionMask[i]?.bind (fun mask => mask.toList[t]?)) = some true then 1 else 0) ∧
      ∀ (α β : Type) [Zero α] [Zero β] (inputIds : Nat → Nat → α) (f : α → β) (empty : Nat → β)
        (outputList : Nat → List β),
        (∀ cpRank < parallel.cpSize,
          outputList cpRank = ((slots cpRank).map (Slot.read inputIds)).map f) →
        postprocessPackedSeqs parallel outputList empty params attentionMask =
          .ok (attentionMask.zipIdx.map (fun row => maskedRow (fun t => f (inputIds row.2 t)) row.1.toList)) := by
  obtain ⟨params, counted, padded, offsets⟩ : ∃ params, packedSeqParams parallel useFp8Padding
      (attentionMask.map (fun mask => mask.toList.count true)) = .ok params ∧ _ :=
    packedSeqParams_ok (by simpa using rows)
  have tokenRows : ∀ (α : Type) (inputIds : Nat → Nat → α), params.seqlensInBatchPadded =
      (paddedRows parallel useFp8Padding (sequences attentionMask inputIds)).map Prod.snd := by
    intro α inputIds
    rw [padded, paddedRows_snd, sequences_length]
  have read : ∀ (α : Type) [Zero α] (inputIds : Nat → Nat → α) (cpRank : Nat),
      packed parallel cpRank (paddedRows parallel useFp8Padding (sequences attentionMask inputIds)) =
        (packed parallel cpRank (paddedRows parallel useFp8Padding (sequences attentionMask Slot.token))).map
          (Slot.read inputIds) := by
    intro α _ inputIds cpRank
    rw [← packed_map (f := Slot.read inputIds) rfl, ← paddedRows_map, sequences_map]
    rfl
  refine ⟨fun cpRank => packed parallel cpRank (paddedRows parallel useFp8Padding
    (sequences attentionMask Slot.token)), params, ?_, ?_, ?_⟩
  · intro α _ inputIds cpRank inside
    have written := packSequences_ok inside (tokenRows α inputIds) offsets (paddedRows_fits _ _ _)
    rw [paddedRows_fst, read] at written
    simp only [preprocessPackedSeqs, counted, ok_bind]
    rw [show attentionMask.zipIdx.map (fun row => attended (inputIds row.2) row.1.toList) =
      sequences attentionMask inputIds from rfl, written]
    rfl
  · intro i t
    rw [(packed_perm (paddedRows_fits parallel useFp8Padding _)).count_eq, count_padded,
      paddedRows_fst, sequences, count_rows]
  · intro α β _ _ inputIds f empty outputList outputs
    have fits := paddedRows_fits parallel useFp8Padding (sequences attentionMask inputIds)
    have unpacked := unpackSequences_ok f empty fits
      (offsets.trans (congrArg (cumsum 0) (tokenRows α inputIds)))
      (fun rank inside => (outputs rank inside).trans (congrArg (List.map f) (read α inputIds rank).symm))
    rw [paddedRows_fst, sequences_length, sequences_map] at unpacked
    have firsts : attentionMask.zipIdx.map Prod.fst = attentionMask := List.zipIdx_map_fst ..
    have paired : attentionMask.zip (sequences attentionMask (fun i t => f (inputIds i t))) =
        attentionMask.zipIdx.map (fun row => (row.1, attended (fun t => f (inputIds row.2 t)) row.1.toList)) := by
      nth_rewrite 1 [← firsts]
      exact List.zip_map' ..
    simp only [postprocessPackedSeqs, unpacked, ok_bind, paired, List.mapM_map]
    exact mapM_map _ (fun row _ => setMasked_attended (fun t => f (inputIds row.2 t)) row.1.toList)

/-- Two ranks and two rows, with the extra padding of the last row. -/
theorem packed_seqs_two : ∃ (slots : Nat → List Slot) (params : PackedSeqParams),
    (∀ (α : Type) [Zero α] (inputIds : Nat → Nat → α), ∀ cpRank < 2,
      preprocessPackedSeqs ⟨1, 2, by decide, by decide⟩ cpRank true inputIds
        [#v[true, true, false, true], #v[false, false, true, false]] =
          .ok ((slots cpRank).map (Slot.read inputIds), params)) ∧
    ((List.range 2).flatMap slots).count (.token 0 3) = 1 := by
  obtain ⟨slots, params, packs, once, _⟩ := packed_seqs_round_trip ⟨1, 2, by decide, by decide⟩ true
    [#v[true, true, false, true], #v[false, false, true, false]] (by decide)
  exact ⟨slots, params, packs, once 0 3⟩

end LLMFusion.Mcore
