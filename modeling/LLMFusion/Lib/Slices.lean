import Mathlib.Data.List.Basic

/-! Slices of a list and assignments to a slice. A buffer that is filled from the
left is what is written, followed by the rest of the blank it started as. -/

namespace Slices
open List

universe u v
variable {α : Type u} {β : Type v}

def slice (items : List α) (start stop : Nat) : List α := (items.take stop).drop start

/-- `items[start:stop] = source`. The bounds are clipped; a source of another
length is refused. -/
def assign (items : List α) (start stop : Nat) (source : List α) : Option (List α) :=
  let first := min start items.length
  let last := max first (min stop items.length)
  if source.length = last - first then some (items.take first ++ source ++ items.drop last) else none

/-- `items[start:stop] = value` -/
def fill (items : List α) (start stop : Nat) (value : α) : List α :=
  items.take start ++ List.replicate (min stop items.length - start) value ++ items.drop (max start stop)

variable {start stop : Nat}

theorem fill_getElem? (items : List α) (value : α) (inside : start ≤ items.length) (index : Nat) :
    (fill items start stop value)[index]? =
      if start ≤ index ∧ index < stop ∧ index < items.length then some value else items[index]? := by
  have front : (items.take start).length = start := length_take_of_le inside
  rw [fill, append_assoc]
  by_cases early : index < start
  · rw [List.getElem?_append_left (by omega), List.getElem?_take_of_lt early, if_neg (by omega)]
  · rw [List.getElem?_append_right (by omega), front]
    by_cases filled : index < stop ∧ index < items.length
    · rw [List.getElem?_append_left (by rw [length_replicate]; omega), List.getElem?_replicate,
        if_pos (by omega), if_pos (by omega)]
    · rw [List.getElem?_append_right (by rw [length_replicate]; omega), length_replicate, List.getElem?_drop,
        if_neg (by omega)]
      by_cases within : index < items.length
      · congr 1
        omega
      · rw [List.getElem?_eq_none (by omega), List.getElem?_eq_none (by omega)]

theorem slice_length (items : List α) (start stop : Nat) :
    (slice items start stop).length = min stop items.length - start := by
  simp [slice]

theorem slice_getElem? (items : List α) (start stop index : Nat) :
    (slice items start stop)[index]? = if start + index < stop then items[start + index]? else none := by
  simp only [slice, List.getElem?_drop, List.getElem?_take]

theorem slice_map (f : α → β) (items : List α) (start stop : Nat) :
    slice (items.map f) start stop = (slice items start stop).map f := by
  simp [slice]

@[simp] theorem slice_full (items : List α) (stop : Nat) (whole : items.length ≤ stop) : slice items 0 stop = items := by
  simp [slice, take_of_length_le whole]

theorem slice_shift (before items : List α) (start stop : Nat) :
    slice (before ++ items) (before.length + start) (before.length + stop) = slice items start stop := by
  simp [slice, take_append, drop_append]

theorem slice_append_left (items after : List α) (start stop : Nat) (inside : stop ≤ items.length) :
    slice (items ++ after) start stop = slice items start stop := by
  rw [slice, take_append_of_le_length inside, slice]

theorem slice_append_slice (items : List α) {first second third : Nat} (before : first ≤ second)
    (after : second ≤ third) : slice items first second ++ slice items second third = slice items first third := by
  apply ext_getElem?
  intro index
  rw [List.getElem?_append, slice_length, slice_getElem?, slice_getElem?, slice_getElem?]
  by_cases inside : index < min second items.length - first
  · simp [inside, show first + index < second by omega, show first + index < third by omega]
  · simp only [inside, ite_false]
    by_cases stops : items.length ≤ second
    · have outside : items[first + index]? = none ∨ ¬ first + index < third := by
        by_cases short : first + index < items.length
        · omega
        · exact Or.inl (List.getElem?_eq_none (by omega))
      have past : items[second + (index - (min second items.length - first))]? = none :=
        List.getElem?_eq_none (by omega)
      rcases outside with outside | outside <;> simp [past, outside]
    · have same : second + (index - (min second items.length - first)) = first + index := by omega
      rw [same]

theorem filterMap_range' (items : List α) (start size : Nat) :
    (range' start size).filterMap (fun place => items[place]?) = slice items start (start + size) := by
  induction size generalizing start with
  | zero => simp [slice]
  | succ size ih =>
    have single : slice items start (start + 1) = items[start]?.toList := by
      rw [slice, take_add_one]
      by_cases inside : start < items.length
      · rw [drop_append_of_le_length (by rw [length_take]; omega), drop_eq_nil_of_le (by rw [length_take]; omega)]
        rfl
      · rw [List.getElem?_eq_none (Nat.not_lt.mp inside), drop_eq_nil_of_le (by rw [length_append, length_take, Option.toList_none, length_nil]; omega)]
        rfl
    rw [range'_succ, filterMap_cons, ih, ← slice_append_slice items (Nat.le_succ start) (by omega), single,
      Nat.add_right_comm start 1 size, Nat.add_assoc start size 1]
    cases items[start]? <;> rfl

theorem assign_middle (before middle after source : List α) (same : source.length = middle.length) :
    assign (before ++ middle ++ after) before.length (before.length + middle.length) source =
      some (before ++ source ++ after) := by
  have first : min before.length (before ++ middle ++ after).length = before.length := by simp
  have last : max before.length (min (before.length + middle.length) (before ++ middle ++ after).length) =
      (before ++ middle).length := by simp
  simp only [assign, first, last]
  rw [if_pos (by simp [same]), drop_left, append_assoc before middle after, take_left]

theorem assign_spec {items source : List α} (ordered : start ≤ stop)
    (inside : stop ≤ items.length) (same : source.length = stop - start) :
    ∃ result, assign items start stop source = some result ∧ result.length = items.length ∧
      ∀ index, result[index]? =
        if start ≤ index ∧ index < stop then source[index - start]? else items[index]? := by
  refine ⟨items.take start ++ source ++ items.drop stop, ?_, ?_, ?_⟩
  · simp only [assign, Nat.min_eq_left inside, Nat.min_eq_left (Nat.le_trans ordered inside),
      Nat.max_eq_right ordered, same, ite_true]
  · simp only [length_append, length_take, length_drop]
    omega
  · intro index
    simp only [List.getElem?_append, length_append, length_take, List.getElem?_take,
      List.getElem?_drop, Nat.min_eq_left (Nat.le_trans ordered inside), same]
    by_cases before : index < start
    · simp [before, show index < start + (stop - start) by omega, show ¬ start ≤ index by omega]
    · by_cases within : index < stop
      · simp [before, within, show index < start + (stop - start) by omega, show start ≤ index by omega]
      · simp [within, show ¬ index < start + (stop - start) by omega,
          show stop + (index - (start + (stop - start))) = index by omega]

theorem assign_copied {source blank : List α} (same : blank.length = source.length)
    (ordered : start ≤ stop) (inside : stop ≤ source.length) :
    assign (source.take start ++ blank.drop start) start stop (slice source start stop) =
      some (source.take stop ++ blank.drop stop) := by
  have middle : blank.drop start = slice blank start stop ++ blank.drop stop := by
    rw [slice, ← drop_append_of_le_length (by simp; omega), take_append_drop]
  have written := assign_middle (source.take start) (slice blank start stop) (blank.drop stop) (slice source start stop)
    (by rw [slice_length, slice_length, same])
  have front : (source.take start).length = start := length_take_of_le (by omega)
  have back : start + (slice blank start stop).length = stop := by rw [slice_length]; omega
  have further : source.take start ++ slice source start stop = source.take stop := by
    have whole := slice_append_slice source (Nat.zero_le start) ordered
    simpa only [slice, drop_zero] using whole
  rwa [front, back, further, append_assoc, ← middle] at written

theorem assign_slices {items source : List α} (ordered : start ≤ stop) (inside : stop ≤ items.length)
    (same : source.length = stop - start) :
    ∃ result, assign items start stop source = some result ∧ result.length = items.length ∧
      slice result start stop = source ∧ ∀ first last, last ≤ start → slice result first last = slice items first last := by
  obtain ⟨result, written, length, entries⟩ := assign_spec ordered inside same
  refine ⟨result, written, length, ?_, ?_⟩
  · apply ext_getElem?
    intro index
    rw [slice_getElem?, entries]
    by_cases within : start + index < stop
    · rw [if_pos within, if_pos (by omega), Nat.add_sub_cancel_left]
    · rw [if_neg within, List.getElem?_eq_none (by omega)]
  · intro first last before
    apply ext_getElem?
    intro index
    rw [slice_getElem?, slice_getElem?]
    by_cases within : first + index < last
    · rw [if_pos within, if_pos within, entries, if_neg (by omega)]
    · rw [if_neg within, if_neg within]

theorem assign_eq_none {items source : List α} (ordered : start ≤ stop)
    (inside : stop ≤ items.length) (different : source.length ≠ stop - start) :
    assign items start stop source = none := by
  simp only [assign, Nat.min_eq_left inside, Nat.min_eq_left (Nat.le_trans ordered inside),
    Nat.max_eq_right ordered, different, ite_false]

/-! ### Parts laid out one behind the other -/

section Blocks
variable {part : β → List α} {rows : List β} {row : β} {index : Nat}

/-- Where the part of a row starts. -/
def blockStart (part : β → List α) (rows : List β) (index : Nat) : Nat := ((rows.take index).flatMap part).length

@[simp] theorem blockStart_zero (part : β → List α) (rows : List β) : blockStart part rows 0 = 0 := by
  simp [blockStart]

theorem blockStart_succ (part : β → List α) (named : rows[index]? = some row) :
    blockStart part rows (index + 1) = blockStart part rows index + (part row).length := by
  rw [blockStart, take_add_one, named]
  simp [blockStart]

theorem blockStart_mono {later : Nat} (ordered : index ≤ later) :
    blockStart part rows index ≤ blockStart part rows later := by
  obtain ⟨more, rfl⟩ := Nat.exists_eq_add_of_le ordered
  rw [blockStart, blockStart, take_add, flatMap_append, length_append]
  exact Nat.le_add_right _ _

theorem blockStart_le (part : β → List α) (rows : List β) (index : Nat) :
    blockStart part rows index ≤ (rows.flatMap part).length := by
  conv_rhs => rw [← take_append_drop index rows, flatMap_append, length_append]
  exact Nat.le_add_right _ _

theorem blockStart_append (more : List β) (inside : index ≤ rows.length) :
    blockStart part (rows ++ more) index = blockStart part rows index := by
  rw [blockStart, take_append_of_le_length inside, blockStart]

theorem block_getElem? (named : rows[index]? = some row) {place : Nat} (inside : place < (part row).length) :
    (rows.flatMap part)[blockStart part rows index + place]? = (part row)[place]? := by
  obtain ⟨bound, rfl⟩ := List.getElem?_eq_some_iff.mp named
  have around : rows.flatMap part =
      (rows.take index).flatMap part ++ (part rows[index] ++ (rows.drop (index + 1)).flatMap part) := by
    rw [← List.flatMap_cons, List.getElem_cons_drop, ← List.flatMap_append, List.take_append_drop]
  rw [around, blockStart, List.getElem?_append_right (Nat.le_add_right _ _), Nat.add_sub_cancel_left,
    List.getElem?_append_left inside]

theorem exists_block {place : Nat} {item : α} (found : (rows.flatMap part)[place]? = some item) :
    ∃ index row inner, rows[index]? = some row ∧ place = blockStart part rows index + inner ∧
      (part row)[inner]? = some item := by
  induction rows generalizing place with
  | nil => simp at found
  | cons row rows ih =>
    by_cases first : place < (part row).length
    · rw [flatMap_cons, List.getElem?_append_left first] at found
      exact ⟨0, row, place, rfl, by simp, found⟩
    · rw [flatMap_cons, List.getElem?_append_right (Nat.not_lt.mp first)] at found
      obtain ⟨index, other, inner, named, located, here⟩ := ih found
      refine ⟨index + 1, other, inner, by simpa using named, ?_, here⟩
      simp only [blockStart, take_succ_cons, flatMap_cons, length_append] at located ⊢
      omega

theorem block_apart (part : β → List α) {row' : β} {index' size place : Nat} (named : rows[index]? = some row)
    (named' : rows[index']? = some row') (within : place + 1 < (part row).length) (bound : size ≤ (part row').length)
    (same : blockStart part rows index' + size = blockStart part rows index + (place + 1)) :
    index' = index ∧ size = place + 1 := by
  have next := blockStart_succ part named
  have next' := blockStart_succ part named'
  rcases Nat.lt_trichotomy index' index with before | rfl | after
  · have apart : blockStart part rows (index' + 1) ≤ blockStart part rows index := blockStart_mono before
    omega
  · exact ⟨rfl, by omega⟩
  · have apart : blockStart part rows (index + 1) ≤ blockStart part rows index' := blockStart_mono after
    omega

theorem blockStart_congr {γ δ : Type*} {part' : γ → List δ} {rows' : List γ}
    (same : rows.map (fun row => (part row).length) = rows'.map (fun row => (part' row).length)) :
    blockStart part rows index = blockStart part' rows' index := by
  rw [blockStart, blockStart, length_flatMap, length_flatMap, map_take, map_take, same]

/-- Something holds of a row and of where it starts. -/
def AtBlock (part : β → List α) (rows : List β) (holds : Nat → β → Prop) : Prop :=
  ∃ index row, rows[index]? = some row ∧ holds (blockStart part rows index) row

theorem AtBlock.append {holds : Nat → β → Prop} (here : AtBlock part rows holds) (more : List β) :
    AtBlock part (rows ++ more) holds := by
  obtain ⟨index, row, named, holds⟩ := here
  have inside := (List.getElem?_eq_some_iff.mp named).1
  refine ⟨index, row, by rw [List.getElem?_append_left inside, named], ?_⟩
  rwa [blockStart_append more (Nat.le_of_lt inside)]

theorem AtBlock.last {holds : Nat → β → Prop} (here : holds (rows.flatMap part).length row) :
    AtBlock part (rows ++ [row]) holds := by
  refine ⟨rows.length, row, by simp, ?_⟩
  rwa [blockStart_append [row] (Nat.le_refl _), blockStart, take_length]

end Blocks

/-! ### Filling a blank buffer -/

section Blank
variable [Zero α]

/-- The items followed by zeros up to the given length. -/
def pad (items : List α) (length : Nat) : List α := items ++ List.replicate (length - items.length) 0

theorem pad_length {items : List α} {length : Nat} (short : items.length ≤ length) :
    (pad items length).length = length := by
  simp [pad]; omega

theorem pad_exact {items : List α} {length : Nat} (exact : items.length = length) : pad items length = items := by
  simp [pad, exact]

theorem pad_getElem? (items : List α) (length index : Nat) :
    (pad items length)[index]? =
      if index < items.length then items[index]? else if index < length then some 0 else none := by
  simp only [pad, List.getElem?_append, List.getElem?_replicate]
  split
  · rfl
  · split <;> split <;> first | rfl | omega

theorem slice_pad_left (items : List α) (length start stop : Nat) (inside : stop ≤ items.length) :
    slice (pad items length) start stop = slice items start stop := slice_append_left _ _ _ _ inside

theorem slice_pad (items : List α) {length start stop : Nat} (ordered : start ≤ stop) (inside : stop ≤ length) :
    slice (pad items length) start stop = pad (slice items start (min stop items.length)) (stop - start) := by
  apply ext_getElem?
  intro index
  rw [slice_getElem?, pad_getElem?, pad_getElem?, slice_getElem?, slice_length, Nat.min_assoc, Nat.min_self]
  by_cases within : start + index < stop
  · by_cases token : start + index < items.length
    · simp [within, token, show index < min stop items.length - start by omega,
        show start + index < min stop items.length by omega]
    · simp [within, token, show ¬ index < min stop items.length - start by omega,
        show start + index < length by omega, show index < stop - start by omega]
  · simp [within, show ¬ index < min stop items.length - start by omega, show ¬ index < stop - start by omega]

theorem assign_blank (done source : List α) {size blank : Nat} (fits : source.length ≤ size)
    (room : size ≤ blank) :
    assign (done ++ replicate blank 0) done.length (done.length + source.length) source =
      some (done ++ pad source size ++ replicate (blank - size) 0) := by
  have split : done ++ replicate blank (0 : α) =
      done ++ replicate source.length 0 ++ replicate (blank - source.length) 0 := by
    rw [append_assoc, replicate_append_replicate, Nat.add_sub_cancel' (Nat.le_trans fits room)]
  have written := assign_middle done (replicate source.length 0)
    (replicate (blank - source.length) 0) source (by simp)
  rw [length_replicate] at written
  rw [split, written, pad, append_assoc, append_assoc, append_assoc,
    replicate_append_replicate]
  simp only [Option.some.injEq, append_cancel_left_eq]
  congr 1
  omega

theorem assign_blank_all {source : List α} {length : Nat} (whole : source.length = length) :
    assign (replicate length 0) 0 length source = some source := by
  have written := assign_blank [] source (Nat.le_of_eq whole) (Nat.le_refl length)
  rw [pad_exact whole] at written
  simpa [whole] using written

end Blank

/-! ### Blocks of one length -/

section Blocks
variable {part : β → List α} {length : Nat}

theorem take_flatMap {rows : List β} (lengths : ∀ row ∈ rows, (part row).length = length) (count : Nat) :
    (rows.flatMap part).take (count * length) = (rows.take count).flatMap part := by
  induction rows generalizing count with
  | nil => simp
  | cons row rows ih =>
    rw [forall_mem_cons] at lengths
    cases count with
    | zero => simp
    | succ count =>
      have rest : (count + 1) * length - length = count * length := by rw [Nat.succ_mul, Nat.add_sub_cancel]
      rw [flatMap_cons, take_succ_cons, flatMap_cons, take_append, lengths.1, rest, ih lengths.2,
        take_of_length_le (by rw [lengths.1]; exact Nat.le_mul_of_pos_left _ (Nat.succ_pos count))]

theorem drop_flatMap {rows : List β} (lengths : ∀ row ∈ rows, (part row).length = length) (count : Nat) :
    (rows.flatMap part).drop (count * length) = (rows.drop count).flatMap part := by
  induction rows generalizing count with
  | nil => simp
  | cons row rows ih =>
    rw [forall_mem_cons] at lengths
    cases count with
    | zero => simp
    | succ count =>
      have rest : (count + 1) * length - length = count * length := by rw [Nat.succ_mul, Nat.add_sub_cancel]
      rw [flatMap_cons, drop_succ_cons, drop_append, lengths.1, rest, ih lengths.2,
        drop_eq_nil_of_le (by rw [lengths.1]; exact Nat.le_mul_of_pos_left _ (Nat.succ_pos count)), nil_append]

theorem slice_flatMap {rows : List β} (lengths : ∀ row ∈ rows, (part row).length = length) (start stop : Nat) :
    slice (rows.flatMap part) (start * length) (stop * length) = (slice rows start stop).flatMap part := by
  rw [slice, take_flatMap lengths, drop_flatMap (fun row member => lengths row (mem_of_mem_take member)), slice]

theorem slice_block {rows : List β} {index : Nat} {block : β} (lengths : ∀ row ∈ rows, (part row).length = length)
    (named : rows[index]? = some block) : slice (rows.flatMap part) (index * length) ((index + 1) * length) = part block := by
  obtain ⟨inside, rfl⟩ := List.getElem?_eq_some_iff.mp named
  rw [slice_flatMap lengths, slice, List.take_add_one, List.getElem?_eq_getElem inside, List.drop_append_of_le_length
    (by rw [List.length_take]; omega), List.drop_eq_nil_of_le (by rw [List.length_take]; omega)]
  simp

end Blocks

end Slices
