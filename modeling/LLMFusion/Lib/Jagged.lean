import LLMFusion.Lib.NdTensor

/-! Jagged tensors: samples that differ at most in the size of one dimension, one behind the other along it. -/

universe u

namespace Slices
open List
variable {α β : Type u} {part : β → List α} {rows : List β} {row : β} {index : Nat}

theorem slice_part (named : rows[index]? = some row) :
    slice (rows.flatMap part) (blockStart part rows index) (blockStart part rows (index + 1)) = part row := by
  obtain ⟨bound, rfl⟩ := List.getElem?_eq_some_iff.mp named
  have around : rows.flatMap part =
      (rows.take index).flatMap part ++ (part rows[index] ++ (rows.drop (index + 1)).flatMap part) := by
    rw [← List.flatMap_cons, List.getElem_cons_drop, ← List.flatMap_append, List.take_append_drop]
  have shifted := slice_shift ((rows.take index).flatMap part) (part rows[index] ++ (rows.drop (index + 1)).flatMap part)
    0 (part rows[index]).length
  rw [blockStart_succ part named, around]
  exact shifted.trans ((slice_append_left _ _ _ _ (Nat.le_refl _)).trans (slice_full _ _ (Nat.le_refl _)))

end Slices

namespace NdTensor
open List
open Slices

variable {α : Type u} {dim : Nat} {x y z : NdTensor α} {xs : List (NdTensor α)}

theorem cat_shape (joins : cat (x :: xs) dim = some z) :
    dim < x.shape.length ∧ z.shape = x.shape.set dim ((x :: xs).map (size · dim)).sum := by
  obtain ⟨fits, same⟩ := Option.dite_none_right_eq_some.mp joins
  cases Option.some.inj same
  exact ⟨fits.1, rfl⟩

theorem cat_inside (joins : cat xs dim = some z) : dim < z.shape.length := by
  cases xs with
  | nil => cases joins
  | cons x xs =>
    obtain ⟨inside, shape⟩ := cat_shape joins
    rw [shape, length_set]
    exact inside

theorem cat_size (joins : cat xs dim = some z) : z.size dim = (xs.map (size · dim)).sum := by
  cases xs with
  | nil => cases joins
  | cons x xs =>
    obtain ⟨inside, shape⟩ := cat_shape joins
    rw [size, shape, getD_set inside]

/-- Where a sample starts. -/
def startOf (lengths : List Nat) (index : Nat) : Nat := (lengths.take index).sum

@[simp] theorem startOf_zero (lengths : List Nat) : startOf lengths 0 = 0 := rfl

theorem startOf_le (lengths : List Nat) (index : Nat) : startOf lengths index ≤ startOf lengths (index + 1) := by
  rw [startOf, startOf, take_add_one, sum_append]
  exact Nat.le_add_right _ _

theorem startOf_succ {lengths : List Nat} {index length : Nat} (named : lengths[index]? = some length) :
    startOf lengths (index + 1) = startOf lengths index + length := by
  rw [startOf, startOf, take_add_one, sum_append, named]
  simp

theorem startOf_all (lengths : List Nat) : startOf lengths lengths.length = lengths.sum := by
  rw [startOf, take_length]

theorem startOf_inside (lengths : List Nat) (index : Nat) : startOf lengths index ≤ lengths.sum := by
  conv_rhs => rw [← take_append_drop index lengths, sum_append]
  exact Nat.le_add_right _ _

theorem piece_cat (joins : cat xs dim = some z) (inside : dim < z.shape.length) {index : Nat} (named : xs[index]? = some y) :
    z.piece dim (startOf (xs.map (size · dim)) index) (startOf (xs.map (size · dim)) (index + 1)) inside = y := by
  cases xs with
  | nil => cases joins
  | cons x xs =>
    obtain ⟨fits, same⟩ := Option.dite_none_right_eq_some.mp joins
    cases Option.some.inj same
    have alike : ∀ y ∈ x :: xs, Alike dim x y := forall_mem_cons.mpr ⟨.self dim x, fits.2⟩
    have own := alike y (mem_of_getElem? named)
    have length : ((x :: xs).map (size · dim))[index]? = some (y.size dim) := by rw [List.getElem?_map, named]; rfl
    have next := startOf_succ length
    have covered : startOf ((x :: xs).map (size · dim)) (index + 1) ≤ (joined x xs dim fits.1 fits.2).size dim := by
      rw [cat_size joins]
      exact startOf_inside _ _
    have shape : ((joined x xs dim fits.1 fits.2).piece dim (startOf ((x :: xs).map (size · dim)) index)
        (startOf ((x :: xs).map (size · dim)) (index + 1)) inside).shape = y.shape := by
      rw [piece_shape, Nat.min_eq_left covered, next, Nat.add_sub_cancel_left, joined_shape, set_set, ← own.shape, size,
        set_size (own.rank ▸ fits.1)]
    apply ext_rows (by rw [shape]; exact own.rank ▸ fits.1) shape
    intro place here
    rw [shape, own.outer] at here
    have inner' : NdTensor.inner (joined x xs dim fits.1 fits.2).shape dim = NdTensor.inner x.shape dim := inner_set _ _ _
    have starts : ∀ index, startOf ((x :: xs).map (size · dim)) index * NdTensor.inner x.shape dim =
        blockStart (row · dim place) (x :: xs) index := by
      intro index
      rw [startOf, blockStart, length_flatMap, ← map_take, ← sum_map_mul_right]
      apply congrArg sum
      apply map_congr_left
      intro y member
      have same := alike y (mem_of_mem_take member)
      rw [row_length (same.rank ▸ fits.1) (same.outer ▸ here), width, same.inner, size]
    rw [piece_row (by rw [joined_shape, outer_set]; exact here), joined_row here, inner', starts, starts]
    exact slice_part named

/-! ### Padding -/

/-- A tensor with entries behind it along a dimension, up to a size. -/
def padTo (x : NdTensor α) (dim wide : Nat) (fill : α) (inside : dim < x.shape.length) : NdTensor α :=
  ofRows (x.shape.set dim (x.size dim + (wide - x.size dim))) dim (by rw [List.length_set]; exact inside)
    (fun place => x.row dim place ++ List.replicate ((wide - x.size dim) * inner x.shape dim) fill)
    (by
      intro place here
      rw [outer_set] at here
      rw [List.length_append, List.length_replicate, row_length inside here, width_set inside, width, Nat.add_mul, size])

section Padding
variable {wide : Nat} {fill : α} {inside : dim < x.shape.length}

@[simp] theorem padTo_shape : (x.padTo dim wide fill inside).shape = x.shape.set dim (x.size dim + (wide - x.size dim)) := rfl

theorem padTo_row {place : Nat} (here : place < outer x.shape dim) : (x.padTo dim wide fill inside).row dim place =
    x.row dim place ++ replicate ((wide - x.size dim) * inner x.shape dim) fill := by
  apply row_ofRows
  rw [outer_set]
  exact here

theorem padTo_full (full : wide = x.size dim) : x.padTo dim wide fill inside = x := by
  have shape : (x.padTo dim wide fill inside).shape = x.shape := by
    rw [padTo_shape, full, Nat.sub_self, Nat.add_zero, size, set_size inside]
  apply ext_rows (by rw [shape]; exact inside) shape
  intro place here
  rw [shape] at here
  rw [padTo_row here, full, Nat.sub_self, Nat.zero_mul, replicate_zero, append_nil]

theorem piece_padTo (inside' : dim < (x.padTo dim wide fill inside).shape.length) :
    (x.padTo dim wide fill inside).piece dim 0 (x.size dim) inside' = x := by
  have shape : ((x.padTo dim wide fill inside).piece dim 0 (x.size dim) inside').shape = x.shape := by
    have padded : (x.padTo dim wide fill inside).size dim = x.size dim + (wide - x.size dim) := by
      rw [size, padTo_shape, getD_set inside]
    rw [piece_shape, padded, Nat.min_eq_left (Nat.le_add_right _ _), Nat.sub_zero, padTo_shape, set_set, size,
      set_size inside]
  apply ext_rows (by rw [shape]; exact inside) shape
  intro place here
  rw [shape] at here
  have inner' : inner (x.padTo dim wide fill inside).shape dim = inner x.shape dim := inner_set _ _ _
  have length : (x.row dim place).length = x.size dim * inner x.shape dim := row_length inside here
  rw [piece_row (by rw [padTo_shape, outer_set]; exact here), padTo_row here, inner', Nat.zero_mul,
    slice_append_left _ _ _ _ (Nat.le_of_eq length.symm), slice_full _ _ (Nat.le_of_eq length)]

end Padding

end NdTensor

/-! ### Samples -/

/-- The samples as they lie behind each other. -/
@[ext] structure Jagged (α : Type u) where
  values : NdTensor α
  lengths : List Nat
  dim : Nat
  inside : dim < values.shape.length
  whole : lengths.sum = values.size dim
  present : lengths ≠ []

namespace Jagged
open List
open NdTensor Slices
variable {α : Type u} {tensor : Jagged α} {tensors : List (NdTensor α)} {dim : Nat}

/-- `offsets()` -/
def offsets (tensor : Jagged α) : List Nat := (List.range (tensor.lengths.length + 1)).map (startOf tensor.lengths)

def sample (tensor : Jagged α) (index : Nat) : NdTensor α :=
  tensor.values.piece tensor.dim (startOf tensor.lengths index) (startOf tensor.lengths (index + 1)) tensor.inside

theorem inside_sample (tensor : Jagged α) (index : Nat) : tensor.dim < (tensor.sample index).shape.length := by
  rw [sample, piece_shape, length_set]
  exact tensor.inside

def samples (tensor : Jagged α) : List (NdTensor α) := (List.range tensor.lengths.length).map tensor.sample

def ofSamples (tensors : List (NdTensor α)) (dim : Nat) : Option (Jagged α) :=
  match joins : cat tensors dim with
  | none => none
  | some values => some {
      values := values
      lengths := tensors.map (size · dim)
      dim := dim
      inside := cat_inside joins
      whole := (cat_size joins).symm
      present := by
        rintro empty
        rw [List.map_eq_nil_iff.mp empty] at joins
        cases joins }

@[simp] theorem samples_length (tensor : Jagged α) : tensor.samples.length = tensor.lengths.length := by
  rw [samples, length_map, length_range]

theorem sample_size {index length : Nat} (named : tensor.lengths[index]? = some length) :
    (tensor.sample index).size tensor.dim = length := by
  have next := startOf_succ named
  have covered : startOf tensor.lengths (index + 1) ≤ tensor.values.size tensor.dim := by
    rw [← tensor.whole]
    exact startOf_inside _ _
  rw [sample, piece_size, Nat.min_eq_left covered, next, Nat.add_sub_cancel_left]

theorem samples_sizes (tensor : Jagged α) : tensor.samples.map (size · tensor.dim) = tensor.lengths := by
  apply ext_getElem?
  intro index
  rw [samples, map_map, List.getElem?_map]
  by_cases inside : index < tensor.lengths.length
  · rw [List.getElem?_range inside, List.getElem?_eq_getElem inside, Option.map_some]
    exact congrArg some (sample_size (List.getElem?_eq_getElem inside))
  · rw [List.getElem?_eq_none (by rw [length_range]; omega), List.getElem?_eq_none (by omega)]
    rfl

theorem ofSamples_eq_some {joined : Jagged α} (made : ofSamples tensors dim = some joined) :
    cat tensors dim = some joined.values ∧ joined.lengths = tensors.map (size · dim) ∧ joined.dim = dim := by
  unfold ofSamples at made
  split at made
  · cases made
  · next values joins =>
    cases made
    exact ⟨joins, rfl, rfl⟩

theorem samples_ofSamples {joined : Jagged α} (made : ofSamples tensors dim = some joined) : joined.samples = tensors := by
  obtain ⟨joins, lengths, rfl⟩ := ofSamples_eq_some made
  apply ext_getElem?
  intro index
  rw [samples, List.getElem?_map, lengths, length_map]
  by_cases inside : index < tensors.length
  · rw [List.getElem?_range inside, List.getElem?_eq_getElem inside, Option.map_some, sample, lengths]
    exact congrArg some (piece_cat joins _ (List.getElem?_eq_getElem inside))
  · rw [List.getElem?_eq_none (by rw [length_range]; omega), List.getElem?_eq_none (by omega)]
    rfl

theorem ofSamples_samples (tensor : Jagged α) : ofSamples tensor.samples tensor.dim = some tensor := by
  have last : tensor.values.size tensor.dim ≤ startOf tensor.lengths tensor.lengths.length := by
    rw [startOf_all, tensor.whole]
  have joins : cat tensor.samples tensor.dim = some tensor.values :=
    cat_pieces tensor.inside (startOf_le tensor.lengths) rfl (length_pos_iff.mpr tensor.present) last
  unfold ofSamples
  split
  · next none =>
    rw [joins] at none
    cases none
  · next values some =>
    rw [joins] at some
    cases some
    exact congrArg _ (Jagged.ext rfl (samples_sizes tensor) rfl)

theorem alike_samples {first second : NdTensor α} (isFirst : first ∈ tensor.samples) (isSecond : second ∈ tensor.samples) :
    Alike tensor.dim first second := by
  obtain ⟨i, _, rfl⟩ := mem_map.mp isFirst
  obtain ⟨j, _, rfl⟩ := mem_map.mp isSecond
  rw [Alike, sample, sample, piece_shape, piece_shape, set_set, set_set]

theorem sample_inside {sample : NdTensor α} (member : sample ∈ tensor.samples) : tensor.dim < sample.shape.length := by
  obtain ⟨i, _, rfl⟩ := mem_map.mp member
  exact tensor.inside_sample i

theorem ofSamples_some (chosen : ∀ sample ∈ tensors, sample ∈ tensor.samples) (filled : tensors ≠ []) :
    ∃ joined, ofSamples tensors tensor.dim = some joined := by
  obtain ⟨first, rest, rfl⟩ := exists_cons_of_ne_nil filled
  obtain ⟨isFirst, others⟩ := forall_mem_cons.mp chosen
  have joins := cat_eq_some (sample_inside isFirst) (fun other member => alike_samples isFirst (others other member))
  unfold ofSamples
  split
  · next none =>
    rw [joins] at none
    cases none
  · exact ⟨_, rfl⟩

end Jagged
