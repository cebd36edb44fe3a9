import LLMFusion.Lib.NdTensor
import Mathlib.Tactic.Ring

/-! Entries of a tensor by their indices. What is done along one dimension leaves the indices of
the others alone, so that two operations along different dimensions commute. -/

universe u
variable {α : Type u}

namespace NdTensor
open Slices List

/-! ### Indices -/

/-- The place in memory of an index: the last dimension is the fastest. -/
def flat : List Nat → List Nat → Nat
  | _ :: shape, place :: index => place * shape.prod + flat shape index
  | _, _ => 0

/-- An index of a shape. -/
def Within (shape index : List Nat) : Prop := List.Forall₂ (· < ·) index shape

section Indices
variable {shape index : List Nat} {dim : Nat}

theorem flat_lt (within : Within shape index) : flat shape index < shape.prod := by
  induction within with
  | nil => exact Nat.one_pos
  | @cons place size index shape first _ ih =>
    have block : (place + 1) * shape.prod ≤ size * shape.prod := Nat.mul_le_mul_right _ first
    rw [flat, prod_cons]
    rw [Nat.succ_mul] at block
    omega

theorem exists_index {place : Nat} (inside : place < shape.prod) : ∃ index, Within shape index ∧ flat shape index = place := by
  induction shape generalizing place with
  | nil => exact ⟨[], .nil, (Nat.lt_one_iff.mp inside).symm⟩
  | cons size shape ih =>
    rw [prod_cons] at inside
    have positive : 0 < shape.prod := Nat.pos_of_mul_pos_left (Nat.lt_of_le_of_lt (Nat.zero_le _) inside)
    obtain ⟨index, within, rest⟩ := ih (Nat.mod_lt place positive)
    refine ⟨place / shape.prod :: index, .cons ?_ within, ?_⟩
    · exact (Nat.div_lt_iff_lt_mul positive).mpr inside
    · rw [flat, rest, Nat.mul_comm]
      exact Nat.div_add_mod _ _

theorem flat_split (within : Within shape index) (inside : dim < shape.length) :
    flat shape index = flat (shape.take dim) (index.take dim) * width shape dim +
      (index.getD dim 0 * inner shape dim + flat (shape.drop (dim + 1)) (index.drop (dim + 1))) := by
  induction within generalizing dim with
  | nil => cases inside
  | @cons place size index shape _ _ ih =>
    cases dim with
    | zero => simp [flat, inner]
    | succ dim =>
      have parts : shape.prod = outer shape dim * width shape dim := prod_rows (Nat.lt_of_succ_lt_succ inside)
      have later : width (size :: shape) (dim + 1) = width shape dim := rfl
      have block : inner (size :: shape) (dim + 1) = inner shape dim := rfl
      rw [flat, ih (Nat.lt_of_succ_lt_succ inside), parts, later, block, take_succ_cons, take_succ_cons, flat,
        drop_succ_cons, drop_succ_cons, getD_cons_succ, outer]
      ring

theorem Within.row (within : Within shape index) (dim : Nat) : flat (shape.take dim) (index.take dim) < outer shape dim :=
  flat_lt (forall₂_take dim within)

theorem Within.size (within : Within shape index) (inside : dim < shape.length) : index.getD dim 0 < shape.getD dim 0 := by
  have inside' : dim < index.length := within.length_eq ▸ inside
  rw [getD_eq_getElem?_getD, getD_eq_getElem?_getD, getElem?_eq_getElem inside, getElem?_eq_getElem inside']
  exact within.get inside' inside

theorem Within.rest (within : Within shape index) (dim : Nat) :
    flat (shape.drop (dim + 1)) (index.drop (dim + 1)) < inner shape dim := flat_lt (forall₂_drop (dim + 1) within)

theorem Within.block (within : Within shape index) (inside : dim < shape.length) :
    index.getD dim 0 * inner shape dim + flat (shape.drop (dim + 1)) (index.drop (dim + 1)) < width shape dim := by
  have rest := within.rest dim
  have block : (index.getD dim 0 + 1) * inner shape dim ≤ width shape dim := Nat.mul_le_mul_right _ (within.size inside)
  rw [Nat.succ_mul] at block
  omega

end Indices

/-! ### Entries -/

variable {x y : NdTensor α} {dim : Nat} {index : List Nat}

def entry (x : NdTensor α) (index : List Nat) : Option α := x.data[flat x.shape index]?

theorem ext_entries (shapes : x.shape = y.shape) (entries : ∀ index, Within x.shape index → x.entry index = y.entry index) :
    x = y := by
  have data : x.data = y.data := by
    apply ext_getElem?
    intro place
    by_cases inside : place < x.shape.prod
    · obtain ⟨index, within, rfl⟩ := exists_index inside
      have same := entries index within
      rwa [entry, entry, ← shapes] at same
    · rw [getElem?_eq_none (by rw [x.sized]; omega), getElem?_eq_none (by rw [y.sized, ← shapes]; omega)]
  exact NdTensor.ext shapes data

theorem entry_row (within : Within x.shape index) (inside : dim < x.shape.length) :
    x.entry index = (x.row dim (flat (x.shape.take dim) (index.take dim)))[index.getD dim 0 * inner x.shape dim +
      flat (x.shape.drop (dim + 1)) (index.drop (dim + 1))]? := by
  have block := within.block inside
  rw [entry, flat_split within inside, row, slice_getElem?, Nat.succ_mul, if_pos (Nat.add_lt_add_left block _)]

theorem Within.set {shape : List Nat} {size place : Nat} (within : Within (shape.set dim size) index)
    (bound : place < shape.getD dim 0) : Within shape (index.set dim place) := by
  apply forall₂_iff_get.mpr
  have lengths : index.length = shape.length := by rw [within.length_eq, length_set]
  refine ⟨by rw [length_set, lengths], ?_⟩
  intro other first second
  rw [length_set] at first
  simp only [get_eq_getElem, getElem_set]
  by_cases here : dim = other
  · subst here
    rw [getD_eq_getElem?_getD, getElem?_eq_getElem second] at bound
    rw [if_pos rfl]
    exact bound
  · have old := within.get first (by rw [length_set]; exact second)
    simp only [get_eq_getElem, getElem_set, if_neg here] at old
    rw [if_neg here]
    exact old

theorem entry_piece {start stop : Nat} {inside : dim < x.shape.length}
    (within : Within (x.piece dim start stop inside).shape index) :
    (x.piece dim start stop inside).entry index = x.entry (index.set dim (start + index.getD dim 0)) := by
  have inside' : dim < (x.piece dim start stop inside).shape.length := by rw [piece_shape, length_set]; exact inside
  have bound := within.size inside'
  rw [piece_shape, getD_set inside] at bound
  have there : Within x.shape (index.set dim (start + index.getD dim 0)) := by
    rw [piece_shape] at within
    exact within.set (by rw [size] at bound; omega)
  have length : dim < index.length := within.length_eq ▸ inside'
  have here := within.row dim
  have block := within.block inside'
  rw [piece_shape, inner_set, width_set inside, drop_set_of_lt (Nat.lt_succ_self dim)] at block
  rw [piece_shape, outer_set, take_set_of_le (Nat.le_refl dim)] at here
  rw [entry_row within inside', entry_row there inside, piece_shape, take_set_of_le (Nat.le_refl dim),
    take_set_of_le (Nat.le_refl dim), piece_row here, slice_getElem?, inner_set, getD_set length,
    drop_set_of_lt (Nat.lt_succ_self dim), drop_set_of_lt (Nat.lt_succ_self dim), Nat.add_mul, if_pos, Nat.add_assoc]
  have fits : (min stop (x.size dim) - start) * inner x.shape dim ≤ stop * inner x.shape dim - start * inner x.shape dim := by
    rw [← Nat.sub_mul]
    exact Nat.mul_le_mul_right _ (by omega)
  omega

/-! ### Filling up a dimension -/

/-- `torch.full(shape, value)` -/
def full (shape : List Nat) (value : α) : NdTensor α := ⟨shape, List.replicate shape.prod value, List.length_replicate⟩

/-- The tensor with another value from a bound of a dimension on. -/
def fillFrom (x : NdTensor α) (dim bound : Nat) (value : α) (inside : dim < x.shape.length) : NdTensor α :=
  ofRows x.shape dim inside
    (fun place => (x.row dim place).take (bound * inner x.shape dim) ++
      List.replicate ((x.size dim - bound) * inner x.shape dim) value)
    (by
      intro place here
      rw [List.length_append, List.length_take, row_length inside here, List.length_replicate, width,
        Nat.mul_min_mul_right, ← Nat.add_mul, size]
      congr 1
      omega)

theorem full_row {shape : List Nat} (inside : dim < shape.length) {place : Nat} (here : place < outer shape dim) (value : α) :
    (full shape value).row dim place = replicate (width shape dim) value := by
  have length := @row_length _ _ (full shape value) inside _ here
  apply eq_replicate_iff.mpr
  refine ⟨length, ?_⟩
  intro item member
  exact eq_of_mem_replicate (mem_of_mem_take (mem_of_mem_drop member))

theorem fillFrom_row {bound : Nat} {value : α} {inside : dim < x.shape.length} {place : Nat} (here : place < outer x.shape dim) :
    (x.fillFrom dim bound value inside).row dim place = (x.row dim place).take (bound * inner x.shape dim) ++
      replicate ((x.size dim - bound) * inner x.shape dim) value := row_ofRows here

theorem fillFrom_shape {bound : Nat} {value : α} {inside : dim < x.shape.length} :
    (x.fillFrom dim bound value inside).shape = x.shape := rfl

theorem fillFrom_congr {bound : Nat} {value : α} (same : x = y) (inside : dim < x.shape.length) (inside' : dim < y.shape.length) :
    x.fillFrom dim bound value inside = y.fillFrom dim bound value inside' := by
  subst same
  rfl

theorem cat_full (inside : dim < x.shape.length) {bound : Nat} (within : bound ≤ x.size dim) (value : α) :
    cat [x.piece dim 0 bound inside, full (x.shape.set dim (x.size dim - bound)) value] dim =
      some (x.fillFrom dim bound value inside) := by
  have inside' : dim < (x.piece dim 0 bound inside).shape.length := by rw [piece_shape, length_set]; exact inside
  have alike : ∀ y ∈ [full (x.shape.set dim (x.size dim - bound)) value], Alike dim (x.piece dim 0 bound inside) y := by
    intro y member
    rw [mem_singleton] at member
    rw [member, Alike, piece_shape, full, set_set, set_set]
  have shape : (joined (x.piece dim 0 bound inside) _ dim inside' alike).shape = (x.fillFrom dim bound value inside).shape := by
    have rest : (full (x.shape.set dim (x.size dim - bound)) value).size dim = x.size dim - bound := getD_set inside _
    rw [joined_shape, piece_shape, set_set, map_cons, map_singleton, sum_cons, sum_singleton, piece_size, rest,
      Nat.min_eq_left within, Nat.sub_zero, Nat.add_sub_cancel' within, size, set_size inside]
    rfl
  rw [cat_eq_some inside' alike]
  apply congrArg some
  apply ext_rows (by rw [shape]; exact inside) shape
  intro place here
  rw [shape, fillFrom_shape] at here
  rw [joined_row (by rw [piece_shape, outer_set]; exact here), fillFrom_row here, flatMap_cons, flatMap_singleton,
    piece_row here, full_row (by rw [length_set]; exact inside) (by rw [outer_set]; exact here), width_set inside,
    Nat.zero_mul, slice, drop_zero]

theorem entry_fillFrom {bound : Nat} {value : α} {inside : dim < x.shape.length} (within : Within x.shape index) :
    (x.fillFrom dim bound value inside).entry index = if index.getD dim 0 < bound then x.entry index else some value := by
  have here := within.row dim
  have block := within.block inside
  have rest := within.rest dim
  have length := row_length inside here
  have within' : Within (x.fillFrom dim bound value inside).shape index := within
  have place : (x.fillFrom dim bound value inside).shape = x.shape := rfl
  rw [entry_row within' inside, entry_row within inside, place, fillFrom_row here]
  split
  next before =>
    have blocks : (index.getD dim 0 + 1) * inner x.shape dim ≤ bound * inner x.shape dim := Nat.mul_le_mul_right _ before
    rw [Nat.succ_mul] at blocks
    rw [getElem?_append_left (by rw [length_take, length]; omega), getElem?_take_of_lt (by omega)]
  next behind =>
    have blocks : bound * inner x.shape dim ≤ index.getD dim 0 * inner x.shape dim := Nat.mul_le_mul_right _ (Nat.le_of_not_lt behind)
    have covered : bound * inner x.shape dim ≤ width x.shape dim := by omega
    rw [getElem?_append_right (by rw [length_take, length]; omega), getElem?_replicate, if_pos]
    rw [length_take, length, Nat.min_eq_left covered, Nat.sub_mul]
    rw [width] at block
    rw [size]
    omega

theorem Within.piece {start stop : Nat} {inside : dim < x.shape.length} (within : Within (x.piece dim start stop inside).shape index) :
    Within x.shape (index.set dim (start + index.getD dim 0)) := by
  have bound := within.size (by rw [piece_shape, length_set]; exact inside)
  rw [piece_shape, getD_set inside, NdTensor.size] at bound
  rw [piece_shape] at within
  exact within.set (by omega)

theorem piece_fillFrom {bound start stop : Nat} {value : α} (inside : dim < x.shape.length)
    (inside₁ : dim < (x.fillFrom dim bound value inside).shape.length)
    (inside₂ : dim < (x.piece dim start stop inside).shape.length) :
    (x.fillFrom dim bound value inside).piece dim start stop inside₁ =
      (x.piece dim start stop inside).fillFrom dim (bound - start) value inside₂ := by
  have shapes : ((x.fillFrom dim bound value inside).piece dim start stop inside₁).shape =
    ((x.piece dim start stop inside).fillFrom dim (bound - start) value inside₂).shape := rfl
  apply ext_entries shapes
  intro index within
  have within' : Within (x.piece dim start stop inside).shape index := within
  have length : dim < index.length := within'.length_eq ▸ inside₂
  have place : (index.set dim (start + index.getD dim 0)).getD dim 0 = start + index.getD dim 0 := getD_set length _
  rw [entry_piece within, entry_fillFrom within'.piece, entry_fillFrom within', entry_piece within', place]
  by_cases before : index.getD dim 0 < bound - start
  · rw [if_pos before, if_pos (by omega)]
  · rw [if_neg before, if_neg (by omega)]

theorem piece_fillFrom_other {other bound start stop : Nat} {value : α} (different : other ≠ dim) (inside : dim < x.shape.length)
    (there : other < x.shape.length) (there₁ : other < (x.fillFrom dim bound value inside).shape.length)
    (inside₂ : dim < (x.piece other start stop there).shape.length) :
    (x.fillFrom dim bound value inside).piece other start stop there₁ =
      (x.piece other start stop there).fillFrom dim bound value inside₂ := by
  have shapes : ((x.fillFrom dim bound value inside).piece other start stop there₁).shape =
    ((x.piece other start stop there).fillFrom dim bound value inside₂).shape := rfl
  apply ext_entries shapes
  intro index within
  have within' : Within (x.piece other start stop there).shape index := within
  have place : (index.set other (start + index.getD other 0)).getD dim 0 = index.getD dim 0 := by
    rw [getD_eq_getElem?_getD, getElem?_set_ne different, getD_eq_getElem?_getD]
  rw [entry_piece within, entry_fillFrom within'.piece, entry_fillFrom within', entry_piece within', place]

end NdTensor
