import LLMFusion.Lib.Slices
import Mathlib.Algebra.BigOperators.Ring.List
import Mathlib.Algebra.GroupWithZero.Action.Defs
import Mathlib.Algebra.Order.Ring.Nat

/-! Tensors of any rank as they lie in memory. Along a dimension the entries fall into rows of
blocks; cutting and concatenating along the dimension cuts and concatenates every row. -/

universe u v
variable {α : Type u} {β : Type v}

@[ext] structure NdTensor (α : Type u) where
  shape : List Nat
  data : List α
  sized : data.length = shape.prod
  deriving DecidableEq, Repr

namespace NdTensor
open Slices List

/-! ### Rows along a dimension -/

section Shapes
variable {shape : List Nat} {dim : Nat}

/-- The number of rows. -/
def outer (shape : List Nat) (dim : Nat) : Nat := (shape.take dim).prod

/-- The number of entries of a block. -/
def inner (shape : List Nat) (dim : Nat) : Nat := (shape.drop (dim + 1)).prod

/-- The number of entries of a row. -/
def width (shape : List Nat) (dim : Nat) : Nat := shape.getD dim 0 * inner shape dim

theorem prod_rows (inside : dim < shape.length) : shape.prod = outer shape dim * width shape dim := by
  have parts : shape.take dim ++ shape[dim] :: shape.drop (dim + 1) = shape := by
    rw [← drop_eq_getElem_cons inside, take_append_drop]
  conv_lhs => rw [← parts, prod_append, prod_cons]
  rw [outer, width, inner, getD_eq_getElem?_getD, List.getElem?_eq_getElem inside, Option.getD_some]

theorem outer_set (shape : List Nat) (dim size : Nat) : outer (shape.set dim size) dim = outer shape dim := by
  rw [outer, take_set_of_le (Nat.le_refl dim), outer]

theorem inner_set (shape : List Nat) (dim size : Nat) : inner (shape.set dim size) dim = inner shape dim := by
  rw [inner, drop_set_of_lt (Nat.lt_succ_self dim), inner]

theorem getD_set (inside : dim < shape.length) (size : Nat) : (shape.set dim size).getD dim 0 = size := by
  rw [getD_eq_getElem?_getD, List.getElem?_set_self inside, Option.getD_some]

theorem width_set (inside : dim < shape.length) (size : Nat) :
    width (shape.set dim size) dim = size * inner shape dim := by
  rw [width, getD_set inside, inner_set]

theorem set_size (inside : dim < shape.length) : shape.set dim (shape.getD dim 0) = shape := by
  rw [getD_eq_getElem?_getD, List.getElem?_eq_getElem inside, Option.getD_some, set_getElem_self]

end Shapes

variable {dim : Nat} {x y : NdTensor α}

/-- `x.size(dim)` -/
def size (x : NdTensor α) (dim : Nat) : Nat := x.shape.getD dim 0

/-- What lies along the dimension at one place of the dimensions before it. -/
def row (x : NdTensor α) (dim place : Nat) : List α :=
  slice x.data (place * width x.shape dim) ((place + 1) * width x.shape dim)

theorem row_length (inside : dim < x.shape.length) {place : Nat} (here : place < outer x.shape dim) :
    (x.row dim place).length = width x.shape dim := by
  have fits : (place + 1) * width x.shape dim ≤ x.data.length := by
    rw [x.sized, prod_rows inside]
    exact Nat.mul_le_mul_right _ here
  rw [row, slice_length, Nat.min_eq_left fits, Nat.succ_mul, Nat.add_sub_cancel_left]

/-- A tensor by its rows. -/
def ofRows (shape : List Nat) (dim : Nat) (inside : dim < shape.length) (rows : Nat → List α)
    (lengths : ∀ place < outer shape dim, (rows place).length = width shape dim) : NdTensor α where
  shape := shape
  data := (List.range (outer shape dim)).flatMap rows
  sized := by
    have each : ((List.range (outer shape dim)).map (fun place => (rows place).length)) =
        (List.range (outer shape dim)).map (fun _ => width shape dim) :=
      List.map_congr_left (fun place member => lengths place (List.mem_range.mp member))
    rw [List.length_flatMap, each, prod_rows inside, List.map_const', List.sum_replicate, List.length_range, smul_eq_mul]

theorem row_ofRows {shape : List Nat} {inside : dim < shape.length} {rows : Nat → List α}
    {lengths : ∀ place < outer shape dim, (rows place).length = width shape dim} {place : Nat}
    (here : place < outer shape dim) : (ofRows shape dim inside rows lengths).row dim place = rows place :=
  slice_block (fun place member => lengths place (mem_range.mp member)) (List.getElem?_range here)

theorem flatMap_slices (items : List α) {offset : Nat → Nat} (grows : ∀ i, offset i ≤ offset (i + 1)) (count : Nat) :
    (range count).flatMap (fun i => slice items (offset i) (offset (i + 1))) = slice items (offset 0) (offset count) := by
  induction count with
  | zero => simp [slice]
  | succ count ih =>
    have ordered : offset 0 ≤ offset count := monotone_nat_of_le_succ grows (Nat.zero_le count)
    rw [range_succ, flatMap_append, ih, flatMap_singleton]
    exact slice_append_slice items ordered (grows count)

theorem data_rows (inside : dim < x.shape.length) : (range (outer x.shape dim)).flatMap (x.row dim) = x.data := by
  have whole := flatMap_slices x.data (fun i => Nat.mul_le_mul_right (width x.shape dim) (Nat.le_succ i)) (outer x.shape dim)
  rw [Nat.zero_mul, ← prod_rows inside, ← x.sized, slice_full _ _ (Nat.le_refl _)] at whole
  exact whole

theorem row_whole (inside : dim < x.shape.length) (one : outer x.shape dim = 1) : x.row dim 0 = x.data := by
  have rows := data_rows inside
  rwa [one, range_one, flatMap_singleton] at rows

theorem ext_rows (inside : dim < x.shape.length) (shapes : x.shape = y.shape)
    (rows : ∀ place < outer x.shape dim, x.row dim place = y.row dim place) : x = y := by
  have data : x.data = y.data := by
    rw [← data_rows inside, ← data_rows (shapes ▸ inside), ← shapes]
    apply flatMap_congr
    intro place member
    exact rows place (mem_range.mp member)
  exact NdTensor.ext shapes data

/-! ### Cutting -/

/-- The entries from `start` to `stop` along a dimension the tensor has. -/
def piece (x : NdTensor α) (dim start stop : Nat) (inside : dim < x.shape.length) : NdTensor α :=
  ofRows (x.shape.set dim (min stop (x.size dim) - start)) dim (by rw [List.length_set]; exact inside)
    (fun place => slice (x.row dim place) (start * inner x.shape dim) (stop * inner x.shape dim))
    (by
      intro place here
      rw [outer_set] at here
      rw [slice_length, row_length inside here, width_set inside, width, Nat.sub_mul, Nat.mul_min_mul_right, size])

/-- `x[..., start:stop, ...]` at a dimension, which has to be one of the tensor's. -/
def narrow (x : NdTensor α) (dim start stop : Nat) : Option (NdTensor α) :=
  if inside : dim < x.shape.length then some (x.piece dim start stop inside) else none

section Pieces
variable {start stop : Nat} {inside : dim < x.shape.length}

@[simp] theorem piece_shape : (x.piece dim start stop inside).shape = x.shape.set dim (min stop (x.size dim) - start) := rfl

@[simp] theorem piece_size : (x.piece dim start stop inside).size dim = min stop (x.size dim) - start :=
  getD_set inside _

theorem piece_row {place : Nat} (here : place < outer x.shape dim) : (x.piece dim start stop inside).row dim place =
      slice (x.row dim place) (start * inner x.shape dim) (stop * inner x.shape dim) := by
  apply row_ofRows
  rw [outer_set]
  exact here

theorem narrow_inside (inside : dim < x.shape.length) (start stop : Nat) :
    x.narrow dim start stop = some (x.piece dim start stop inside) := dif_pos inside

end Pieces

theorem piece_data {start stop : Nat} (inside : dim < x.shape.length) (one : outer x.shape dim = 1) :
    (x.piece dim start stop inside).data = slice x.data (start * inner x.shape dim) (stop * inner x.shape dim) := by
  have inside' : dim < (x.piece dim start stop inside).shape.length := by rw [piece_shape, length_set]; exact inside
  have one' : outer (x.piece dim start stop inside).shape dim = 1 := by rw [piece_shape, outer_set, one]
  rw [← row_whole inside' one', piece_row (by rw [one]; exact Nat.one_pos), row_whole inside one]

theorem piece_whole (inside : dim < x.shape.length) {stop : Nat} (whole : x.size dim ≤ stop) :
    x.piece dim 0 stop inside = x := by
  have shapes : (x.piece dim 0 stop inside).shape = x.shape := by
    rw [piece_shape, Nat.min_eq_right whole, Nat.sub_zero, size, set_size inside]
  apply ext_rows (by rw [piece_shape, length_set]; exact inside) shapes
  intro place here
  rw [shapes] at here
  rw [piece_row here, Nat.zero_mul, slice_full]
  rw [row_length inside here, width]
  exact Nat.mul_le_mul_right _ whole

/-! ### Functions of the entries -/

/-- A function of every entry. -/
def map (f : α → β) (x : NdTensor α) : NdTensor β where
  shape := x.shape
  data := x.data.map f
  sized := by rw [List.length_map, x.sized]

@[simp] theorem map_shape (f : α → β) (x : NdTensor α) : (x.map f).shape = x.shape := rfl

@[simp] theorem map_size (f : α → β) (x : NdTensor α) (dim : Nat) : (x.map f).size dim = x.size dim := rfl

theorem map_row (f : α → β) (x : NdTensor α) (dim place : Nat) : (x.map f).row dim place = (x.row dim place).map f :=
  slice_map f x.data _ _

theorem map_piece (f : α → β) (inside : dim < x.shape.length) (inside' : dim < (x.map f).shape.length) (start stop : Nat) :
    (x.piece dim start stop inside).map f = (x.map f).piece dim start stop inside' := by
  have shapes : ((x.piece dim start stop inside).map f).shape = ((x.map f).piece dim start stop inside').shape := rfl
  apply ext_rows (by rw [map_shape, piece_shape, length_set]; exact inside) shapes
  intro place here
  rw [map_shape, piece_shape, outer_set] at here
  have here' : place < outer (x.map f).shape dim := here
  rw [map_row, piece_row here, piece_row here', map_row, slice_map, map_shape]

/-! ### Concatenation -/

/-- Tensors that differ at most in the size of a dimension. -/
def Alike (dim : Nat) (x y : NdTensor α) : Prop := y.shape.set dim 0 = x.shape.set dim 0

instance (dim : Nat) (x y : NdTensor α) : Decidable (Alike dim x y) := inferInstanceAs (Decidable (_ = _))

section Alike
variable (alike : Alike dim x y)
include alike

theorem Alike.rank : y.shape.length = x.shape.length := by
  have lengths := congrArg length alike
  rwa [length_set, length_set] at lengths

theorem Alike.outer : outer y.shape dim = outer x.shape dim := by
  rw [← outer_set y.shape dim 0, alike, outer_set]

theorem Alike.inner : inner y.shape dim = inner x.shape dim := by
  rw [← inner_set y.shape dim 0, alike, inner_set]

theorem Alike.shape (size : Nat) : y.shape.set dim size = x.shape.set dim size := by
  rw [← @set_set _ 0 size y.shape, alike, set_set]

end Alike

theorem Alike.self (dim : Nat) (x : NdTensor α) : Alike dim x x := rfl

/-- The rows of the tensors one behind the other. -/
def joined (x : NdTensor α) (xs : List (NdTensor α)) (dim : Nat) (inside : dim < x.shape.length)
    (alike : ∀ y ∈ xs, Alike dim x y) : NdTensor α :=
  ofRows (x.shape.set dim (((x :: xs).map (size · dim)).sum)) dim (by rw [List.length_set]; exact inside)
    (fun place => (x :: xs).flatMap (row · dim place))
    (by
      intro place here
      rw [outer_set] at here
      rw [List.length_flatMap, width_set inside]
      have each : (x :: xs).map (fun y => (y.row dim place).length) =
          (x :: xs).map (fun y => y.size dim * NdTensor.inner x.shape dim) := by
        apply List.map_congr_left
        intro y member
        have same : Alike dim x y := by
          cases member with
          | head => exact .self dim x
          | tail _ member => exact alike y member
        rw [row_length (same.rank ▸ inside) (same.outer ▸ here), width, same.inner, size]
      rw [each, List.sum_map_mul_right])

/-- `torch.cat(xs, dim)`: the tensors have to agree in the other dimensions. -/
def cat (xs : List (NdTensor α)) (dim : Nat) : Option (NdTensor α) :=
  match xs with
  | [] => none
  | x :: xs =>
    if fits : dim < x.shape.length ∧ ∀ y ∈ xs, Alike dim x y then some (joined x xs dim fits.1 fits.2) else none

theorem cat_eq_some {xs : List (NdTensor α)} (inside : dim < x.shape.length) (alike : ∀ y ∈ xs, Alike dim x y) :
    cat (x :: xs) dim = some (joined x xs dim inside alike) := dif_pos ⟨inside, alike⟩

theorem joined_shape {xs : List (NdTensor α)} {inside : dim < x.shape.length} {alike : ∀ y ∈ xs, Alike dim x y} :
    (joined x xs dim inside alike).shape = x.shape.set dim (((x :: xs).map (size · dim)).sum) := rfl

theorem joined_row {xs : List (NdTensor α)} {inside : dim < x.shape.length} {alike : ∀ y ∈ xs, Alike dim x y} {place : Nat}
    (here : place < outer x.shape dim) : (joined x xs dim inside alike).row dim place = (x :: xs).flatMap (row · dim place) := by
  apply row_ofRows
  rw [outer_set]
  exact here

theorem Alike.same (alike : Alike dim x y) (inside : dim < x.shape.length) (sizes : y.size dim = x.size dim) :
    y.shape = x.shape := by
  have inside' : dim < y.shape.length := alike.rank ▸ inside
  calc
    y.shape = y.shape.set dim (y.size dim) := (set_size inside').symm
    _ = x.shape.set dim (y.size dim) := alike.shape _
    _ = x.shape := by rw [sizes, size, set_size inside]

theorem piece_joined {xs : List (NdTensor α)} {inside : dim < x.shape.length} {alike : ∀ y ∈ xs, Alike dim x y}
    (inside' : dim < (joined x xs dim inside alike).shape.length) (sizes : ∀ y ∈ xs, y.size dim = x.size dim) {index : Nat}
    (named : (x :: xs)[index]? = some y) :
    (joined x xs dim inside alike).piece dim (index * x.size dim) ((index + 1) * x.size dim) inside' = y := by
  have sizes' : ∀ y ∈ x :: xs, y.size dim = x.size dim := forall_mem_cons.mpr ⟨rfl, sizes⟩
  have alike' : ∀ y ∈ x :: xs, Alike dim x y := forall_mem_cons.mpr ⟨.self dim x, alike⟩
  have same : y.shape = x.shape := (alike' y (mem_of_getElem? named)).same inside (sizes' y (mem_of_getElem? named))
  have total : (joined x xs dim inside alike).size dim = (x :: xs).length * x.size dim := by
    rw [size, joined_shape, getD_set inside, map_congr_left sizes', map_const', sum_replicate, smul_eq_mul]
  have covered : (index + 1) * x.size dim ≤ (x :: xs).length * x.size dim :=
    Nat.mul_le_mul_right _ (List.getElem?_eq_some_iff.mp named).1
  have shape : ((joined x xs dim inside alike).piece dim (index * x.size dim) ((index + 1) * x.size dim) inside').shape = y.shape := by
    rw [piece_shape, total, Nat.min_eq_left covered, Nat.succ_mul, Nat.add_sub_cancel_left, same, joined_shape, set_set,
      size, set_size inside]
  apply ext_rows (by rw [shape, same]; exact inside) shape
  intro place here
  rw [shape, same] at here
  have lengths : ∀ y ∈ x :: xs, (y.row dim place).length = width x.shape dim := by
    intro y member
    have shapes : y.shape = x.shape := (alike' y member).same inside (sizes' y member)
    rw [row_length (shapes ▸ inside) (shapes ▸ here), shapes]
  have inner' : NdTensor.inner (joined x xs dim inside alike).shape dim = NdTensor.inner x.shape dim := inner_set _ _ _
  rw [piece_row (by rw [joined_shape, outer_set]; exact here), joined_row here, inner', Nat.mul_assoc, Nat.mul_assoc]
  exact slice_block lengths named

theorem piece_cat_first {z : NdTensor α} (joins : cat [x, y] dim = some z) (inside : dim < z.shape.length) :
    z.piece dim 0 (x.size dim) inside = x := by
  obtain ⟨fits, same⟩ := Option.dite_none_right_eq_some.mp joins
  cases Option.some.inj same
  have total : (joined x [y] dim fits.1 fits.2).size dim = x.size dim + y.size dim := by
    rw [size, joined_shape, getD_set fits.1, map_cons, map_singleton, sum_cons, sum_singleton]
  have shape : ((joined x [y] dim fits.1 fits.2).piece dim 0 (x.size dim) inside).shape = x.shape := by
    rw [piece_shape, total, Nat.min_eq_left (Nat.le_add_right _ _), Nat.sub_zero, joined_shape, set_set, size, set_size fits.1]
  apply ext_rows (by rw [shape]; exact fits.1) shape
  intro place here
  rw [shape] at here
  have length := row_length fits.1 here
  have inner' : inner (joined x [y] dim fits.1 fits.2).shape dim = inner x.shape dim := inner_set _ _ _
  rw [piece_row (by rw [joined_shape, outer_set]; exact here), joined_row here, inner', Nat.zero_mul, flatMap_cons]
  rw [width] at length
  rw [slice, drop_zero, size, ← length, take_left]

section Uniform
variable {xs : List (NdTensor α)} {shape : List Nat} (shapes : ∀ x ∈ xs, x.shape = shape)
include shapes

theorem cat_uniform (present : xs ≠ []) (inside : dim < shape.length) : ∃ y, cat xs dim = some y := by
  obtain ⟨x, xs, rfl⟩ := exists_cons_of_ne_nil present
  rw [forall_mem_cons] at shapes
  have alike : ∀ y ∈ xs, Alike dim x y := by
    intro y member
    rw [Alike, shapes.1, shapes.2 y member]
  exact ⟨_, cat_eq_some (shapes.1 ▸ inside) alike⟩

theorem cat_uniform_shape (joins : cat xs dim = some y) :
    dim < shape.length ∧ y.shape = shape.set dim (xs.length * shape.getD dim 0) := by
  cases xs with
  | nil => cases joins
  | cons x xs =>
    rw [forall_mem_cons] at shapes
    obtain ⟨fits, same⟩ := Option.dite_none_right_eq_some.mp joins
    have sizes : ∀ y ∈ x :: xs, y.size dim = shape.getD dim 0 := by
      intro y member
      rcases mem_cons.mp member with rfl | member
      · rw [size, shapes.1]
      · rw [size, shapes.2 y member]
    refine ⟨shapes.1 ▸ fits.1, ?_⟩
    rw [← Option.some.inj same, joined_shape, shapes.1, map_congr_left sizes, map_const', sum_replicate, smul_eq_mul]

theorem cat_uniform_piece (joins : cat xs dim = some y) (inside : dim < y.shape.length) {index : Nat}
    (named : xs[index]? = some x) : y.piece dim (index * shape.getD dim 0) ((index + 1) * shape.getD dim 0) inside = x := by
  cases xs with
  | nil => cases joins
  | cons first xs =>
    rw [forall_mem_cons] at shapes
    obtain ⟨fits, same⟩ := Option.dite_none_right_eq_some.mp joins
    cases Option.some.inj same
    have sizes : ∀ y ∈ xs, y.size dim = first.size dim := by
      intro y member
      rw [size, size, shapes.1, shapes.2 y member]
    rw [← shapes.1]
    exact piece_joined inside sizes named

end Uniform

private theorem sum_pieces {size : Nat} {offset : Nat → Nat} (grows : ∀ i, offset i ≤ offset (i + 1)) (count : Nat) :
    ((range count).map (fun i => min (offset (i + 1)) size - offset i)).sum = min (offset count) size - offset 0 := by
  induction count with
  | zero =>
    rw [range_zero, map_nil, sum_nil]
    omega
  | succ count ih =>
    have ordered : offset 0 ≤ offset count := monotone_nat_of_le_succ grows (Nat.zero_le count)
    have next := grows count
    rw [range_succ, map_append, sum_append, ih, map_singleton, sum_singleton]
    omega

theorem cat_pieces (inside : dim < x.shape.length) {offset : Nat → Nat} (grows : ∀ i, offset i ≤ offset (i + 1))
    (first : offset 0 = 0) {count : Nat} (present : 0 < count) (last : x.size dim ≤ offset count) :
    cat ((range count).map (fun i => x.piece dim (offset i) (offset (i + 1)) inside)) dim = some x := by
  obtain ⟨count, rfl⟩ : ∃ rest, count = rest + 1 := ⟨count - 1, (Nat.sub_add_cancel present).symm⟩
  let cut (i : Nat) := x.piece dim (offset i) (offset (i + 1)) inside
  have split : (range (count + 1)).map cut = cut 0 :: (range count).map (cut ∘ Nat.succ) := by
    rw [range_succ_eq_map, map_cons, map_map]
  have inside' : dim < (cut 0).shape.length := by rw [piece_shape, length_set]; exact inside
  have alike : ∀ y ∈ (range count).map (cut ∘ Nat.succ), Alike dim (cut 0) y := by
    intro y member
    obtain ⟨i, -, rfl⟩ := mem_map.mp member
    rw [Alike, Function.comp_apply, piece_shape, piece_shape, set_set, set_set]
  have shape : (joined (cut 0) _ dim inside' alike).shape = x.shape := by
    have sizes : ((cut 0 :: (range count).map (cut ∘ Nat.succ)).map (size · dim)).sum = x.size dim := by
      have covered := @sum_pieces (x.size dim) offset grows (count + 1)
      rw [Nat.min_eq_right last, first, Nat.sub_zero] at covered
      rw [← split, map_map, ← covered]
      exact congrArg sum (map_congr_left (fun i _ => piece_size))
    rw [joined_shape, sizes, piece_shape, set_set, size, set_size inside]
  rw [split, cat_eq_some inside' alike]
  apply congrArg some
  apply ext_rows (by rw [shape]; exact inside) shape
  intro place here
  rw [shape] at here
  have scaled : ∀ i, offset i * inner x.shape dim ≤ offset (i + 1) * inner x.shape dim := fun i => Nat.mul_le_mul_right _ (grows i)
  have rows : (cut 0 :: (range count).map (cut ∘ Nat.succ)).flatMap (row · dim place) =
      (range (count + 1)).flatMap (fun i => slice (x.row dim place) (offset i * inner x.shape dim)
        (offset (i + 1) * inner x.shape dim)) := by
    rw [← split, flatMap_map]
    exact flatMap_congr (fun i _ => piece_row here)
  rw [joined_row (by rw [piece_shape, outer_set]; exact here), rows,
    flatMap_slices _ scaled, first,
    Nat.zero_mul, slice_full]
  rw [row_length inside here, width]
  exact Nat.mul_le_mul_right _ last

theorem cat_single (x : NdTensor α) (dim : Nat) : cat [x] dim = if dim < x.shape.length then some x else none := by
  by_cases inside : dim < x.shape.length
  · have grows : ∀ i, i * x.size dim ≤ (i + 1) * x.size dim := fun i => Nat.mul_le_mul_right _ (Nat.le_succ i)
    have whole := cat_pieces inside grows (Nat.zero_mul _) Nat.one_pos (Nat.le_of_eq (Nat.one_mul _).symm)
    rw [range_one, map_singleton, Nat.zero_mul, piece_whole inside (Nat.le_of_eq (Nat.one_mul _).symm)] at whole
    rw [whole, if_pos inside]
  · rw [if_neg inside, cat, dif_neg (fun fits => inside fits.1)]

end NdTensor
