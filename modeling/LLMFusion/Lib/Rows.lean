import LLMFusion.Lib.Blocks
import LLMFusion.Lib.NdTensor

/-! The rows of a tensor, which lie at the places of its first dimension, and reshaping. -/

universe u
variable {α : Type u}

namespace NdTensor
open Slices Blocks List

/-- A tensor without dimensions has no rows. -/
def rows (x : NdTensor α) : List (List α) := (List.range (x.shape.headD 0)).map (block x.shape.tail.prod x.data)

/-- A tensor by its rows, each of the sizes `tail`. -/
def ofRowList (tail : List Nat) (rows : List (List α)) (each : ∀ row ∈ rows, row.length = tail.prod) : NdTensor α where
  shape := rows.length :: tail
  data := rows.flatten
  sized := by
    rw [List.length_flatten, List.map_congr_left each, List.map_const', List.sum_replicate, List.prod_cons, smul_eq_mul]

/-- The same entries in another shape. -/
def reshape (shape : List Nat) (x : NdTensor α) : Option (NdTensor α) :=
  if sized : x.data.length = shape.prod then some ⟨shape, x.data, sized⟩ else none

/-- The size between `before` and `after` is the one that fits; with a size zero among the others
none is chosen. -/
def reshapeInfer (before after : List Nat) (x : NdTensor α) : Option (NdTensor α) :=
  if before.prod * after.prod = 0 then none
  else x.reshape (before ++ x.data.length / (before.prod * after.prod) :: after)

variable {x y : NdTensor α} {count : Nat} {tail : List Nat}

theorem reshape_fits {shape : List Nat} (fits : x.data.length = shape.prod) :
    ∃ y, x.reshape shape = some y ∧ y.shape = shape ∧ y.data = x.data := ⟨_, dif_pos fits, rfl, rfl⟩

theorem reshapeInfer_fits {before after : List Nat} {size : Nat} (known : before.prod * after.prod ≠ 0)
    (fits : x.data.length = size * (before.prod * after.prod)) :
    ∃ y, x.reshapeInfer before after = some y ∧ y.shape = before ++ size :: after ∧ y.data = x.data := by
  have number : x.data.length / (before.prod * after.prod) = size := by
    rw [fits, Nat.mul_div_cancel _ (Nat.pos_of_ne_zero known)]
  rw [reshapeInfer, if_neg known, number]
  apply reshape_fits
  rw [fits, prod_append, prod_cons, Nat.mul_left_comm]

theorem reshapeInfer_unknown {before after : List Nat} (unknown : before.prod * after.prod = 0) :
    x.reshapeInfer before after = none := if_pos unknown

theorem rows_length (x : NdTensor α) : x.rows.length = x.shape.headD 0 := by
  rw [rows, length_map, length_range]

theorem sized_cons (shaped : x.shape = count :: tail) : x.data.length = count * tail.prod := by
  rw [x.sized, shaped, prod_cons]

theorem rows_each (x : NdTensor α) : ∀ row ∈ x.rows, row.length = x.shape.tail.prod := by
  intro row member
  obtain ⟨place, inside, rfl⟩ := mem_map.mp member
  cases shaped : x.shape with
  | nil =>
    rw [shaped] at inside
    cases inside
  | cons count tail =>
    rw [shaped] at inside
    exact block_length (sized_cons shaped) (mem_range.mp inside)

theorem rows_flatten (shaped : x.shape = count :: tail) : x.rows.flatten = x.data := by
  rw [rows, shaped, ← flatMap_def]
  exact blocks_whole (sized_cons shaped)

theorem rows_getElem? (shaped : x.shape = count :: tail) {place : Nat} (inside : place < count) :
    x.rows[place]? = some (block tail.prod x.data place) := by
  rw [rows, shaped, getElem?_map, headD_cons, getElem?_range inside]
  rfl

variable {rows : List (List α)}

theorem eq_ofRowList (each : ∀ row ∈ rows, row.length = tail.prod)
    (shaped : x.shape = rows.length :: tail) (entries : x.data = rows.flatten) : x = ofRowList tail rows each :=
  NdTensor.ext shaped entries

theorem ofRowList_rows (each : ∀ row ∈ rows, row.length = tail.prod) : (ofRowList tail rows each).rows = rows := by
  apply ext_getElem?
  intro place
  by_cases inside : place < rows.length
  · have shaped : (ofRowList tail rows each).shape = rows.length :: tail := rfl
    rw [rows_getElem? shaped inside]
    have named : rows[place]? = some rows[place] := getElem?_eq_getElem inside
    rw [named, block]
    refine congrArg some ?_
    have found := slice_block each named
    rwa [flatMap_id'] at found
  · rw [getElem?_eq_none (Nat.not_lt.mp inside), getElem?_eq_none]
    rw [rows_length]
    exact Nat.not_lt.mp inside

/-- At every place stands the row that the list of sources names. -/
structure Gathers (sources : List Nat) (x y : NdTensor α) : Prop where
  shape : ∃ count tail, x.shape = count :: tail ∧ y.shape = sources.length :: tail
  row : ∀ place source : Nat, sources[place]? = some source → ∃ row, x.rows[source]? = some row ∧ y.rows[place]? = some row

theorem gathers_ofRowList {sources : List Nat} (each : ∀ row ∈ rows, row.length = tail.prod)
    (shaped : x.shape = count :: tail) (named : rows.map some = sources.map (fun source => x.rows[source]?)) :
    Gathers sources x (ofRowList tail rows each) := by
  have lengths : rows.length = sources.length := by simpa using congrArg length named
  refine ⟨⟨count, tail, shaped, by rw [← lengths]; rfl⟩, ?_⟩
  intro place source here
  have at_place := congrArg (fun items => items[place]?) named
  simp only [getElem?_map, here, Option.map_some] at at_place
  obtain ⟨row, found, same⟩ := Option.map_eq_some_iff.mp at_place
  exact ⟨row, same.symm, by rw [ofRowList_rows, found]⟩

/-! ### Repeating rows -/

/-- Each row as often as its count says. -/
def repeatRows (rows : List (List α)) (counts : List Nat) : List (List α) :=
  (rows.zip counts).flatMap (fun entry => List.replicate entry.2 entry.1)

/-- The places that are repeated, from a first one on. -/
def repeatSources : Nat → List Nat → List Nat
  | _, [] => []
  | place, count :: counts => List.replicate count place ++ repeatSources (place + 1) counts

theorem mem_repeatRows {counts : List Nat} {row : List α} (member : row ∈ repeatRows rows counts) : row ∈ rows := by
  obtain ⟨entry, inside, repeated⟩ := mem_flatMap.mp member
  rw [eq_of_mem_replicate repeated]
  exact (of_mem_zip inside).1

theorem repeatRows_sources (before rows : List (List α)) {counts : List Nat} (same : counts.length = rows.length) :
    (repeatRows rows counts).map some =
      (repeatSources before.length counts).map (fun source => (before ++ rows)[source]?) := by
  induction counts generalizing before rows with
  | nil => simp [repeatRows, repeatSources]
  | cons count counts ih =>
    cases rows with
    | nil => cases same
    | cons row rows =>
      have here : (before ++ row :: rows)[before.length]? = some row := by simp
      have next := ih (before ++ [row]) rows (Nat.succ.inj same)
      rw [length_append, append_assoc] at next
      rw [repeatRows, zip_cons_cons, flatMap_cons, map_append, map_replicate, repeatSources,
        map_append, map_replicate, here]
      exact congrArg _ next

theorem repeatSources_length (place : Nat) (counts : List Nat) : (repeatSources place counts).length = counts.sum := by
  induction counts generalizing place with
  | nil => rfl
  | cons count counts ih => rw [repeatSources, length_append, length_replicate, ih, sum_cons]

theorem stacked_sources (times : Nat) (rows : List (List α)) : (replicate times rows).flatten.map some =
      (replicate times (range rows.length)).flatten.map (fun source => rows[source]?) := by
  have once : rows.map some = (range rows.length).map (fun source => rows[source]?) := by
    apply ext_getElem?
    intro place
    by_cases inside : place < rows.length
    · simp [inside]
    · simp [Nat.not_lt.mp inside]
  rw [map_flatten, map_flatten, map_replicate, map_replicate, once]

end NdTensor
