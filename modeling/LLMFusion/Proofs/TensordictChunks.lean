import LLMFusion.Lib.Indexing
import LLMFusion.TensordictUtils
import Mathlib.Algebra.Ring.Int.Defs
import Mathlib.Data.List.GetD

/-! Chunks of a dictionary have the rows of it wherever the jagged columns can be unbound. Cutting them out of padded rows goes
along the first dimension and is right only for tensors that are jagged there. -/

namespace LLMFusion.TensordictUtils
open List hiding mapM_map
open NdTensor Slices Fallible

variable {α β : Type}

/-! ### Jagged tensors -/

variable {γ : Type}

theorem orFailure_some {failure : Failure} {option : Option γ} {value : γ} (there : option = some value) :
    orFailure failure option = .ok value := by
  rw [there]
  rfl

theorem orFailure_ok {failure : Failure} {option : Option γ} {value : γ}
    (returned : orFailure failure option = .ok value) : option = some value := by
  cases option with
  | none => cases returned
  | some _ =>
    cases returned
    rfl

theorem unbind_ok {torch : Torch α} {tensor : Jagged α} (unbinds : torch.unbinds tensor) :
    torch.unbind tensor = .ok tensor.samples := if_pos unbinds

theorem unbinds_of_ok {torch : Torch α} {tensor : Jagged α} {samples : List (NdTensor α)}
    (returned : torch.unbind tensor = .ok samples) : torch.unbinds tensor := by
  unfold Torch.unbind at returned
  split at returned
  · next unbinds => exact unbinds
  · cases returned

theorem samples_of_list {tensors : List (NdTensor α)} {ragged : Option Nat} {tensor : Jagged α}
    (returned : nestedTensorFromTensorList tensors ragged = .ok tensor) : tensor.samples = tensors := by
  cases tensors with
  | nil => cases returned
  | cons first rest =>
    simp only [nestedTensorFromTensorList] at returned
    split at returned
    · split at returned
      · exact Jagged.samples_ofSamples (orFailure_ok returned)
      · exact Jagged.samples_ofSamples (orFailure_ok returned)
    · cases returned

theorem list_ofSamples {tensor : Jagged α} {tensors : List (NdTensor α)}
    (chosen : ∀ sample ∈ tensors, sample ∈ tensor.samples)
    (filled : tensors ≠ []) : nestedTensorFromTensorList tensors (some (raggedIdx tensor)) =
      orFailure .runtimeError (Jagged.ofSamples tensors tensor.dim) := by
  obtain ⟨first, rest, rfl⟩ := exists_cons_of_ne_nil filled
  have inside := Jagged.sample_inside (chosen first mem_cons_self)
  have ragged : 1 ≤ tensor.dim + 1 ∧ tensor.dim + 1 ≤ first.shape.length := ⟨Nat.le_add_left 1 _, inside⟩
  simp only [nestedTensorFromTensorList, raggedIdx, Option.getD_some, if_pos ragged, Nat.add_sub_cancel]
  split
  · next single =>
    have zero : tensor.dim = 0 := by omega
    rw [asNestedTensor, zero]
  · rfl

theorem list_samples (tensor : Jagged α) :
    nestedTensorFromTensorList tensor.samples (some (raggedIdx tensor)) = .ok tensor := by
  have filled : tensor.samples ≠ [] := by
    intro empty
    apply tensor.present
    apply eq_nil_of_length_eq_zero
    rw [← Jagged.samples_length, empty]
    rfl
  rw [list_ofSamples (fun _ member => member) filled, Jagged.ofSamples_samples]
  rfl

/-- The rows of a tensor from a place to another one. -/
def rowsOf (tensor : Jagged α) (start stop : Nat) : Jagged α :=
  (nestedTensorFromTensorList (slice tensor.samples start stop) (some (raggedIdx tensor))).toOption.getD tensor

theorem slice_filled {items : List γ} {start stop : Nat} (nonempty : start < stop) (inside : stop ≤ items.length) :
    slice items start stop ≠ [] := by
  apply ne_nil_of_length_pos
  rw [slice_length]
  omega

section Rows
variable {tensor : Jagged α} {start stop : Nat} (nonempty : start < stop)
  (inside : stop ≤ tensor.lengths.length)
include nonempty inside

theorem list_slice : nestedTensorFromTensorList (slice tensor.samples start stop) (some (raggedIdx tensor)) =
    .ok (rowsOf tensor start stop) := by
  have chosen : ∀ sample ∈ slice tensor.samples start stop, sample ∈ tensor.samples :=
    fun sample member => mem_of_mem_take (mem_of_mem_drop member)
  have filled : slice tensor.samples start stop ≠ [] := slice_filled nonempty (tensor.samples_length ▸ inside)
  obtain ⟨joined, made⟩ := Jagged.ofSamples_some chosen filled
  rw [rowsOf, list_ofSamples chosen filled, made]
  rfl

theorem rowsOf_samples : (rowsOf tensor start stop).samples = slice tensor.samples start stop :=
  samples_of_list (list_slice nonempty inside)

theorem rowsOf_lengths : (rowsOf tensor start stop).lengths.length = stop - start := by
  rw [← Jagged.samples_length, rowsOf_samples nonempty inside, slice_length, Jagged.samples_length,
    Nat.min_eq_left inside]

theorem rowsOf_raggedIdx : raggedIdx (rowsOf tensor start stop) = raggedIdx tensor := by
  have chosen : ∀ sample ∈ slice tensor.samples start stop, sample ∈ tensor.samples :=
    fun sample member => mem_of_mem_take (mem_of_mem_drop member)
  have filled : slice tensor.samples start stop ≠ [] := slice_filled nonempty (tensor.samples_length ▸ inside)
  have made := list_slice nonempty inside
  rw [list_ofSamples chosen filled] at made
  exact congrArg Nat.succ (Jagged.ofSamples_eq_some (orFailure_ok made)).2.2

end Rows

/-! ### Padded rows -/

/-- The tensor is jagged in its first dimension, or its samples are as wide as the padded ones and no higher than wide. -/
def Kept (torch : Torch α) (tensor : Jagged α) : Prop :=
  tensor.dim = 0 ∨ ∀ sample ∈ tensor.samples,
    sample.size tensor.dim = torch.paddedWidth tensor ∧ sample.size 0 ≤ sample.size tensor.dim

section Padding
variable [Zero α] {torch : Torch α} {tensor : Jagged α} {index length : Nat}

omit [Zero α] in
theorem firstRows_eq (row : NdTensor α) (inside : 0 < row.shape.length) (seqLen : Nat) :
    firstRows row seqLen = .ok (row.piece 0 0 seqLen inside) :=
  orFailure_some (narrow_inside inside 0 seqLen)

theorem paddedRow_inside (torch : Torch α) (tensor : Jagged α) (index : Nat) :
    0 < (torch.paddedRow tensor index).shape.length := by
  rw [Torch.paddedRow, padTo_shape, length_set]
  exact Nat.zero_lt_of_lt (tensor.inside_sample index)

/-- The first rows of a padded row are the sample exactly if nothing is padded or cut off. -/
theorem firstRows_iff (named : tensor.lengths[index]? = some length) :
    firstRows (torch.paddedRow tensor index) length = .ok (tensor.sample index) ↔
      tensor.dim = 0 ∨ (length = torch.paddedWidth tensor ∧ (tensor.sample index).size 0 ≤ length) := by
  have inside := tensor.inside_sample index
  have size := Jagged.sample_size named
  have covered := torch.covers tensor length (mem_of_getElem? named)
  rw [firstRows_eq _ (paddedRow_inside torch tensor index), Except.ok.injEq]
  constructor
  · intro same
    by_cases first : tensor.dim = 0
    · exact Or.inl first
    · right
      have shape := congrArg NdTensor.shape same
      rw [piece_shape, Torch.paddedRow, padTo_shape, size] at shape
      have wide : length + (torch.paddedWidth tensor - length) = length := by
        have there := congrArg (fun shape => shape.getD tensor.dim 0) shape
        simp only [getD_eq_getElem?_getD, List.getElem?_set_ne (Ne.symm first)] at there
        rw [← getD_eq_getElem?_getD, getD_set inside] at there
        exact there.trans size
      have other : (torch.paddedRow tensor index).size 0 = (tensor.sample index).size 0 := by
        simp only [NdTensor.size, Torch.paddedRow, padTo_shape, getD_eq_getElem?_getD,
          List.getElem?_set_ne first]
      have high := congrArg (fun row => row.size 0) same
      simp only [piece_size, other] at high
      exact ⟨by omega, by omega⟩
  · rintro (first | ⟨full, high⟩)
    · have along : ∀ dim inside', dim = tensor.dim →
          (torch.paddedRow tensor index).piece dim 0 length inside' = tensor.sample index := by
        rintro dim inside' rfl
        rw [← size]
        exact piece_padTo inside'
      exact along 0 _ first.symm
    · have padded : torch.paddedRow tensor index = tensor.sample index := padTo_full (by rw [size, full])
      simp only [padded]
      exact piece_whole _ high

end Padding

/-! ### A column in a chunk -/

theorem chunkAt_ok {rows : List γ} {chunks chunkSize index : Nat} (positive : 0 < chunks)
    (whole : rows.length = chunks * chunkSize) (here : index < chunks) :
    chunkAt chunks rows index = .ok (slice rows (index * chunkSize) ((index + 1) * chunkSize)) := by
  apply orFailure_some
  rw [Blocks.chunk_even positive whole, Option.bind_some, List.getElem?_map, List.getElem?_range here]
  rfl

section Chunk
variable [Zero α] {torch : Torch α} {tensor : Jagged α} {chunks chunkSize index : Nat}

omit [Zero α] in
def placesOf (tensor : Jagged α) (chunkSize index : Nat) : List Nat :=
  slice (List.range tensor.lengths.length) (index * chunkSize) ((index + 1) * chunkSize)

omit [Zero α] in
theorem slice_samples (tensor : Jagged α) (chunkSize index : Nat) :
    slice tensor.samples (index * chunkSize) ((index + 1) * chunkSize) =
      (placesOf tensor chunkSize index).map tensor.sample := slice_map _ _ _ _

omit [Zero α] in
theorem slice_lengths (tensor : Jagged α) (chunkSize index : Nat) :
    slice tensor.lengths (index * chunkSize) ((index + 1) * chunkSize) =
      (placesOf tensor chunkSize index).map (fun place => tensor.lengths.getD place 0) := by
  have listed : tensor.lengths = (range tensor.lengths.length).map
      (fun place => tensor.lengths.getD place 0) := by
    apply ext_getElem
    · rw [length_map, length_range]
    · intro place inside _
      rw [getElem_map, getElem_range, getD_eq_getElem _ _ inside]
  conv_lhs => rw [listed]
  exact slice_map _ _ _ _

omit [Zero α] in
theorem mem_placesOf {place : Nat} (inside : place < tensor.lengths.length) (some : 0 < chunkSize) :
    place ∈ placesOf tensor chunkSize (place / chunkSize) := by
  have split : place / chunkSize * chunkSize + place % chunkSize = place :=
    by rw [Nat.mul_comm, Nat.div_add_mod]
  have within : place < (place / chunkSize + 1) * chunkSize := by
    have rest := Nat.mod_lt place some
    rw [Nat.succ_mul]
    omega
  apply mem_of_getElem?
  rw [placesOf, slice_getElem?, split, if_pos within, List.getElem?_range inside]

variable (positive : 0 < chunks) (whole : tensor.lengths.length = chunks * chunkSize) (here : index < chunks)
include positive whole here

theorem chunkNested_padded (fails : ¬ torch.unbinds tensor) : chunkNested torch chunks chunkSize index tensor =
    ((placesOf tensor chunkSize index).mapM (fun place =>
      firstRows (torch.paddedRow tensor place) (tensor.lengths.getD place 0)) >>= fun chunkTensors =>
        nestedTensorFromTensorList chunkTensors (some (raggedIdx tensor))) := by
  have count : (torch.toPaddedTensor tensor).length = chunks * chunkSize := by
    rw [Torch.toPaddedTensor, length_map, length_range, whole]
  have raised : torch.unbind tensor = .error .runtimeError := if_neg fails
  have rows : slice (torch.toPaddedTensor tensor) (index * chunkSize) ((index + 1) * chunkSize) =
      (placesOf tensor chunkSize index).map (torch.paddedRow tensor) := slice_map _ _ _ _
  simp only [chunkNested, raised, chunkAt_ok positive count here, ok_bind, rows, slice_lengths,
    zip_map',
    List.mapM_map]
  rfl

theorem chunkNested_ok (some : 0 < chunkSize) (right : torch.unbinds tensor ∨ Kept torch tensor) :
    chunkNested torch chunks chunkSize index tensor =
      .ok (rowsOf tensor (index * chunkSize) ((index + 1) * chunkSize)) := by
  have grows : index * chunkSize < (index + 1) * chunkSize :=
    Nat.mul_lt_mul_of_pos_right (Nat.lt_succ_self index) some
  have inside : (index + 1) * chunkSize ≤ tensor.lengths.length := by
    rw [whole]
    exact Nat.mul_le_mul_right _ here
  by_cases unbinds : torch.unbinds tensor
  · rw [chunkNested, unbind_ok unbinds]
    exact list_slice grows inside
  · have kept : Kept torch tensor := right.resolve_left unbinds
    have rows : (placesOf tensor chunkSize index).mapM (fun place =>
        firstRows (torch.paddedRow tensor place) (tensor.lengths.getD place 0)) =
        .ok ((placesOf tensor chunkSize index).map tensor.sample) := by
      apply mapM_map
      intro place member
      have bound := mem_range.mp (mem_of_mem_take (mem_of_mem_drop member))
      have named : tensor.lengths[place]? = .some (tensor.lengths.getD place 0) := by
        rw [List.getElem?_eq_getElem bound, getD_eq_getElem _ _ bound]
      apply (firstRows_iff named).mpr
      cases kept with
      | inl first => exact Or.inl first
      | inr full =>
        have sample := full (tensor.sample place) (mem_map_of_mem (mem_range.mpr bound))
        rw [Jagged.sample_size named] at sample
        exact Or.inr sample
    rw [chunkNested_padded positive whole here unbinds, rows, ok_bind, ← slice_samples]
    exact list_slice grows inside

theorem rows_of_chunkNested {part : Jagged α} (returned : chunkNested torch chunks chunkSize index tensor = .ok part)
    (right : part.samples = slice tensor.samples (index * chunkSize) ((index + 1) * chunkSize))
    (fails : ¬ torch.unbinds tensor) : ∀ place ∈ placesOf tensor chunkSize index,
      firstRows (torch.paddedRow tensor place) (tensor.lengths.getD place 0) = .ok (tensor.sample place) := by
  rw [chunkNested_padded positive whole here fails] at returned
  obtain ⟨tensors, rows, made⟩ := bind_eq_ok.mp returned
  have same : tensors = (placesOf tensor chunkSize index).map tensor.sample := by
    rw [← samples_of_list made, right, slice_samples]
  rw [same] at rows
  exact forall₂_same.mp (forall₂_map_right_iff.mp (mapM_succeeded rows))

end Chunk

/-! ### Dictionaries -/

namespace TensorDict

theorem mem_plainColumns {td : TensorDict α β} {column : String × List β} :
    column ∈ td.plainColumns ↔ (column.1, .plain column.2) ∈ td.columns := by
  rw [plainColumns, mem_filterMap]
  constructor
  · rintro ⟨⟨key, entry⟩, member, isEntry⟩
    cases entry with
    | plain rows =>
      cases isEntry
      exact member
    | nested tensor => cases isEntry
  · exact fun member => ⟨_, member, rfl⟩

theorem mem_nestedColumns {td : TensorDict α β} {column : String × Jagged α} :
    column ∈ td.nestedColumns ↔ (column.1, .nested column.2) ∈ td.columns := by
  rw [nestedColumns, mem_filterMap]
  constructor
  · rintro ⟨⟨key, entry⟩, member, isEntry⟩
    cases entry with
    | plain rows => cases isEntry
    | nested tensor =>
      cases isEntry
      exact member
  · exact fun member => ⟨_, member, rfl⟩

theorem ofColumns_ok {batchSize : Nat} {columns : List (String × Column α β)} (keyed : (columns.map Prod.fst).Nodup)
    (sized : ∀ column ∈ columns, column.2.count = batchSize) :
    ofColumns batchSize columns = .ok ⟨batchSize, columns, keyed, sized⟩ := dif_pos ⟨keyed, sized⟩

theorem ofColumns_eq_ok {batchSize : Nat} {columns : List (String × Column α β)} {td : TensorDict α β}
    (returned : ofColumns batchSize columns = .ok td) : td.batchSize = batchSize ∧ td.columns = columns := by
  unfold ofColumns at returned
  split at returned
  · cases returned
    exact ⟨rfl, rfl⟩
  · cases returned

theorem column_unique {td : TensorDict α β} {key : String} {first second : Column α β}
    (isFirst : (key, first) ∈ td.columns) (isSecond : (key, second) ∈ td.columns) : first = second := by
  have found := Indexing.lookup_of_mem td.keyed isFirst
  rw [Indexing.lookup_of_mem td.keyed isSecond] at found
  exact (Option.some.inj found).symm

/-- The same entries, in any order. -/
def Same (td other : TensorDict α β) : Prop := td.batchSize = other.batchSize ∧ td.columns.Perm other.columns

end TensorDict

open TensorDict

/-- What a function of the plain columns and one of the jagged ones make of a column. -/
def onColumn {γ : Type} (plain : List β → γ) (nested : Jagged α → γ) : Column α β → γ
  | .plain rows => plain rows
  | .nested tensor => nested tensor

theorem arranged_perm (plain : List β → γ) (nested : Jagged α → γ) (columns : List (String × Column α β)) :
    ((columns.filterMap plainEntry).map (fun column => (column.1, plain column.2)) ++
      (columns.filterMap nestedEntry).map (fun column => (column.1, nested column.2))).Perm
      (columns.map (fun column => (column.1, onColumn plain nested column.2))) := by
  induction columns with
  | nil => exact .nil
  | cons column columns ih =>
    obtain ⟨key, entry⟩ := column
    cases entry with
    | plain rows => exact ih.cons _
    | nested tensor => exact perm_middle.trans (ih.cons _)

def rowsOfColumn (start stop : Nat) : Column α β → Column α β :=
  onColumn (fun rows => .plain (slice rows start stop)) (fun tensor => .nested (rowsOf tensor start stop))

def Column.samples : Column α β → List (β ⊕ NdTensor α)
  | .plain rows => rows.map Sum.inl
  | .nested tensor => tensor.samples.map Sum.inr

section Rows
variable {start stop : Nat} {column : Column α β} (grows : ∀ tensor, column = .nested tensor → start < stop)
  (inside : stop ≤ column.count)
include grows inside

theorem rowsOfColumn_samples : (rowsOfColumn start stop column).samples = slice column.samples start stop := by
  cases column with
  | plain rows => exact (slice_map Sum.inl rows start stop).symm
  | nested tensor =>
    rw [rowsOfColumn, onColumn, Column.samples, rowsOf_samples (grows tensor rfl) inside]
    exact (slice_map Sum.inr tensor.samples start stop).symm

theorem rowsOfColumn_count : (rowsOfColumn start stop column).count = stop - start := by
  cases column with
  | plain rows =>
    have length : (slice rows start stop).length = min stop rows.length - start := slice_length rows start stop
    rw [Nat.min_eq_left (show stop ≤ rows.length from inside)] at length
    exact length
  | nested tensor => exact rowsOf_lengths (grows tensor rfl) inside

end Rows

/-! ### Chunks -/

theorem forall₂_range {relation : Nat → γ → Prop} {count : Nat} {values : List γ}
    (related : List.Forall₂ relation (List.range count) values) {index : Nat} {value : γ}
      (named : values[index]? = some value) : relation index value := by
  obtain ⟨bound, rfl⟩ := List.getElem?_eq_some_iff.mp named
  have here := related.get (related.length_eq ▸ bound) bound
  rwa [List.get_eq_getElem, List.getElem_range, List.get_eq_getElem] at here

def arrangedRows (td : TensorDict α β) (start stop : Nat) : List (String × Column α β) :=
  td.plainColumns.map (fun column => (column.1, Column.plain (slice column.2 start stop))) ++
    td.nestedColumns.map (fun column => (column.1, Column.nested (rowsOf column.2 start stop)))

theorem arrangedRows_perm (td : TensorDict α β) (start stop : Nat) : (arrangedRows td start stop).Perm (td.columns.map
      (fun column => (column.1, rowsOfColumn start stop column.2))) :=
  arranged_perm (fun rows => Column.plain (slice rows start stop))
    (fun tensor => Column.nested (rowsOf tensor start stop)) _

/-- A chunk with the rows from a place to another one. -/
structure HasRows (td chunk : TensorDict α β) (start stop : Nat) : Prop where
  columns : ∀ column ∈ td.columns, ∃ part, (column.1, part) ∈ chunk.columns ∧
    part.samples = slice column.2.samples start stop
  keys : ∀ column ∈ chunk.columns, column.1 ∈ td.columns.map Prod.fst

section Division
variable {td : TensorDict α β} {chunks : Nat} (positive : 0 < chunks) (divides : chunks ∣ td.batchSize)
include positive divides

omit positive in
theorem batchSize_eq : td.batchSize = chunks * (td.batchSize / chunks) := (Nat.mul_div_cancel' divides).symm

omit positive in
theorem chunkSize_pos {key : String} {tensor : Jagged α} (member : (key, Column.nested tensor) ∈ td.columns) :
    0 < td.batchSize / chunks := by
  have count : tensor.lengths.length = td.batchSize := td.sized _ member
  have filled := length_pos_iff.mpr tensor.present
  have some := Nat.mul_div_cancel' divides
  apply Nat.pos_of_ne_zero
  intro none
  rw [none, Nat.mul_zero] at some
  omega

omit positive in
theorem rows_inside {index : Nat} (here : index < chunks) : (index + 1) * (td.batchSize / chunks) ≤ td.batchSize := by
  conv_rhs => rw [← Nat.mul_div_cancel' divides]
  exact Nat.mul_le_mul_right _ here

omit positive in
theorem rows_grow {index : Nat} {key : String} {column : Column α β} (member : (key, column) ∈ td.columns) :
    ∀ tensor, column = .nested tensor → index * (td.batchSize / chunks) < (index + 1) * (td.batchSize / chunks) := by
  rintro tensor rfl
  exact Nat.mul_lt_mul_of_pos_right (Nat.lt_succ_self index) (chunkSize_pos divides member)

omit positive in
theorem arranged_ok {index : Nat} (here : index < chunks) :
    ∃ chunk, ofColumns (td.batchSize / chunks) (arrangedRows td (index * (td.batchSize / chunks))
      ((index + 1) * (td.batchSize / chunks))) = .ok chunk := by
  have arranged := arrangedRows_perm td (index * (td.batchSize / chunks))
    ((index + 1) * (td.batchSize / chunks))
  refine ⟨_, ofColumns_ok ?_ ?_⟩
  · apply (arranged.map Prod.fst).nodup_iff.mpr
    rw [map_map]
    exact td.keyed
  · intro column member
    obtain ⟨origin, inside, rfl⟩ := mem_map.mp (arranged.mem_iff.mp member)
    have bound : (index + 1) * (td.batchSize / chunks) ≤ origin.2.count := by
      rw [td.sized _ inside]
      exact rows_inside divides here
    have count := rowsOfColumn_count (rows_grow divides inside) bound
    rw [count, Nat.succ_mul, Nat.add_sub_cancel_left]

theorem chunkColumns_ok [Zero α] {torch : Torch α}
    (right : ∀ column ∈ td.nestedColumns, torch.unbinds column.2 ∨ Kept torch column.2) {index : Nat}
      (here : index < chunks) : ∃ chunk, chunkColumns torch td chunks (td.batchSize / chunks) index = .ok chunk ∧
      chunk.batchSize = td.batchSize / chunks ∧ chunk.columns = arrangedRows td (index * (td.batchSize / chunks))
          ((index + 1) * (td.batchSize / chunks)) := by
  have plain : td.plainColumns.mapM (fun column => do
      let rows ← chunkAt chunks column.2 index
      return (column.1, (Column.plain rows : Column α β))) =
      (.ok (td.plainColumns.map (fun column => (column.1, Column.plain
        (slice column.2 (index * (td.batchSize / chunks))
            ((index + 1) * (td.batchSize / chunks)))))) : Except Failure _) := by
    apply mapM_map
    intro column member
    have count : column.2.length = chunks * (td.batchSize / chunks) := by
      rw [← batchSize_eq divides]
      exact td.sized _ (mem_plainColumns.mp member)
    rw [chunkAt_ok positive count here]
    rfl
  have nested : td.nestedColumns.mapM (fun column => do
      let tensor ← chunkNested torch chunks (td.batchSize / chunks) index column.2
      return (column.1, (Column.nested tensor : Column α β))) =
      (.ok (td.nestedColumns.map (fun column => (column.1, Column.nested
        (rowsOf column.2 (index * (td.batchSize / chunks))
            ((index + 1) * (td.batchSize / chunks)))))) : Except Failure _) := by
    apply mapM_map
    intro column member
    have inside := mem_nestedColumns.mp member
    have count : column.2.lengths.length = chunks * (td.batchSize / chunks) := by
      rw [← batchSize_eq divides]
      exact td.sized _ inside
    rw [chunkNested_ok positive count here (chunkSize_pos divides inside) (right column member)]
    rfl
  obtain ⟨chunk, made⟩ := arranged_ok divides here
  refine ⟨chunk, ?_, ofColumns_eq_ok made⟩
  rw [chunkColumns, plain, ok_bind, nested, ok_bind]
  exact made

/-- Chunks with the rows that are due to them. -/
def Chunked (td : TensorDict α β) (chunks : Nat) (tds : List (TensorDict α β)) : Prop :=
  tds.length = chunks ∧ ∀ (index : Nat) (chunk : TensorDict α β), tds[index]? = some chunk →
    HasRows td chunk (index * (td.batchSize / chunks)) ((index + 1) * (td.batchSize / chunks))

omit positive in
theorem hasRows_arranged {chunk : TensorDict α β} {index : Nat} (here : index < chunks)
    (columns : chunk.columns = arrangedRows td (index * (td.batchSize / chunks))
      ((index + 1) * (td.batchSize / chunks))) :
    HasRows td chunk (index * (td.batchSize / chunks)) ((index + 1) * (td.batchSize / chunks)) := by
  have arranged := arrangedRows_perm td (index * (td.batchSize / chunks))
    ((index + 1) * (td.batchSize / chunks))
  rw [← columns] at arranged
  constructor
  · intro column member
    have bound : (index + 1) * (td.batchSize / chunks) ≤ column.2.count := by
      rw [td.sized _ member]
      exact rows_inside divides here
    exact ⟨_, arranged.mem_iff.mpr (mem_map_of_mem member),
      rowsOfColumn_samples (rows_grow divides member) bound⟩
  · intro column member
    obtain ⟨origin, inside, rfl⟩ := mem_map.mp (arranged.mem_iff.mp member)
    exact mem_map.mpr ⟨origin, inside, rfl⟩

variable [Zero α] {torch : Torch α}

theorem chunkTensordict_ok (right : ∀ column ∈ td.nestedColumns, torch.unbinds column.2 ∨ Kept torch column.2) :
    ∃ tds, chunkTensordict torch td chunks = .ok tds ∧ tds.length = chunks ∧
      ∀ (index : Nat) (chunk : TensorDict α β), tds[index]? = some chunk → chunk.batchSize = td.batchSize / chunks ∧
        chunk.columns = arrangedRows td (index * (td.batchSize / chunks)) ((index + 1) * (td.batchSize / chunks)) := by
  have each : ∀ index ∈ range chunks, ∃ chunk, chunkColumns torch td chunks (td.batchSize / chunks) index =
    .ok chunk ∧
      chunk.batchSize = td.batchSize / chunks ∧
      chunk.columns = arrangedRows td (index * (td.batchSize / chunks))
        ((index + 1) * (td.batchSize / chunks)) :=
    fun index member => chunkColumns_ok positive divides right (mem_range.mp member)
  obtain ⟨tds, returned, related⟩ := mapM_ok _ _ each
  have count : chunks = tds.length := length_range.symm.trans related.length_eq
  refine ⟨tds, ?_, count.symm, ?_⟩
  · rw [chunkTensordict, if_neg positive.ne', if_neg (not_not.mpr (Nat.mod_eq_zero_of_dvd divides))]
    exact returned
  · intro index chunk named
    exact forall₂_range related named

omit positive divides in
theorem chunkTensordict_eq_ok {tds : List (TensorDict α β)} (returned : chunkTensordict torch td chunks = .ok tds) :
    List.Forall₂ (fun index chunk => chunkColumns torch td chunks (td.batchSize / chunks) index = .ok chunk)
      (range chunks) tds := by
  unfold chunkTensordict at returned
  split at returned
  · cases returned
  · split at returned
    · cases returned
    · exact mapM_succeeded returned

omit positive divides in
theorem nested_of_chunkColumns {chunk : TensorDict α β} {size index : Nat} {column : String × Jagged α}
    (returned : chunkColumns torch td chunks size index = .ok chunk) (member : column ∈ td.nestedColumns) :
    ∃ part, chunkNested torch chunks size index column.2 = .ok part ∧ (column.1, .nested part) ∈ chunk.columns := by
  obtain ⟨plain, _, returned⟩ := bind_eq_ok.mp returned
  obtain ⟨nested, all, returned⟩ := bind_eq_ok.mp returned
  obtain ⟨entry, inside, made⟩ := forall₂_left (mapM_succeeded all) member
  obtain ⟨part, isPart, made⟩ := bind_eq_ok.mp made
  cases made
  refine ⟨part, isPart, ?_⟩
  rw [(ofColumns_eq_ok returned).2]
  exact mem_append_right _ inside

/-- The chunks have their rows exactly if every jagged column can be unbound or is kept by the padded rows. -/
theorem chunked_iff : (∃ tds, chunkTensordict torch td chunks = .ok tds ∧ Chunked td chunks tds) ↔
    ∀ column ∈ td.nestedColumns, torch.unbinds column.2 ∨ Kept torch column.2 := by
  constructor
  · rintro ⟨tds, returned, count, rows⟩ column member
    by_cases unbinds : torch.unbinds column.2
    · exact Or.inl unbinds
    · right
      have inside := mem_nestedColumns.mp member
      have whole : column.2.lengths.length = chunks * (td.batchSize / chunks) := by
        rw [← batchSize_eq divides]
        exact td.sized _ inside
      have fits : ∀ place < column.2.lengths.length, firstRows (torch.paddedRow column.2 place)
        (column.2.lengths.getD place 0) =
          .ok (column.2.sample place) := by
        intro place bound
        have some := chunkSize_pos divides inside
        have here : place / (td.batchSize / chunks) < chunks := by
          rw [Nat.div_lt_iff_lt_mul some]
          exact whole ▸ bound
        obtain ⟨chunk, named⟩ : ∃ chunk, tds[place / (td.batchSize / chunks)]? = .some chunk :=
          ⟨_, List.getElem?_eq_getElem (count ▸ here)⟩
        obtain ⟨part, isPart, among⟩ := nested_of_chunkColumns
          (forall₂_range (chunkTensordict_eq_ok returned) named) member
        obtain ⟨other, isOther, samples⟩ := (rows _ chunk named).columns _ inside
        cases column_unique among isOther
        have right : part.samples = slice column.2.samples
          (place / (td.batchSize / chunks) * (td.batchSize / chunks))
            ((place / (td.batchSize / chunks) + 1) * (td.batchSize / chunks)) :=
          List.map_injective_iff.mpr Sum.inr_injective (samples.trans (slice_map Sum.inr _ _ _))
        exact rows_of_chunkNested positive whole here isPart right unbinds place (mem_placesOf bound some)
      by_cases first : column.2.dim = 0
      · exact Or.inl first
      · right
        intro sample isSample
        obtain ⟨place, isPlace, rfl⟩ := List.mem_map.mp isSample
        have bound := List.mem_range.mp isPlace
        have named : column.2.lengths[place]? = .some (column.2.lengths.getD place 0) := by
          rw [List.getElem?_eq_getElem bound, List.getD_eq_getElem _ _ bound]
        have full := ((firstRows_iff named).mp (fits place bound)).resolve_left first
        rw [Jagged.sample_size named]
        exact full
  · intro right
    obtain ⟨tds, returned, count, columns⟩ := chunkTensordict_ok positive divides right
    refine ⟨tds, returned, count, ?_⟩
    intro index chunk named
    exact hasRows_arranged divides (count ▸ (List.getElem?_eq_some_iff.mp named).1)
      (columns index chunk named).2

end Division

/-! ### Selections -/

theorem gather_range' {items : List γ} {start size : Nat} (inside : start + size ≤ items.length) :
    Gather.gather items (range' start size) = some (slice items start (start + size)) := by
  apply Gather.gather_eq_some.mpr
  apply ext_getElem
  · rw [length_map, length_map, length_range', slice_length, Nat.min_eq_left inside,
    Nat.add_sub_cancel_left]
  · intro place within _
    rw [length_map, length_range'] at within
    rw [getElem_map, getElem_map, getElem_range', Nat.one_mul]
    have here : (slice items start (start + size))[place]? = items[start + place]? := by
      rw [slice_getElem?, if_pos (by omega)]
    rw [← here, List.getElem?_eq_getElem]

theorem selectColumn_ok {torch : Torch α} {column : Column α β} {start size : Nat} (inside : start + size ≤ column.count)
    (unbinds : ∀ tensor, column = .nested tensor → 0 < size ∧ torch.unbinds tensor) :
    selectColumn torch (range' start size) column = .ok (rowsOfColumn start (start + size) column) := by
  cases column with
  | plain rows =>
    rw [selectColumn, orFailure_some (gather_range' inside)]
    rfl
  | nested tensor =>
    obtain ⟨some, unbinds⟩ := unbinds tensor rfl
    have within : start + size ≤ tensor.samples.length := by
      rw [Jagged.samples_length]
      exact inside
    rw [selectColumn, unbind_ok unbinds, ok_bind, orFailure_some (gather_range' within),
      ok_bind,
      list_slice (Nat.lt_add_of_pos_right some) inside]
    rfl

section Selection
variable {td : TensorDict α β} {torch : Torch α} {start size : Nat}

theorem indexSelect_ok (inside : start + size ≤ td.batchSize)
    (unbinds : ∀ column ∈ td.nestedColumns, 0 < size ∧ torch.unbinds column.2) :
    ∃ selected, indexSelectTensorDict torch td (range' start size) = .ok selected ∧ selected.batchSize = size ∧
      selected.columns = td.columns.map (fun column => (column.1, rowsOfColumn start (start + size) column.2)) := by
  have within : ∀ column ∈ td.columns, start + size ≤ column.2.count := by
    intro column member
    rw [td.sized _ member]
    exact inside
  have jagged : ∀ column ∈ td.columns, ∀ tensor, column.2 = .nested tensor → 0 < size ∧
      torch.unbinds tensor := by
    rintro ⟨key, entry⟩ member tensor rfl
    exact unbinds (key, tensor) (mem_nestedColumns.mpr member)
  have selected : td.columns.mapM (fun column => do
      let selected ← selectColumn torch (range' start size) column.2
      return (column.1, selected)) =
      (.ok (td.columns.map (fun column => (column.1,
          rowsOfColumn start (start + size) column.2))) : Except Failure _) := by
    apply mapM_map
    intro column member
    rw [selectColumn_ok (within column member) (jagged column member)]
    rfl
  have keyed : ((td.columns.map (fun column => (column.1,
      rowsOfColumn start (start + size) column.2))).map Prod.fst).Nodup := by
    rw [map_map]
    exact td.keyed
  have sized : ∀ column ∈ td.columns.map (fun column => (column.1, rowsOfColumn start (start + size) column.2)),
      column.2.count = size := by
    intro column member
    obtain ⟨origin, inside, rfl⟩ := mem_map.mp member
    have grows : ∀ tensor, origin.2 = .nested tensor → start < start + size :=
      fun tensor isTensor => Nat.lt_add_of_pos_right (jagged origin inside tensor isTensor).1
    rw [rowsOfColumn_count grows (within origin inside), Nat.add_sub_cancel_left]
  refine ⟨⟨size, _, keyed, sized⟩, ?_, rfl, rfl⟩
  rw [indexSelectTensorDict, selected, ok_bind, length_range']
  exact ofColumns_ok keyed sized

theorem unbinds_of_indexSelect {indices : List Nat} {selected : TensorDict α β}
    (returned : indexSelectTensorDict torch td indices = .ok selected) :
    ∀ column ∈ td.nestedColumns, torch.unbinds column.2 := by
  intro column member
  obtain ⟨columns, all, _⟩ := bind_eq_ok.mp returned
  obtain ⟨entry, _, made⟩ := forall₂_left (mapM_succeeded all) (mem_nestedColumns.mp member)
  obtain ⟨part, isPart, _⟩ := bind_eq_ok.mp made
  obtain ⟨samples, isSamples, _⟩ := bind_eq_ok.mp isPart
  exact unbinds_of_ok isSamples

end Selection

/-! ### Concatenation -/

theorem sameKeys_self (keys : List String) : sameKeys keys keys = true := by
  have own : keys.all (keys.contains ·) = true := by
    rw [all_eq_true]
    intro key member
    exact contains_iff_mem.mpr member
  rw [sameKeys, own, Bool.and_self]

theorem concatNestedTensors_ok {torch : Torch α} {tensor : Jagged α} {chunks chunkSize : Nat} (positive : 0 < chunks)
    (some : 0 < chunkSize) (whole : tensor.lengths.length = chunks * chunkSize)
    (unbinds : ∀ index < chunks, torch.unbinds (rowsOf tensor (index * chunkSize) ((index + 1) * chunkSize))) :
    concatNestedTensors torch ((range chunks).map (fun index =>
      rowsOf tensor (index * chunkSize) ((index + 1) * chunkSize))) = .ok tensor := by
  have grows : ∀ index, index * chunkSize < (index + 1) * chunkSize :=
    fun index => Nat.mul_lt_mul_of_pos_right (Nat.lt_succ_self index) some
  have inside : ∀ index < chunks, (index + 1) * chunkSize ≤ tensor.lengths.length := by
    intro index here
    rw [whole]
    exact Nat.mul_le_mul_right _ here
  have parts : (range chunks).mapM (fun index => torch.unbind
    (rowsOf tensor (index * chunkSize) ((index + 1) * chunkSize))) =
      .ok ((range chunks).map (Blocks.block chunkSize tensor.samples)) := by
    apply mapM_map
    intro index member
    have here := mem_range.mp member
    rw [unbind_ok (unbinds index here), rowsOf_samples (grows index) (inside index here)]
    rfl
  have samples : ((range chunks).map (Blocks.block chunkSize tensor.samples)).flatten =
      tensor.samples := by
    rw [← flatMap_def]
    exact Blocks.blocks_whole (tensor.samples_length.trans whole)
  have first : ∃ rest, (range chunks).map
    (fun index => rowsOf tensor (index * chunkSize) ((index + 1) * chunkSize)) =
      rowsOf tensor (0 * chunkSize) ((0 + 1) * chunkSize) :: rest := by
    obtain ⟨count, rfl⟩ := Nat.exists_eq_succ_of_ne_zero positive.ne'
    rw [range_succ_eq_map]
    exact ⟨_, rfl⟩
  obtain ⟨rest, shape⟩ := first
  rw [concatNestedTensors, List.mapM_map, Function.comp_def, parts, ok_bind, samples, shape]
  simp only [rowsOf_raggedIdx (grows 0) (inside 0 positive)]
  exact list_samples tensor

theorem unbinds_of_concat {torch : Torch α} {tensors : List (Jagged α)} {tensor : Jagged α}
    (returned : concatNestedTensors torch tensors = .ok tensor) : ∀ part ∈ tensors, torch.unbinds part := by
  obtain ⟨parts, all, _⟩ := bind_eq_ok.mp returned
  intro part member
  obtain ⟨samples, _, isSamples⟩ := forall₂_left (mapM_succeeded all) member
  exact unbinds_of_ok isSamples

section Arranged
variable {td chunk : TensorDict α β} {start stop : Nat} (columns : chunk.columns = arrangedRows td start stop)
include columns

theorem arranged_plain : chunk.plainColumns =
    td.plainColumns.map (fun column => (column.1, slice column.2 start stop)) := by
  have others : td.nestedColumns.filterMap (plainEntry ∘ fun column => (column.1,
    Column.nested (rowsOf column.2 start stop))) =
      ([] : List (String × List β)) := filterMap_eq_nil_iff.mpr (fun _ _ => rfl)
  rw [plainColumns, columns, arrangedRows, filterMap_append, filterMap_map, filterMap_map,
    others, append_nil]
  exact congrFun filterMap_eq_map _

theorem arranged_nested : chunk.nestedColumns =
    td.nestedColumns.map (fun column => (column.1, rowsOf column.2 start stop)) := by
  have others : td.plainColumns.filterMap (nestedEntry ∘ fun column => (column.1,
    Column.plain (slice column.2 start stop))) =
      ([] : List (String × Jagged α)) := filterMap_eq_nil_iff.mpr (fun _ _ => rfl)
  rw [nestedColumns, columns, arrangedRows, filterMap_append, filterMap_map, filterMap_map,
    others, nil_append]
  exact congrFun filterMap_eq_map _

theorem arranged_keys : chunk.columns.map Prod.fst = td.plainColumns.map Prod.fst ++ td.nestedColumns.map Prod.fst := by
  rw [columns, arrangedRows, map_append, map_map, map_map]
  rfl

end Arranged

theorem keys_distinct (td : TensorDict α β) : (td.plainColumns.map Prod.fst ++ td.nestedColumns.map Prod.fst).Nodup := by
  have arranged := (arranged_perm (fun _ => ()) (fun _ => ()) td.columns).map Prod.fst
  rw [map_append, map_map, map_map, map_map] at arranged
  exact arranged.nodup_iff.mpr td.keyed

theorem map_listed {γ δ : Type} {items : List γ} {count : Nat} (length : items.length = count) {view : γ → δ}
    {value : Nat → δ} (each : ∀ (index : Nat) (item : γ), items[index]? = some item → view item = value index) :
    items.map view = (range count).map value := by
  apply ext_getElem
  · rw [length_map, length_map, length_range, length]
  · intro index inside _
    rw [length_map] at inside
    rw [getElem_map, getElem_map, getElem_range]
    exact each index _ (List.getElem?_eq_getElem inside)

section Restore
variable {td : TensorDict α β} {chunks : Nat} (positive : 0 < chunks) (divides : chunks ∣ td.batchSize)
  {tds : List (TensorDict α β)} (count : tds.length = chunks)
  (each : ∀ (index : Nat) (chunk : TensorDict α β), tds[index]? = some chunk →
    chunk.batchSize = td.batchSize / chunks ∧
    chunk.columns = arrangedRows td (index * (td.batchSize / chunks)) ((index + 1) * (td.batchSize / chunks)))
include count each

theorem plain_parts {column : String × List β} (member : column ∈ td.plainColumns) (divides : chunks ∣ td.batchSize) :
    tds.flatMap (fun chunk => (chunk.plainColumns.lookup column.1).getD []) = column.2 := by
  have parts : tds.map (fun chunk => (chunk.plainColumns.lookup column.1).getD []) =
      (range chunks).map (Blocks.block (td.batchSize / chunks) column.2) := by
    apply map_listed count
    intro index chunk named
    have columns := (each index chunk named).2
    have distinct : (chunk.plainColumns.map Prod.fst).Nodup := (nodup_append.mp (keys_distinct chunk)).1
    have inside : (column.1, slice column.2 (index * (td.batchSize / chunks))
      ((index + 1) * (td.batchSize / chunks))) ∈
        chunk.plainColumns := by
      rw [arranged_plain columns]
      exact mem_map.mpr ⟨column, member, rfl⟩
    rw [Indexing.lookup_of_mem distinct inside]
    rfl
  have whole : column.2.length = chunks * (td.batchSize / chunks) := by
    rw [Nat.mul_div_cancel' divides]
    exact td.sized _ (mem_plainColumns.mp member)
  rw [flatMap_def, parts, ← flatMap_def]
  exact Blocks.blocks_whole whole

theorem nested_parts {column : String × Jagged α} (member : column ∈ td.nestedColumns) :
    tds.filterMap (fun chunk => chunk.nestedColumns.lookup column.1) = (range chunks).map (fun index =>
      rowsOf column.2 (index * (td.batchSize / chunks)) ((index + 1) * (td.batchSize / chunks))) := by
  have parts : tds.map (fun chunk => chunk.nestedColumns.lookup column.1) =
    (range chunks).map (fun index =>
      some (rowsOf column.2 (index * (td.batchSize / chunks)) ((index + 1) * (td.batchSize / chunks)))) := by
    apply map_listed count
    intro index chunk named
    have columns := (each index chunk named).2
    have distinct : (chunk.nestedColumns.map Prod.fst).Nodup := (nodup_append.mp (keys_distinct chunk)).2.1
    have inside : (column.1, rowsOf column.2 (index * (td.batchSize / chunks))
      ((index + 1) * (td.batchSize / chunks))) ∈
        chunk.nestedColumns := by
      rw [arranged_nested columns]
      exact mem_map.mpr ⟨column, member, rfl⟩
    exact Indexing.lookup_of_mem distinct inside
  have listed := congrArg (filterMap id) parts
  rw [filterMap_map, filterMap_map] at listed
  exact listed.trans (congrFun filterMap_eq_map _)

include positive divides

theorem concatTensordict_steps {torch : Torch α} : concatTensordict torch tds =
    (td.nestedColumns.mapM (fun column => do
      let tensor ← concatNestedTensors torch ((range chunks).map (fun index =>
        rowsOf column.2 (index * (td.batchSize / chunks)) ((index + 1) * (td.batchSize / chunks))))
      return (column.1, Column.nested tensor)) >>= fun nested =>
        ofColumns td.batchSize (td.plainColumns.map (fun column => (column.1, .plain column.2)) ++
            nested)) := by
  have at' : ∀ chunk ∈ tds, ∃ index : Nat, chunk.columns =
      arrangedRows td (index * (td.batchSize / chunks)) ((index + 1) * (td.batchSize / chunks)) := by
    intro chunk member
    obtain ⟨index, named⟩ := mem_iff_getElem?.mp member
    exact ⟨index, (each index chunk named).2⟩
  have plainKeys : ∀ chunk ∈ tds, chunk.plainColumns.map Prod.fst = td.plainColumns.map Prod.fst := by
    intro chunk member
    obtain ⟨index, columns⟩ := at' chunk member
    rw [arranged_plain columns, map_map]
    rfl
  have nestedKeys : ∀ chunk ∈ tds, chunk.nestedColumns.map Prod.fst = td.nestedColumns.map Prod.fst := by
    intro chunk member
    obtain ⟨index, columns⟩ := at' chunk member
    rw [arranged_nested columns, map_map]
    rfl
  have keys : ∀ chunk ∈ tds, chunk.columns.map Prod.fst = td.plainColumns.map Prod.fst ++
      td.nestedColumns.map Prod.fst := by
    intro chunk member
    obtain ⟨index, columns⟩ := at' chunk member
    exact arranged_keys columns
  have total : (tds.map batchSize).sum = td.batchSize := by
    rw [map_listed count (fun index chunk named => (each index chunk named).1), map_const',
      sum_replicate,
      length_range, smul_eq_mul, Nat.mul_div_cancel' divides]
  have plain : (td.plainColumns.map Prod.fst).map (fun key =>
      (key, (Column.plain (tds.flatMap (fun td => (td.plainColumns.lookup key).getD [])) : Column α β))) =
      td.plainColumns.map (fun column => (column.1, .plain column.2)) := by
    rw [map_map]
    apply map_congr_left
    intro column member
    rw [Function.comp_apply, plain_parts count each member divides]
  have nested : (td.nestedColumns.map Prod.fst).mapM (fun key => do
      let tensor ← concatNestedTensors torch (tds.filterMap (fun td => td.nestedColumns.lookup key))
      return (key, (Column.nested tensor : Column α β))) = td.nestedColumns.mapM (fun column => do
      let tensor ← concatNestedTensors torch ((range chunks).map (fun index =>
        rowsOf column.2 (index * (td.batchSize / chunks)) ((index + 1) * (td.batchSize / chunks))))
      return (column.1, Column.nested tensor)) := by
    rw [List.mapM_map]
    apply mapM_congr
    intro column member
    rw [Function.comp_apply, nested_parts count each member]
  have filled : tds ≠ [] := by
    rintro rfl
    exact absurd count positive.ne
  obtain ⟨first, rest, rfl⟩ := exists_cons_of_ne_nil filled
  have agree : (first :: rest).all (fun chunk => sameKeys (chunk.nestedColumns.map Prod.fst)
    (td.nestedColumns.map Prod.fst)) =
      true := by
    rw [all_eq_true]
    intro chunk member
    rw [nestedKeys chunk member, sameKeys_self]
  have alike : (first :: rest).all (fun td => sameKeys (td.columns.map Prod.fst) (first.columns.map Prod.fst)) =
      true := by
    rw [all_eq_true]
    intro chunk member
    rw [keys chunk member, keys first mem_cons_self, sameKeys_self]
  simp only [concatTensordict, agree, alike, not_true_eq_false, and_false, if_false,
    plainKeys first mem_cons_self,
    nestedKeys first mem_cons_self, plain, nested, total]

theorem concatTensordict_ok {torch : Torch α} (unbinds : ∀ column ∈ td.nestedColumns, ∀ index < chunks,
    torch.unbinds (rowsOf column.2 (index * (td.batchSize / chunks)) ((index + 1) * (td.batchSize / chunks)))) :
    ∃ whole, concatTensordict torch tds = .ok whole ∧ Same whole td := by
  have nested : td.nestedColumns.mapM (fun column => do
      let tensor ← concatNestedTensors torch ((range chunks).map (fun index =>
        rowsOf column.2 (index * (td.batchSize / chunks)) ((index + 1) * (td.batchSize / chunks))))
      return (column.1, (Column.nested tensor : Column α β))) =
      .ok (td.nestedColumns.map (fun column => (column.1, .nested column.2))) := by
    apply mapM_map
    intro column member
    have inside := mem_nestedColumns.mp member
    have whole : column.2.lengths.length = chunks * (td.batchSize / chunks) := by
      rw [Nat.mul_div_cancel' divides]
      exact td.sized _ inside
    rw [concatNestedTensors_ok positive (chunkSize_pos divides inside) whole (unbinds column member)]
    rfl
  have arranged : List.Perm (td.plainColumns.map
    (fun column => (column.1, (Column.plain column.2 : Column α β))) ++
      td.nestedColumns.map (fun column => (column.1, Column.nested column.2))) td.columns := by
    have own : td.columns.map (fun column => (column.1, onColumn Column.plain Column.nested column.2)) =
        td.columns := by
      conv_rhs => rw [← map_id td.columns]
      apply map_congr_left
      rintro ⟨key, entry⟩ _
      cases entry <;> rfl
    have perm := arranged_perm Column.plain Column.nested td.columns
    rw [own] at perm
    exact perm
  have keyed := (arranged.map Prod.fst).nodup_iff.mpr td.keyed
  have sized : ∀ column ∈ td.plainColumns.map
    (fun column => (column.1, (Column.plain column.2 : Column α β))) ++
      td.nestedColumns.map (fun column => (column.1, Column.nested column.2)), column.2.count = td.batchSize :=
    fun column member => td.sized column (arranged.mem_iff.mp member)
  refine ⟨⟨td.batchSize, _, keyed, sized⟩, ?_, rfl, arranged⟩
  rw [concatTensordict_steps positive divides count each, nested, ok_bind]
  exact ofColumns_ok keyed sized

theorem parts_of_concat {torch : Torch α} {whole : TensorDict α β} (returned : concatTensordict torch tds = .ok whole) :
    ∀ column ∈ td.nestedColumns, ∀ index < chunks, torch.unbinds (rowsOf column.2 (index * (td.batchSize / chunks))
          ((index + 1) * (td.batchSize / chunks))) := by
  rw [concatTensordict_steps positive divides count each] at returned
  obtain ⟨nested, all, _⟩ := bind_eq_ok.mp returned
  intro column member index here
  obtain ⟨entry, _, made⟩ := forall₂_left (mapM_succeeded all) member
  obtain ⟨tensor, isTensor, _⟩ := bind_eq_ok.mp made
  exact unbinds_of_concat isTensor _ (mem_map.mpr ⟨index, mem_range.mpr here, rfl⟩)

end Restore

/-- Every chunk is what is selected by its rows, and the chunks make up the dictionary again. -/
def Restored (torch : Torch α) (td : TensorDict α β) (chunks : Nat) (tds : List (TensorDict α β)) : Prop :=
  (∀ (index : Nat) (chunk : TensorDict α β), tds[index]? = some chunk → ∃ selected,
    indexSelectTensorDict torch td (List.range' (index * (td.batchSize / chunks)) (td.batchSize / chunks)) =
      .ok selected ∧
      Same selected chunk) ∧
  ∃ whole, concatTensordict torch tds = .ok whole ∧ Same whole td

theorem restored_iff [Zero α] {torch : Torch α} {td : TensorDict α β} {chunks : Nat} (positive : 0 < chunks)
    (divides : chunks ∣ td.batchSize) :
    (∃ tds, chunkTensordict torch td chunks = .ok tds ∧ Chunked td chunks tds ∧ Restored torch td chunks tds) ↔
      ∀ column ∈ td.nestedColumns, torch.unbinds column.2 ∧ ∀ index < chunks,
        torch.unbinds (rowsOf column.2 (index * (td.batchSize / chunks)) ((index + 1) * (td.batchSize / chunks))) := by
  constructor
  · rintro ⟨tds, returned, chunked, selects, whole, restored, _⟩
    have unbinds : ∀ column ∈ td.nestedColumns, torch.unbinds column.2 := by
      obtain ⟨chunk, named⟩ : ∃ chunk, tds[0]? = some chunk :=
        ⟨_, List.getElem?_eq_getElem (chunked.1 ▸ positive)⟩
      obtain ⟨selected, isSelected, _⟩ := selects 0 chunk named
      exact unbinds_of_indexSelect isSelected
    obtain ⟨others, same, count, each⟩ := chunkTensordict_ok positive divides
      (fun column member => Or.inl (unbinds column member))
    rw [returned] at same
    cases same
    exact fun column member => ⟨unbinds column member,
      parts_of_concat positive divides count each restored column member⟩
  · intro unbinds
    obtain ⟨tds, returned, count, each⟩ :=
      chunkTensordict_ok positive divides (fun column member => Or.inl (unbinds column member).1)
    have rows : ∀ (index : Nat) (chunk : TensorDict α β), tds[index]? = some chunk → index < chunks :=
      fun index chunk named => count ▸ (List.getElem?_eq_some_iff.mp named).1
    refine ⟨tds, returned, ⟨count, ?_⟩, ?_, ?_⟩
    · intro index chunk named
      exact hasRows_arranged divides (rows index chunk named) (each index chunk named).2
    · intro index chunk named
      obtain ⟨size, columns⟩ := each index chunk named
      have inside := rows_inside divides (rows index chunk named)
      rw [Nat.succ_mul] at inside
      obtain ⟨selected, isSelected, batchSize, isColumns⟩ := indexSelect_ok inside (fun column member =>
        ⟨chunkSize_pos divides (mem_nestedColumns.mp member), (unbinds column member).1⟩)
      refine ⟨selected, isSelected, batchSize.trans size.symm, ?_⟩
      rw [isColumns, columns, ← Nat.succ_mul]
      exact (arrangedRows_perm td _ _).symm
    · exact concatTensordict_ok positive divides count each (fun column member => (unbinds column member).2)

theorem chunkTensordict_iff [Zero α] (torch : Torch α) (td : TensorDict α β) (chunks : Nat)
    (positive : 0 < chunks)
    (divides : chunks ∣ td.batchSize) :
    ((∃ tds, chunkTensordict torch td chunks = .ok tds ∧ Chunked td chunks tds) ↔
      ∀ column ∈ td.nestedColumns, torch.unbinds column.2 ∨ Kept torch column.2) ∧
    ((∃ tds, chunkTensordict torch td chunks = .ok tds ∧ Chunked td chunks tds ∧ Restored torch td chunks tds) ↔
      ∀ column ∈ td.nestedColumns, torch.unbinds column.2 ∧ ∀ index < chunks,
        torch.unbinds (rowsOf column.2 (index * (td.batchSize / chunks))
          ((index + 1) * (td.batchSize / chunks)))) :=
  ⟨chunked_iff positive divides, restored_iff positive divides⟩

/-- Position ids of two samples, two rows each, jagged in their second dimension. -/
def positionIds : Jagged Int where
  values := ⟨[2, 4], [0, 0, 1, 2, 0, 0, 1, 2], rfl⟩
  lengths := [1, 3]
  dim := 1
  inside := Nat.one_lt_two
  whole := rfl
  present := List.cons_ne_nil 1 [3]

theorem positionColumns_sized : ∀ column ∈ [("position_ids", (Column.nested positionIds : Column Int Int))],
    column.2.count = 2 := by
  intro column member
  cases mem_singleton.mp member
  rfl

def positionDict : TensorDict Int Int :=
  ⟨2, [("position_ids", .nested positionIds)], List.nodup_singleton "position_ids", positionColumns_sized⟩

theorem le_foldr_max {lengths : List Nat} {length : Nat} (member : length ∈ lengths) : length ≤ lengths.foldr max 0 := by
  induction lengths with
  | nil => cases member
  | cons first rest ih =>
    cases member with
    | head => exact Nat.le_max_left _ _
    | tail _ later => exact (ih later).trans (Nat.le_max_right _ _)

/-- PyTorch with or without an `unbind` that works. -/
def torchOf (unbinds : Bool) : Torch Int where
  unbinds := fun _ => unbinds
  paddedWidth := fun tensor => tensor.lengths.foldr max 0
  covers := fun _ _ member => le_foldr_max member

theorem chunkTensordict_halves : ∃ tds, chunkTensordict (torchOf true) positionDict 2 = .ok tds ∧
    Chunked positionDict 2 tds ∧ Restored (torchOf true) positionDict 2 tds :=
  (chunkTensordict_iff (torchOf true) positionDict 2 Nat.two_pos (Nat.dvd_refl 2)).2.mpr
    (fun _ _ => ⟨rfl, fun _ _ => rfl⟩)

theorem chunkTensordict_padded : ¬ ∃ tds, chunkTensordict (torchOf false) positionDict 2 = .ok tds ∧
    Chunked positionDict 2 tds := by
  intro chunked
  have right := (chunked_iff Nat.two_pos (Nat.dvd_refl 2)).mp chunked
    ("position_ids", positionIds) List.mem_cons_self
  rcases right with unbinds | first | full
  · cases unbinds
  · cases first
  · have narrow := (full (positionIds.sample 0) List.mem_cons_self).1
    rw [Jagged.sample_size (show positionIds.lengths[0]? = some 1 from rfl)] at narrow
    cases narrow

end LLMFusion.TensordictUtils
