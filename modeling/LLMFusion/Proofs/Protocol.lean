import LLMFusion.Protocol

/-! Cutting a batch into pieces and concatenating pieces. The pieces of a batch are
its rows between two bounds, in the tensor columns and in the others. -/

namespace LLMFusion.Protocol
open List hiding mapM_map
open Slices Fallible

/-! ### Consecutive bounds -/

section Bounds
variable {α : Type}

/-- The bounds lie one behind the other and cover what is between start and stop. -/
def Covers (start stop : Nat) : List (Nat × Nat) → Prop
  | [] => start = stop
  | bounds :: rest => bounds.1 = start ∧ start ≤ bounds.2 ∧ Covers bounds.2 stop rest

section
variable {start stop : Nat} {bounds : List (Nat × Nat)} (covers : Covers start stop bounds)
include start stop bounds covers

theorem Covers.ordered : start ≤ stop := by
  induction bounds generalizing start with
  | nil => exact Nat.le_of_eq covers
  | cons first rest ih => exact covers.2.1.trans (ih covers.2.2)

theorem Covers.inside : ∀ piece ∈ bounds, start ≤ piece.1 ∧ piece.1 ≤ piece.2 ∧ piece.2 ≤ stop := by
  induction bounds generalizing start with
  | nil => simp
  | cons first rest ih =>
    obtain ⟨begins, grows, covers⟩ := covers
    intro piece member
    rcases mem_cons.mp member with rfl | later
    · exact ⟨Nat.le_of_eq begins.symm, begins ▸ grows, covers.ordered⟩
    · obtain ⟨first, middle, last⟩ := ih covers piece later
      exact ⟨grows.trans first, middle, last⟩

theorem Covers.slices (items : List α) :
    bounds.flatMap (fun piece => slice items piece.1 piece.2) = slice items start stop := by
  induction bounds generalizing start with
  | nil =>
    obtain rfl : start = stop := covers
    simp [slice]
  | cons first rest ih =>
    obtain ⟨rfl, grows, covers⟩ := covers
    rw [flatMap_cons, ih covers]
    exact slice_append_slice items grows covers.ordered

theorem Covers.sizes : (bounds.map (fun piece => piece.2 - piece.1)).sum = stop - start := by
  induction bounds generalizing start with
  | nil =>
    obtain rfl : start = stop := covers
    simp
  | cons first rest ih =>
    obtain ⟨rfl, grows, covers⟩ := covers
    have last := covers.ordered
    rw [map_cons, sum_cons, ih covers]
    omega

end

def evenBounds (size chunks : Nat) : List (Nat × Nat) := (List.range chunks).map (fun i => (i * size, (i + 1) * size))

theorem evenBounds_covers (size chunks : Nat) : Covers 0 (chunks * size) (evenBounds size chunks) := by
  have shifted : ∀ start, Covers (start * size) ((start + chunks) * size)
      ((range' start chunks).map (fun i => (i * size, (i + 1) * size))) := by
    induction chunks with
    | zero => exact fun start => rfl
    | succ chunks ih =>
      intro start
      refine ⟨rfl, Nat.mul_le_mul_right _ (Nat.le_succ start), ?_⟩
      have rest := ih (start + 1)
      rwa [Nat.add_assoc, Nat.add_comm 1] at rest
  have whole := shifted 0
  rwa [Nat.zero_mul, Nat.zero_add, ← range_eq_range'] at whole

theorem chunkBounds_even {chunks : Nat} (positive : 0 < chunks) (size : Nat) :
    chunkBounds (chunks * size) chunks = evenBounds size chunks := by
  rw [chunkBounds, evenBounds]
  by_cases none : size = 0
  · subst none
    simp only [Nat.mul_zero, ite_true, map_const', length_range]
  · have filled : 0 < size := Nat.pos_of_ne_zero none
    have whole : chunks * size ≠ 0 := Nat.mul_ne_zero (by omega) none
    have each : (chunks * size + chunks - 1) / chunks = size := by
      rw [Nat.add_sub_assoc positive, Nat.mul_add_div positive, Nat.div_eq_of_lt (by omega), Nat.add_zero]
    have count : (chunks * size + size - 1) / size = chunks := by
      rw [Nat.add_sub_assoc filled, Nat.mul_comm, Nat.mul_add_div filled, Nat.div_eq_of_lt (by omega), Nat.add_zero]
    simp only [whole, ite_false, each, count]
    apply map_congr_left
    intro i member
    rw [Nat.min_eq_left (Nat.mul_le_mul_right _ (mem_range.mp member))]

def boundsFrom (start : Nat) : List Nat → List (Nat × Nat)
  | [] => []
  | size :: sizes => (start, start + size) :: boundsFrom (start + size) sizes

theorem boundsFrom_length (start : Nat) (sizes : List Nat) : (boundsFrom start sizes).length = sizes.length := by
  induction sizes generalizing start with
  | nil => rfl
  | cons size sizes ih => exact congrArg (· + 1) (ih (start + size))

theorem boundsFrom_covers (start : Nat) (sizes : List Nat) : Covers start (start + sizes.sum) (boundsFrom start sizes) := by
  induction sizes generalizing start with
  | nil => rfl
  | cons size sizes ih =>
    refine ⟨rfl, Nat.le_add_right _ _, ?_⟩
    rw [sum_cons, ← Nat.add_assoc]
    exact ih (start + size)

theorem Covers.boundsFrom_sizes {start stop : Nat} {bounds : List (Nat × Nat)} (covers : Covers start stop bounds) :
    boundsFrom start (bounds.map (fun piece => piece.2 - piece.1)) = bounds := by
  induction bounds generalizing start with
  | nil => rfl
  | cons first rest ih =>
    obtain ⟨rfl, grows, covers⟩ := covers
    rw [map_cons, boundsFrom, Nat.add_sub_cancel' grows, ih covers]

theorem zip_chunkIndices {sizes : List Nat} (some : sizes ≠ []) (start : Nat) :
    (start :: chunkIndices start sizes).zip (chunkIndices start sizes ++ [start + sizes.sum]) = boundsFrom start sizes := by
  induction sizes generalizing start with
  | nil => exact absurd rfl some
  | cons size sizes ih =>
    cases sizes with
    | nil => simp [chunkIndices, boundsFrom]
    | cons next sizes =>
      have rest := ih (cons_ne_nil _ _) (start + size)
      rw [chunkIndices, cons_append, zip_cons_cons, sum_cons, ← Nat.add_assoc, rest]
      rfl

theorem arraySplitAt_sizes {items : List α} {sizes : List Nat} (some : sizes ≠ []) (whole : sizes.sum = items.length) :
    arraySplitAt items (chunkIndices 0 sizes) = (boundsFrom 0 sizes).map (fun piece => slice items piece.1 piece.2) := by
  have bounds := zip_chunkIndices some 0
  rw [Nat.zero_add, whole] at bounds
  rw [arraySplitAt, bounds]

theorem arraySplitAt_covers {items : List α} {bounds : List (Nat × Nat)} (some : bounds ≠ [])
    (covers : Covers 0 items.length bounds) :
    arraySplitAt items (chunkIndices 0 (bounds.map (fun piece => piece.2 - piece.1))) =
      bounds.map (fun piece => slice items piece.1 piece.2) := by
  rw [arraySplitAt_sizes (fun none => some (map_eq_nil_iff.mp none)) covers.sizes, covers.boundsFrom_sizes]

theorem arraySplit_even {items : List α} {size chunks : Nat} (positive : 0 < chunks)
    (length : items.length = chunks * size) :
    arraySplit items chunks = (evenBounds size chunks).map (fun piece => slice items piece.1 piece.2) := by
  have each : items.length / chunks = size := by rw [length, Nat.mul_div_cancel_left _ positive]
  have extras : items.length % chunks = 0 := by rw [length, Nat.mul_mod_right]
  have sizes : (evenBounds size chunks).map (fun piece => piece.2 - piece.1) = replicate chunks size := by
    rw [evenBounds, map_map, ← length_range (n := chunks), ← map_const', length_range]
    apply map_congr_left
    intro i _
    rw [Function.comp_apply, Nat.succ_mul, Nat.add_sub_cancel_left]
  have nonempty : evenBounds size chunks ≠ [] := ne_nil_of_length_pos (by simpa [evenBounds] using positive)
  rw [arraySplit, each, extras, replicate_zero, nil_append, Nat.sub_zero, ← sizes]
  exact arraySplitAt_covers nonempty (length ▸ evenBounds_covers size chunks)

end Bounds

/-! ### Rows -/

section Rows
variable {τ ν μ : Type}

/-- All columns have the same number of rows; a batch without columns has any number. -/
structure HasRows (rows : Nat) (data : DataProto τ ν μ) : Prop where
  tensors : ∀ table, data.batch = some table → table.batchSize = rows
  others : ∀ column ∈ data.nonTensorBatch, column.2.length = rows

def DataProto.between (data : DataProto τ ν μ) (start stop : Nat) : DataProto τ ν μ where
  batch := data.batch.map (fun table => table.slice start stop)
  nonTensorBatch := mapColumns (Slices.slice · start stop) data.nonTensorBatch
  metaInfo := data.metaInfo
  distinct := by simpa using data.distinct
  consistent := by
    intro table isTable column member
    obtain ⟨original, isOriginal, rfl⟩ := Option.map_eq_some_iff.mp isTable
    obtain ⟨before, inside, rfl⟩ := List.mem_map.mp member
    rw [slice_length, data.consistent original isOriginal before inside]
    rfl

theorem HasRows.len {rows : Nat} {data : DataProto τ ν μ} (hasRows : HasRows rows data) :
    data.len = rows ∨ data.len = 0 := by
  obtain ⟨batch, nonTensorBatch, metaInfo, distinct, consistent⟩ := data
  cases batch with
  | some table => exact Or.inl (hasRows.tensors table rfl)
  | none =>
    cases nonTensorBatch with
    | nil => exact Or.inr rfl
    | cons column columns => exact Or.inl (hasRows.others column mem_cons_self)

theorem HasRows.between {rows start stop : Nat} {data : DataProto τ ν μ} (hasRows : HasRows rows data)
    (inside : stop ≤ rows) : HasRows (stop - start) (data.between start stop) where
  tensors := by
    intro table isTable
    obtain ⟨original, isOriginal, rfl⟩ := Option.map_eq_some_iff.mp isTable
    change min stop original.batchSize - start = stop - start
    rw [hasRows.tensors original isOriginal, Nat.min_eq_left inside]
  others := by
    intro column member
    obtain ⟨original, isOriginal, rfl⟩ := mem_map.mp member
    rw [slice_length, hasRows.others original isOriginal, Nat.min_eq_left inside]

@[simp] theorem DataProto.make_self (data : DataProto τ ν μ) :
    DataProto.make data.batch data.nonTensorBatch data.metaInfo = .ok data := by
  obtain ⟨batch, nonTensorBatch, metaInfo, distinct, consistent⟩ := data
  cases batch with
  | none => simp [DataProto.make, distinct]
  | some table =>
    have lengths := consistent table rfl
    simp only [DataProto.make, distinct, dite_true]
    rw [dif_pos (by simpa using lengths)]

theorem make_fields {data : DataProto τ ν μ} {batch : Option (TensorDict τ)} {nonTensorBatch : List (String × List ν)}
    {metaInfo : List (String × μ)} (returned : DataProto.make batch nonTensorBatch metaInfo = .ok data) :
    data.batch = batch ∧ data.nonTensorBatch = nonTensorBatch ∧ data.metaInfo = metaInfo := by
  rw [DataProto.make] at returned
  split at returned
  · split at returned
    · cases returned
      exact ⟨rfl, rfl, rfl⟩
    · split at returned
      · cases returned
        exact ⟨rfl, rfl, rfl⟩
      · cases returned
  · cases returned

/-- The data with the same columns. -/
def SameColumns {τ ν μ μ' : Type} (first : DataProto τ ν μ) (second : DataProto τ ν μ') : Prop :=
  first.batch = second.batch ∧ first.nonTensorBatch = second.nonTensorBatch

theorem map_range_getD {α β : Type} {f : α → β} {items : List α} (default : α) :
    (range items.length).map (fun i => f (items.getD i default)) = items.map f := by
  apply ext_getElem (by simp)
  intro i _ inside
  have inside : i < items.length := by simpa using inside
  simp [inside]

theorem splitColumns_eq {split : List ν → List (List ν)} {chunks : Nat} {columns : List (String × List ν)}
    (counts : ∀ column ∈ columns, (split column.2).length = chunks) :
    splitColumns split chunks columns = .ok ((range chunks).map (fun i =>
      columns.map (fun column => (column.1, (split column.2).getD i [])))) := by
  have each : ∀ column ∈ columns,
      (if (split column.2).length = chunks then Except.ok (column.1, split column.2)
        else .error (.chunkCount (split column.2).length chunks)) = (.ok (column.1, split column.2) : Except Failure _) :=
    fun column member => if_pos (counts column member)
  rw [splitColumns, mapM_map _ each, ok_bind]
  simp only [map_map]
  rfl

theorem splitColumns_pieces {split : List ν → List (List ν)} {bounds : List (Nat × Nat)} {columns : List (String × List ν)}
    (pieces : ∀ column ∈ columns, split column.2 = bounds.map (fun piece => slice column.2 piece.1 piece.2)) :
    splitColumns split bounds.length columns =
      .ok (bounds.map (fun piece => mapColumns (slice · piece.1 piece.2) columns)) := by
  rw [splitColumns_eq (fun column member => by rw [pieces column member, length_map]), ← map_range_getD (0, 0)]
  congr 1
  apply map_congr_left
  intro i member
  have inside := mem_range.mp member
  apply map_congr_left
  intro column isColumn
  simp [pieces column isColumn, inside]

theorem chunk_pieces [Value μ] {autoPadding : Bool} {data : DataProto τ ν μ} {rows : Nat} {bounds : List (Nat × Nat)}
    (some : bounds ≠ []) (covers : Covers 0 rows bounds) (hasRows : HasRows rows data)
    (accepted : data.isPaddingEnabled autoPadding = true ∨ data.len % bounds.length = 0)
    (tensors : data.batch.isSome → chunkBounds rows bounds.length = bounds)
    (others : ∀ column ∈ data.nonTensorBatch, data.batch = none →
      arraySplit column.2 bounds.length = bounds.map (fun piece => slice column.2 piece.1 piece.2)) :
    data.chunk autoPadding bounds.length = .ok (bounds.map (fun piece => data.between piece.1 piece.2)) := by
  have refused : ¬ (bounds.length = 0 ∨ data.isPaddingEnabled autoPadding = false ∧ data.len % bounds.length ≠ 0) := by
    rintro (none | ⟨disabled, uneven⟩)
    · exact some (eq_nil_of_length_eq_zero none)
    · rcases accepted with enabled | even
      · exact absurd (enabled.symm.trans disabled) (by decide)
      · exact uneven even
  have indexed := @map_range_getD _ _ (fun piece => data.between piece.1 piece.2) bounds (0, 0)
  simp only [DataProto.chunk, refused, ite_false, ← indexed]
  cases isBatch : data.batch with
  | some table =>
    have length := hasRows.tensors table isBatch
    have chunked : table.chunk bounds.length = bounds.map (fun piece => table.slice piece.1 piece.2) := by
      rw [TensorDict.chunk, length, tensors (by rw [isBatch]; rfl)]
    have sizes : (table.chunk bounds.length).map TensorDict.batchSize = bounds.map (fun piece => piece.2 - piece.1) := by
      rw [chunked, map_map]
      apply map_congr_left
      intro piece member
      change min piece.2 table.batchSize - piece.1 = _
      rw [length, Nat.min_eq_left (covers.inside piece member).2.2]
    have columns : splitColumns (arraySplitAt · (chunkIndices 0 (bounds.map (fun piece => piece.2 - piece.1))))
        bounds.length data.nonTensorBatch = _ :=
      splitColumns_pieces (fun column member => arraySplitAt_covers some (hasRows.others column member ▸ covers))
    simp only [sizes, columns, ok_bind]
    apply mapM_map
    intro i member
    have inside := mem_range.mp member
    have made := DataProto.make_self (data.between bounds[i].1 bounds[i].2)
    simp only [DataProto.between, isBatch, Option.map_some] at made
    simp [chunked, inside, made, DataProto.between, isBatch]
  | none =>
    have columns : splitColumns (arraySplit · bounds.length) bounds.length data.nonTensorBatch = _ :=
      splitColumns_pieces (fun column member => others column member isBatch)
    simp only [columns, ok_bind]
    apply mapM_map
    intro i member
    have inside := mem_range.mp member
    have made := DataProto.make_self (data.between bounds[i].1 bounds[i].2)
    simp only [DataProto.between, isBatch, Option.map_none] at made
    simp [inside, made, DataProto.between, isBatch]

theorem chunk_ok [Value μ] (autoPadding : Bool) {data : DataProto τ ν μ} {size chunks : Nat} (positive : 0 < chunks)
    (hasRows : HasRows (chunks * size) data) : data.chunk autoPadding chunks =
      .ok ((evenBounds size chunks).map (fun piece => data.between piece.1 piece.2)) := by
  have whole : data.len % chunks = 0 := by
    rcases hasRows.len with length | length
    · rw [length, Nat.mul_mod_right]
    · rw [length, Nat.zero_mod]
  have count : (evenBounds size chunks).length = chunks := by rw [evenBounds, length_map, length_range]
  have pieces := @chunk_pieces _ _ _ _ autoPadding data _ _ (ne_nil_of_length_pos (count.symm ▸ positive))
    (evenBounds_covers size chunks) hasRows
  rw [count] at pieces
  apply pieces (Or.inr whole)
  · exact fun _ => chunkBounds_even positive size
  · exact fun column member _ => arraySplit_even positive (hasRows.others column member)

end Rows

/-! ### Concatenating pieces -/

section Dictionaries
variable {α β : Type}

theorem lookup_mapColumns (f : List α → List β) (columns : List (String × List α)) (key : String) :
    (mapColumns f columns).lookup key = (columns.lookup key).map f := by
  induction columns with
  | nil => rfl
  | cons column columns ih =>
    rw [mapColumns, map_cons, lookup_cons, lookup_cons]
    cases key == column.1 with
    | true => rfl
    | false => exact ih

theorem lookup_of_mem {key : String} {value : α} {entries : List (String × α)} (distinct : (entries.map Prod.fst).Nodup)
    (member : (key, value) ∈ entries) : entries.lookup key = some value := by
  induction entries with
  | nil => cases member
  | cons entry entries ih =>
    rw [map_cons, nodup_cons] at distinct
    rw [lookup_cons]
    rcases mem_cons.mp member with rfl | later
    · simp
    · have different : (key == entry.1) = false := by
        rw [beq_eq_false_iff_ne]
        rintro rfl
        exact distinct.1 (mem_map.mpr ⟨_, later, rfl⟩)
      simp only [different]
      exact ih distinct.2 later

private theorem appendAt_append {done rest : List (String × List α)} {key : String} {items : List α} {item : α}
    (absent : key ∉ done.map Prod.fst) :
    appendAt (done ++ (key, items) :: rest) (key, item) = .ok (done ++ (key, items ++ [item]) :: rest) := by
  induction done with
  | nil => simp [appendAt]
  | cons column done ih =>
    rw [map_cons, mem_cons, not_or] at absent
    rw [cons_append, appendAt, if_neg (fun same => absent.1 same.symm), ih absent.2]
    rfl

private theorem appendAll {γ : Type} {columns : List γ} (key : γ → String) (items : γ → List α) (item : γ → α)
    (distinct : (columns.map key).Nodup) (done : List (String × List α))
    (apart : ∀ column ∈ columns, key column ∉ done.map Prod.fst) :
    (columns.map (fun column => (key column, item column))).foldlM appendAt
        (done ++ columns.map (fun column => (key column, items column))) =
      .ok (done ++ columns.map (fun column => (key column, items column ++ [item column]))) := by
  induction columns generalizing done with
  | nil => rfl
  | cons column columns ih =>
    rw [map_cons, nodup_cons] at distinct
    rw [map_cons, map_cons, foldlM_cons, appendAt_append (apart column mem_cons_self),
      ok_bind]
    have next := ih distinct.2 (done ++ [(key column, items column ++ [item column])]) (by
      intro other member found
      rw [map_append, mem_append] at found
      rcases found with before | here
      · exact apart other (mem_cons_of_mem _ member) before
      · obtain same : key other = key column := by simpa using here
        exact distinct.1 (same ▸ mem_map_of_mem member))
    simpa using next

theorem listOfDict_same {γ ι : Type} {columns : List γ} {dicts : List ι} (key : γ → String) (item : ι → γ → α)
    (distinct : (columns.map key).Nodup) (some : dicts ≠ []) :
    listOfDictToDictOfList (dicts.map (fun dict => columns.map (fun column => (key column, item dict column)))) =
      .ok (columns.map (fun column => (key column, dicts.map (fun dict => item dict column)))) := by
  have loop : ∀ (rest before : List ι),
      (rest.map (fun dict => columns.map (fun column => (key column, item dict column)))).foldlM
          (fun output data => data.foldlM appendAt output)
          (columns.map (fun column => (key column, before.map (fun dict => item dict column)))) =
        (.ok (columns.map (fun column => (key column, (before ++ rest).map (fun dict => item dict column)))) :
          Except Failure _) := by
    intro rest
    induction rest with
    | nil =>
      intro before
      simp only [append_nil]
      rfl
    | cons dict rest ih =>
      intro before
      have step := appendAll key (fun column => before.map (fun dict => item dict column)) (item dict) distinct
        [] (by simp)
      rw [nil_append, nil_append] at step
      rw [map_cons, foldlM_cons, step, ok_bind]
      have next := ih (before ++ [dict])
      simpa using next
  cases dicts with
  | nil => exact absurd rfl some
  | cons first rest =>
    have whole := loop (first :: rest) []
    simp only [map_nil, nil_append] at whole
    simp only [listOfDictToDictOfList, map_cons, map_map, Function.comp_def] at whole ⊢
    exact whole

end Dictionaries

section Concat
variable {τ ν μ μ' : Type}

private theorem sameKeys_mapColumns {α β : Type} (f g : List α → List β) (columns : List (String × List α)) :
    sameKeys (mapColumns f columns) (mapColumns g columns) = true := by
  simp only [sameKeys, Bool.and_eq_true, all_eq_true, beq_iff_eq]
  refine ⟨?_, by simp [mapColumns]⟩
  intro column member
  obtain ⟨original, inside, rfl⟩ := mem_map.mp member
  rw [lookup_mapColumns, Option.isSome_map]
  by_contra missing
  have absent := lookup_eq_none_iff.mp (Option.not_isSome_iff_eq_none.mp missing) original inside
  simp at absent

theorem cat_slices {rows : Nat} {table : TensorDict τ} {bounds : List (Nat × Nat)} (length : table.batchSize = rows)
    (covers : Covers 0 rows bounds) (some : bounds ≠ []) :
    TensorDict.cat (bounds.map (fun piece => table.slice piece.1 piece.2)) = .ok table := by
  have sizes : ((bounds.map (fun piece => table.slice piece.1 piece.2)).map TensorDict.batchSize).sum = table.batchSize := by
    have each : (bounds.map (fun piece => table.slice piece.1 piece.2)).map TensorDict.batchSize =
        bounds.map (fun piece => piece.2 - piece.1) := by
      rw [map_map]
      apply map_congr_left
      intro piece member
      change min piece.2 table.batchSize - piece.1 = _
      rw [length, Nat.min_eq_left (covers.inside piece member).2.2]
    rw [each, covers.sizes, length, Nat.sub_zero]
  have columns : ∀ first : List (String × List τ), first.map Prod.fst = table.columns.map Prod.fst →
      catColumns first ((bounds.map (fun piece => table.slice piece.1 piece.2)).map TensorDict.columns) =
        table.columns := by
    intro first keys
    have named : catColumns first ((bounds.map (fun piece => table.slice piece.1 piece.2)).map TensorDict.columns) =
        (first.map Prod.fst).map (fun key => (key, bounds.flatMap (fun piece =>
          ((mapColumns (slice · piece.1 piece.2) table.columns).lookup key).getD []))) := by
      rw [catColumns, map_map, map_map]
      apply map_congr_left
      intro column _
      simp only [Function.comp_apply, flatMap_map]
      rfl
    rw [named, keys, map_map]
    conv_rhs => rw [← map_id table.columns]
    apply map_congr_left
    intro column member
    have found := lookup_of_mem table.distinct member
    simp only [Function.comp_apply, lookup_mapColumns, found, Option.map_some, Option.getD_some, id_eq]
    rw [covers.slices column.2, ← length, slice_full _ _ (Nat.le_of_eq (table.regular column member))]
  cases bounds with
  | nil => exact absurd rfl some
  | cons first rest =>
    have keys : ∀ other ∈ (first :: rest).map (fun piece => table.slice piece.1 piece.2),
        sameKeys (table.slice first.1 first.2).columns other.columns = true := by
      intro other member
      obtain ⟨piece, _, rfl⟩ := mem_map.mp member
      exact sameKeys_mapColumns (slice · first.1 first.2) (slice · piece.1 piece.2) table.columns
    rw [map_cons] at keys sizes columns ⊢
    rw [TensorDict.cat, dif_pos keys]
    congr 1
    apply TensorDict.ext
    · exact sizes
    · exact columns _ (mapColumns_keys (slice · first.1 first.2) table.columns)

theorem requireBatch_ok {data : List (DataProto τ ν μ)} {tables : List (TensorDict τ)}
    (batches : data.map DataProto.batch = tables.map some) : data.mapM DataProto.requireBatch = .ok tables := by
  induction data generalizing tables with
  | nil =>
    obtain rfl : tables = [] := by simpa using batches.symm
    rfl
  | cons item data ih =>
    cases tables with
    | nil => cases batches
    | cons table tables =>
      rw [map_cons, map_cons, cons.injEq] at batches
      rw [mapM_cons, ih batches.2, DataProto.requireBatch, batches.1]
      rfl

theorem concat_pieces [Value μ] {rows : Nat} {whole : DataProto τ ν μ'} {data : List (DataProto τ ν μ)}
    {bounds : List (Nat × Nat)} (hasRows : HasRows rows whole) (covers : Covers 0 rows bounds) (some : bounds ≠ [])
    (pieces : List.Forall₂ (fun item piece => SameColumns item (whole.between piece.1 piece.2)) data bounds)
    {metaInfo : List (String × μ)} (merged : mergeMetaInfo (data.map DataProto.metaInfo) = .ok metaInfo) :
    ∃ result, DataProto.concat data = .ok result ∧ SameColumns result whole ∧ result.metaInfo = metaInfo := by
  have batches : data.map DataProto.batch =
      bounds.map (fun piece => whole.batch.map (fun table => table.slice piece.1 piece.2)) := by
    clear merged covers some
    induction pieces with
    | nil => rfl
    | cons same _ ih => rw [map_cons, map_cons, ih, same.1]; rfl
  have others : data.map DataProto.nonTensorBatch =
      bounds.map (fun piece => mapColumns (slice · piece.1 piece.2) whole.nonTensorBatch) := by
    clear merged covers some batches
    induction pieces with
    | nil => rfl
    | cons same _ ih => rw [map_cons, map_cons, ih, same.2]; rfl
  have lists : listOfDictToDictOfList (data.map DataProto.nonTensorBatch) = .ok (whole.nonTensorBatch.map (fun column =>
      (column.1, bounds.map (fun piece => slice column.2 piece.1 piece.2)))) := by
    rw [others]
    exact listOfDict_same Prod.fst (fun piece column => slice column.2 piece.1 piece.2) whole.distinct some
  have columns : mapColumns flatten (whole.nonTensorBatch.map (fun column =>
      (column.1, bounds.map (fun piece => slice column.2 piece.1 piece.2)))) = whole.nonTensorBatch := by
    rw [mapColumns, map_map]
    conv_rhs => rw [← map_id whole.nonTensorBatch]
    apply map_congr_left
    intro column member
    simp only [Function.comp_apply, id_eq]
    rw [← flatMap_def, covers.slices, slice_full _ _ (Nat.le_of_eq (hasRows.others column member))]
  obtain ⟨result, made, same, merges⟩ : ∃ result : DataProto τ ν μ,
      DataProto.make whole.batch whole.nonTensorBatch metaInfo = .ok result ∧ SameColumns result whole ∧
        result.metaInfo = metaInfo :=
    ⟨_, DataProto.make_self ⟨whole.batch, whole.nonTensorBatch, metaInfo, whole.distinct, whole.consistent⟩, ⟨rfl, rfl⟩,
      rfl⟩
  refine ⟨result, ?_, same, merges⟩
  cases data with
  | nil =>
    cases pieces
    exact absurd rfl some
  | cons first rest =>
    cases pieces with
    | cons same _ =>
      rw [DataProto.concat, lists, merged]
      cases isBatch : whole.batch with
      | none =>
        have head := same.1
        simp only [DataProto.between, isBatch, Option.map_none] at head
        simp only [head, ok_bind, columns]
        rw [isBatch] at made
        exact made
      | some table =>
        have head := same.1
        simp only [DataProto.between, isBatch, Option.map_some] at head
        simp only [isBatch, Option.map_some] at batches
        have tables := requireBatch_ok (batches.trans (map_map ..).symm)
        simp only [head, tables, ok_bind, cat_slices (hasRows.tensors table isBatch) covers some, columns]
        rw [isBatch] at made
        exact made

end Concat

end LLMFusion.Protocol
