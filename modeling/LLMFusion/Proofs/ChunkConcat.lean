import LLMFusion.Proofs.MetaInfo

/-! Chunks and splits of any batch. The tensor columns and the others are cut at the same
bounds; without tensors each column is cut by its own length. -/

namespace LLMFusion.Protocol
open List hiding mapM_map
open Slices Fallible

/-! ### Bounds -/

section Bounds
variable {α : Type}

def sizedBounds (size length : Nat) : List (Nat × Nat) :=
  (List.range ((length + size - 1) / size)).map (fun i => (i * size, min ((i + 1) * size) length))

theorem covers_clipped {size length pieces : Nat} (reaches : length ≤ pieces * size)
    (begins : ∀ i < pieces, i * size ≤ length) :
    Covers 0 length ((range pieces).map (fun i => (i * size, min ((i + 1) * size) length))) := by
  have shifted : ∀ count start, start + count = pieces → start * size ≤ length →
      Covers (start * size) length ((range' start count).map (fun i => (i * size, min ((i + 1) * size) length))) := by
    intro count
    induction count with
    | zero =>
      rintro start rfl inside
      exact Nat.le_antisymm inside (by simpa using reaches)
    | succ count ih =>
      intro start whole inside
      rw [range'_succ, map_cons]
      refine ⟨rfl, Nat.le_min.mpr ⟨Nat.mul_le_mul_right _ (Nat.le_succ start), inside⟩, ?_⟩
      cases count with
      | zero =>
        have last : length ≤ (start + 1) * size := by
          rw [show start + 1 = pieces by omega]
          exact reaches
        exact Nat.min_eq_right last
      | succ count =>
        have next : (start + 1) * size ≤ length := begins _ (by omega)
        rw [Nat.min_eq_left next]
        exact ih (start + 1) (by omega) next
  have whole := shifted pieces 0 (Nat.zero_add _) (by simp)
  rwa [Nat.zero_mul, ← range_eq_range'] at whole

theorem sizedBounds_covers {size : Nat} (positive : 0 < size) (length : Nat) :
    Covers 0 length (sizedBounds size length) := by
  apply covers_clipped
  · have whole := Nat.div_add_mod (length + size - 1) size
    have less := Nat.mod_lt (length + size - 1) positive
    rw [Nat.mul_comm]
    omega
  · intro i inside
    have before := Nat.mul_le_of_le_div _ _ _ (Nat.succ_le_of_lt inside)
    rw [Nat.succ_mul] at before
    omega

theorem chunkBounds_covers (length : Nat) {chunks : Nat} (positive : 0 < chunks) :
    Covers 0 length (chunkBounds length chunks) := by
  rw [chunkBounds]
  split
  · rename_i none
    subst none
    induction chunks with
    | zero => cases positive
    | succ chunks ih =>
      refine ⟨rfl, Nat.le_refl 0, ?_⟩
      cases chunks with
      | zero => rfl
      | succ chunks => exact ih (Nat.succ_pos _)
  · rename_i some
    apply sizedBounds_covers
    exact Nat.div_pos (by omega) positive

private theorem chunk_enough (length : Nat) {chunks : Nat} (positive : 0 < chunks) :
    length ≤ chunks * ((length + chunks - 1) / chunks) := by
  have whole := Nat.div_add_mod (length + chunks - 1) chunks
  have less := Nat.mod_lt (length + chunks - 1) positive
  omega

theorem chunkBounds_length_le (length : Nat) {chunks : Nat} (positive : 0 < chunks) :
    (chunkBounds length chunks).length ≤ chunks := by
  rw [chunkBounds]
  split
  · simp
  · rename_i nonempty
    have filled : 0 < (length + chunks - 1) / chunks := Nat.div_pos (by omega) positive
    have enough := chunk_enough length positive
    rw [length_map, length_range]
    apply Nat.le_of_lt_succ
    rw [Nat.div_lt_iff_lt_mul filled, Nat.succ_mul]
    omega

/-- The pieces of `torch.chunk` are as many as asked for exactly when one fewer of their
size would not do. -/
theorem chunkBounds_length {length chunks : Nat} (positive : 0 < chunks) (nonempty : 0 < length) :
    (chunkBounds length chunks).length = chunks ↔ (chunks - 1) * ((length + chunks - 1) / chunks) < length := by
  have filled : 0 < (length + chunks - 1) / chunks := Nat.div_pos (by omega) positive
  have enough := chunk_enough length positive
  have count : (chunkBounds length chunks).length =
      (length + (length + chunks - 1) / chunks - 1) / ((length + chunks - 1) / chunks) := by
    rw [chunkBounds, if_neg (by omega), length_map, length_range]
  generalize (length + chunks - 1) / chunks = size at *
  rw [count, Nat.div_eq_iff filled]
  obtain ⟨before, rfl⟩ := Nat.exists_eq_succ_of_ne_zero (Nat.ne_of_gt positive)
  rw [Nat.succ_sub_one, Nat.succ_mul]
  rw [Nat.succ_mul] at enough
  omega

theorem arraySplit_spec (items : List α) {sections : Nat} (positive : 0 < sections) :
    (arraySplit items sections).length = sections ∧ (arraySplit items sections).flatten = items := by
  have less := Nat.mod_lt items.length positive
  have whole : (replicate (items.length % sections) (items.length / sections + 1) ++
      replicate (sections - items.length % sections) (items.length / sections)).sum = items.length := by
    rw [sum_append, sum_replicate, sum_replicate, smul_eq_mul, smul_eq_mul, Nat.mul_succ, Nat.sub_mul]
    have divided := Nat.div_add_mod items.length sections
    have part : items.length % sections * (items.length / sections) ≤ sections * (items.length / sections) :=
      Nat.mul_le_mul_right _ less.le
    omega
  have some : replicate (items.length % sections) (items.length / sections + 1) ++
      replicate (sections - items.length % sections) (items.length / sections) ≠ [] := by
    apply ne_nil_of_length_pos
    simp only [length_append, length_replicate]
    omega
  rw [arraySplit, arraySplitAt_sizes some whole]
  constructor
  · rw [length_map, boundsFrom_length, length_append, length_replicate, length_replicate]
    omega
  · have covers := boundsFrom_covers 0 (replicate (items.length % sections) (items.length / sections + 1) ++
      replicate (sections - items.length % sections) (items.length / sections))
    rw [whole, Nat.zero_add] at covers
    rw [← flatMap_def, covers.slices, slice_full _ _ (Nat.le_refl _)]

end Bounds

variable {τ ν μ : Type}

/-! ### Pieces -/

variable {data : DataProto τ ν μ}

theorem hasRows_of_batch {table : TensorDict τ} (isBatch : data.batch = some table) : HasRows data.len data := by
  have length : data.len = table.batchSize := by rw [DataProto.len, isBatch]
  refine ⟨?_, ?_⟩
  · intro other isOther
    cases isBatch.symm.trans isOther
    exact length.symm
  · intro column member
    rw [length]
    exact data.consistent table isBatch column member

def DataProto.Divides [Value μ] (autoPadding : Bool) (data : DataProto τ ν μ) (chunks : Nat) : Prop :=
  0 < chunks ∧ (data.isPaddingEnabled autoPadding = true ∨ data.len % chunks = 0)

variable {autoPadding : Bool}

theorem DataProto.Divides.not_refused [Value μ] {chunks : Nat} (divides : data.Divides autoPadding chunks) :
    ¬(chunks = 0 ∨ data.isPaddingEnabled autoPadding = false ∧ data.len % chunks ≠ 0) := by
  rintro (none | ⟨disabled, uneven⟩)
  · exact absurd divides.1 (by omega)
  · rcases divides.2 with enabled | even
    · rw [enabled] at disabled
      cases disabled
    · exact uneven even

theorem chunk_of_batch [Value μ] {table : TensorDict τ} {chunks : Nat}
    (isBatch : data.batch = some table) (divides : data.Divides autoPadding chunks)
    (count : (chunkBounds data.len chunks).length = chunks) : data.chunk autoPadding chunks =
      .ok ((chunkBounds data.len chunks).map (fun piece => data.between piece.1 piece.2)) := by
  have pieces := @chunk_pieces _ _ _ _ autoPadding data _ _ (ne_nil_of_length_pos (count.symm ▸ divides.1))
    (chunkBounds_covers data.len divides.1) (hasRows_of_batch isBatch)
  rw [count] at pieces
  apply pieces divides.2
  · exact fun _ => rfl
  · intro _ _ none
    cases isBatch.symm.trans none

/-- The columns beside the tensors, each with a function applied to its rows. -/
def DataProto.withRows (data : DataProto τ ν μ) (f : List ν → List ν) : DataProto τ ν μ where
  batch := none
  nonTensorBatch := mapColumns f data.nonTensorBatch
  metaInfo := data.metaInfo
  distinct := by simpa using data.distinct
  consistent := by simp

theorem chunk_of_columns [Value μ] {chunks : Nat}
    (isBatch : data.batch = none) (divides : data.Divides autoPadding chunks) : data.chunk autoPadding chunks =
      .ok ((range chunks).map (fun i => data.withRows (fun items => (arraySplit items chunks).getD i []))) := by
  have columns : splitColumns (arraySplit · chunks) chunks data.nonTensorBatch = _ :=
    splitColumns_eq fun column _ => (arraySplit_spec column.2 divides.1).1
  simp only [DataProto.chunk, divides.not_refused, ite_false, isBatch, columns, ok_bind]
  apply mapM_map
  intro i member
  rw [getD_eq_getElem?_getD, getElem?_map, getElem?_range (mem_range.mp member), Option.map_some,
    Option.getD_some]
  exact DataProto.make_self (data.withRows (fun items => (arraySplit items chunks).getD i []))

theorem chunk_count [Value μ] {table : TensorDict τ} {chunks : Nat}
    (isBatch : data.batch = some table) {pieces : List (DataProto τ ν μ)}
    (returned : data.chunk autoPadding chunks = .ok pieces) : chunks ≤ (chunkBounds data.len chunks).length := by
  have length := (hasRows_of_batch isBatch).tensors table isBatch
  by_cases refused : chunks = 0 ∨ data.isPaddingEnabled autoPadding = false ∧ data.len % chunks ≠ 0
  · simp only [DataProto.chunk, refused, ite_true] at returned
    cases returned
  · simp only [DataProto.chunk, refused, ite_false, isBatch] at returned
    obtain ⟨columns, _, returned⟩ := bind_eq_ok.mp returned
    by_contra fewer
    have last : (table.chunk chunks)[chunks - 1]? = none := by
      rw [TensorDict.chunk, length, getElem?_map, getElem?_eq_none (by omega), Option.map_none]
    obtain ⟨piece, _, made⟩ := forall₂_left (mapM_succeeded returned)
      (mem_range.mpr (show chunks - 1 < chunks by omega))
    rw [last] at made
    cases made

theorem split_ok {splitSize : Nat} (positive : 0 < splitSize) :
    data.split splitSize = .ok ((range ((data.len + splitSize - 1) / splitSize)).map (fun i =>
      data.between (i * splitSize) (i * splitSize + splitSize))) := by
  rw [DataProto.split, if_neg (by omega)]
  apply mapM_map
  intro i _
  exact DataProto.make_self (data.between (i * splitSize) (i * splitSize + splitSize))

/-! ### Concatenating them -/

theorem between_clipped {rows : Nat} (hasRows : HasRows rows data) (start stop : Nat) :
    SameColumns (data.between start stop) (data.between start (min stop rows)) := by
  have clipped : ∀ {α : Type} (items : List α), items.length = rows →
      slice items start stop = slice items start (min stop rows) := by
    rintro α items rfl
    rcases Nat.le_total stop items.length with inside | beyond
    · rw [Nat.min_eq_left inside]
    · rw [Nat.min_eq_right beyond, slice, slice, take_of_length_le beyond, take_length]
  constructor
  · cases isBatch : data.batch with
    | none => simp [DataProto.between, isBatch]
    | some table =>
      have length := hasRows.tensors table isBatch
      simp only [DataProto.between, isBatch, Option.map_some, Option.some.injEq]
      apply TensorDict.ext
      · change min stop table.batchSize - start = min (min stop rows) table.batchSize - start
        rw [length, Nat.min_assoc, Nat.min_self]
      · apply map_congr_left
        intro column member
        exact congrArg (Prod.mk column.1) (clipped column.2 ((table.regular column member).trans length))
  · apply map_congr_left
    intro column member
    exact congrArg (Prod.mk column.1) (clipped column.2 (hasRows.others column member))

theorem concat_columns [Value μ] {ι : Type} {whole : DataProto τ ν μ} {indices : List ι} (cut : ι → List ν → List ν)
    (nonempty : indices ≠ []) {metaInfo : List (String × μ)}
    (merged : mergeMetaInfo (replicate indices.length whole.metaInfo) = .ok metaInfo) :
    ∃ result, DataProto.concat (indices.map (fun i => whole.withRows (cut i))) = .ok result ∧ result.batch = none ∧
      result.nonTensorBatch = mapColumns (fun items => indices.flatMap (fun i => cut i items)) whole.nonTensorBatch := by
  have others : listOfDictToDictOfList ((indices.map (fun i => whole.withRows (cut i))).map DataProto.nonTensorBatch) =
      .ok (whole.nonTensorBatch.map (fun column => (column.1, indices.map (fun i => cut i column.2)))) := by
    rw [map_map]
    exact listOfDict_same Prod.fst (fun i column => cut i column.2) whole.distinct nonempty
  have metaInfos : (indices.map (fun i => whole.withRows (cut i))).map DataProto.metaInfo =
      replicate indices.length whole.metaInfo := by
    rw [map_map, ← map_const']
    rfl
  have columns : mapColumns flatten (whole.nonTensorBatch.map (fun column =>
      (column.1, indices.map (fun i => cut i column.2)))) =
      mapColumns (fun items => indices.flatMap (fun i => cut i items)) whole.nonTensorBatch := by
    rw [mapColumns, mapColumns, map_map]
    apply map_congr_left
    intro column _
    rw [Function.comp_apply, flatMap_def]
  cases indices with
  | nil => exact absurd rfl nonempty
  | cons first rest =>
    refine ⟨⟨none, mapColumns (fun items => (first :: rest).flatMap (fun i => cut i items)) whole.nonTensorBatch, metaInfo,
      by simpa using whole.distinct, by simp⟩, ?_, rfl, rfl⟩
    rw [← metaInfos] at merged
    rw [map_cons] at others merged ⊢
    rw [DataProto.concat, others, merged]
    simp only [ok_bind, DataProto.withRows, columns]
    exact DataProto.make_self ⟨none, mapColumns (fun items => (first :: rest).flatMap (fun i => cut i items))
      whole.nonTensorBatch, metaInfo, by simpa using whole.distinct, by simp⟩

theorem concat_merges [Value μ] {data : List (DataProto τ ν μ)} {result : DataProto τ ν μ}
    (returned : DataProto.concat data = .ok result) :
    ∃ merged, mergeMetaInfo (data.map DataProto.metaInfo) = .ok merged := by
  cases data with
  | nil => cases returned
  | cons first rest =>
    have tail : ∀ newBatch : Option (TensorDict τ), (do
        let nonTensorBatch ← listOfDictToDictOfList ((first :: rest).map DataProto.nonTensorBatch)
        let mergedMetaInfo ← mergeMetaInfo ((first :: rest).map DataProto.metaInfo)
        DataProto.make newBatch (mapColumns flatten nonTensorBatch) mergedMetaInfo) = .ok result →
        ∃ merged, mergeMetaInfo ((first :: rest).map DataProto.metaInfo) = .ok merged := by
      intro newBatch returned
      obtain ⟨_, _, returned⟩ := bind_eq_ok.mp returned
      obtain ⟨merged, merges, _⟩ := bind_eq_ok.mp returned
      exact ⟨merged, merges⟩
    rw [DataProto.concat] at returned
    cases isBatch : first.batch with
    | none =>
      simp only [isBatch] at returned
      exact tail none returned
    | some table =>
      simp only [isBatch] at returned
      obtain ⟨_, _, returned⟩ := bind_eq_ok.mp returned
      obtain ⟨newBatch, _, returned⟩ := bind_eq_ok.mp returned
      exact tail (some newBatch) returned

theorem mapColumns_self {f : List ν → List ν} {columns : List (String × List ν)} :
    mapColumns f columns = columns ↔ ∀ column ∈ columns, f column.2 = column.2 := by
  conv_lhs => rw [mapColumns, ← map_id columns, map_map, map_inj_left]
  constructor
  · exact fun same column member => congrArg Prod.snd (same column member)
  · exact fun same column member => Prod.ext rfl (same column member)

/-! ### Whole batches -/

/-- The `meta_info` merges in that many pieces. -/
def DataProto.Merges [Value μ] (data : DataProto τ ν μ) (pieces : Nat) : Prop :=
  ∃ merged, mergeMetaInfo (List.replicate (min 2 pieces) data.metaInfo) = .ok merged

/-- Concatenating the pieces returned gives back the columns, and each piece has the same rows
of every column. -/
def DataProto.Restores [Value μ] (data : DataProto τ ν μ) (returned : Except Failure (List (DataProto τ ν μ))) : Prop :=
  ∃ pieces result, returned = .ok pieces ∧ DataProto.concat pieces = .ok result ∧ SameColumns result data ∧
    (HasRows data.len data → ∃ bounds, Covers 0 data.len bounds ∧
      List.Forall₂ (fun piece bound => SameColumns piece (data.between bound.1 bound.2)) pieces bounds)

theorem DataProto.Merges.copies [Value μ] {pieces fewer : Nat} (merges : data.Merges pieces)
    (some : 0 < fewer) (less : fewer ≤ pieces) : ∃ merged, mergeMetaInfo (replicate fewer data.metaInfo) = .ok merged :=
  mergeMetaInfo_fewer some less ((mergeMetaInfo_copies (some.trans_le less)).mpr merges)

theorem concat_between [Value μ] {bounds bounds' : List (Nat × Nat)}
    (hasRows : HasRows data.len data) (covers : Covers 0 data.len bounds) (nonempty : bounds ≠ [])
    (same : List.Forall₂ (fun bound bound' => SameColumns (data.between bound'.1 bound'.2) (data.between bound.1 bound.2))
      bounds bounds') {pieces : Nat} (merges : data.Merges pieces) (less : bounds.length ≤ pieces) :
    ∃ result, DataProto.concat (bounds'.map (fun bound => data.between bound.1 bound.2)) = .ok result ∧
      SameColumns result data ∧ List.Forall₂ (fun piece bound => SameColumns piece (data.between bound.1 bound.2))
        (bounds'.map (fun bound => data.between bound.1 bound.2)) bounds := by
  obtain ⟨metaInfo, merged⟩ := merges.copies (length_pos_of_ne_nil nonempty) less
  have related : List.Forall₂ (fun piece bound => SameColumns piece (data.between bound.1 bound.2))
      (bounds'.map (fun bound => data.between bound.1 bound.2)) bounds := forall₂_map_left_iff.mpr same.flip
  have metaInfos : (bounds'.map (fun bound => data.between bound.1 bound.2)).map DataProto.metaInfo =
      replicate bounds.length data.metaInfo := by
    rw [map_map, same.length_eq, ← map_const']
    rfl
  obtain ⟨result, returned, restored, _⟩ := concat_pieces hasRows covers nonempty related (metaInfos ▸ merged)
  exact ⟨result, returned, restored, related⟩

theorem between_of_columns (isBatch : data.batch = none) (start stop : Nat) :
    data.between start stop = data.withRows (slice · start stop) := by
  obtain ⟨batch, nonTensorBatch, metaInfo, distinct, consistent⟩ := data
  obtain rfl : batch = none := isBatch
  rfl

theorem batch_of_uneven (uneven : ¬ HasRows data.len data) : data.batch = none := by
  cases isBatch : data.batch with
  | none => rfl
  | some table => exact absurd (hasRows_of_batch isBatch) uneven

theorem withRows_metaInfo (count : Nat) (cut : Nat → List ν → List ν) :
    ((range count).map (fun i => data.withRows (cut i))).map DataProto.metaInfo = replicate count data.metaInfo := by
  rw [map_map, ← length_range (n := count), ← map_const', length_range]
  rfl

/-- Cutting the columns and putting them together again, when nothing of a column is lost. -/
theorem concat_withRows [Value μ] {count pieces : Nat} (cut : Nat → List ν → List ν)
    (isBatch : data.batch = none) (positive : 0 < count) (merges : data.Merges pieces) (less : count ≤ pieces)
    (again : ∀ column ∈ data.nonTensorBatch, (range count).flatMap (fun i => cut i column.2) = column.2) :
    ∃ result, DataProto.concat ((range count).map (fun i => data.withRows (cut i))) = .ok result ∧
      SameColumns result data := by
  obtain ⟨metaInfo, merged⟩ := merges.copies positive less
  have nonempty : range count ≠ [] := ne_nil_of_length_pos (by simpa using positive)
  obtain ⟨result, returned, empty, columns⟩ := concat_columns cut nonempty (by rwa [length_range])
  refine ⟨result, returned, empty.trans isBatch.symm, ?_⟩
  rw [columns]
  exact mapColumns_self.mpr again

theorem arraySplit_again {α : Type} (items : List α) {chunks : Nat} (positive : 0 < chunks) :
    (range chunks).flatMap (fun i => (arraySplit items chunks).getD i []) = items := by
  obtain ⟨count, whole⟩ := arraySplit_spec items positive
  have each := @map_range_getD _ _ id (arraySplit items chunks) []
  rw [count, map_id] at each
  exact (congrArg flatten each).trans whole

theorem chunk_restores [Value μ] (autoPadding : Bool) (some : 0 < data.len)
    (merges : data.Merges data.len) {chunks : Nat} (positive : 0 < chunks) (even : chunks ∣ data.len) :
    data.Restores (data.chunk autoPadding chunks) := by
  have less : chunks ≤ data.len := Nat.le_of_dvd some even
  by_cases hasRows : HasRows data.len data
  · obtain ⟨size, whole⟩ := even
    have covers := evenBounds_covers size chunks
    have nonempty : evenBounds size chunks ≠ [] :=
      ne_nil_of_length_pos (by simpa [evenBounds] using positive)
    rw [← whole] at covers
    obtain ⟨result, returned, restored, related⟩ := concat_between hasRows covers nonempty
      (forall₂_same.mpr (fun _ _ => ⟨rfl, rfl⟩)) merges (by simpa [evenBounds] using less)
    exact ⟨_, result, chunk_ok autoPadding positive (whole ▸ hasRows), returned, restored, fun _ => ⟨_, covers, related⟩⟩
  · have isBatch := batch_of_uneven hasRows
    rw [chunk_of_columns isBatch ⟨positive, Or.inr (Nat.mod_eq_zero_of_dvd even)⟩]
    obtain ⟨result, returned, restored⟩ := concat_withRows (fun i items => (arraySplit items chunks).getD i []) isBatch
      positive merges less (fun column _ => arraySplit_again column.2 positive)
    exact ⟨_, result, rfl, returned, restored, fun rows => absurd rows hasRows⟩

theorem split_restores [Value μ] (some : 0 < data.len) (merges : data.Merges data.len)
    (covered : ∀ column ∈ data.nonTensorBatch, column.2.length ≤ data.len) {splitSize : Nat} (positive : 0 < splitSize) :
    data.Restores (data.split splitSize) := by
  have filled : 0 < (data.len + splitSize - 1) / splitSize := Nat.div_pos (by omega) positive
  have less : (data.len + splitSize - 1) / splitSize ≤ data.len := by
    apply Nat.div_le_of_le_mul
    have grows : data.len - 1 ≤ splitSize * (data.len - 1) := Nat.le_mul_of_pos_left _ positive
    rw [Nat.mul_sub_one] at grows
    have first : splitSize ≤ splitSize * data.len := Nat.le_mul_of_pos_right _ some
    omega
  rw [split_ok positive]
  by_cases hasRows : HasRows data.len data
  · have nonempty : sizedBounds splitSize data.len ≠ [] :=
      ne_nil_of_length_pos (by simpa [sizedBounds] using filled)
    have same : List.Forall₂ (fun bound bound' => SameColumns (data.between bound'.1 bound'.2) (data.between bound.1 bound.2))
        (sizedBounds splitSize data.len) ((range ((data.len + splitSize - 1) / splitSize)).map (fun i =>
          (i * splitSize, i * splitSize + splitSize))) := by
      rw [sizedBounds, forall₂_map_left_iff, forall₂_map_right_iff, forall₂_same]
      intro i _
      rw [Nat.succ_mul]
      exact between_clipped hasRows _ _
    obtain ⟨result, returned, restored, related⟩ := concat_between hasRows (sizedBounds_covers positive data.len) nonempty
      same merges (by simpa [sizedBounds] using less)
    rw [map_map] at returned related
    exact ⟨_, result, rfl, returned, restored, fun _ => ⟨_, sizedBounds_covers positive data.len, related⟩⟩
  · have isBatch := batch_of_uneven hasRows
    simp only [between_of_columns isBatch]
    have again : ∀ column ∈ data.nonTensorBatch, (range ((data.len + splitSize - 1) / splitSize)).flatMap (fun i =>
        slice column.2 (i * splitSize) (i * splitSize + splitSize)) = column.2 := by
      intro column member
      have enough : column.2.length ≤ (data.len + splitSize - 1) / splitSize * splitSize := by
        have whole := Nat.div_add_mod (data.len + splitSize - 1) splitSize
        have remainder := Nat.mod_lt (data.len + splitSize - 1) positive
        have inside := covered column member
        rw [Nat.mul_comm]
        omega
      have slices := (evenBounds_covers splitSize ((data.len + splitSize - 1) / splitSize)).slices column.2
      rw [evenBounds, flatMap_map, slice_full _ _ enough] at slices
      simpa only [Nat.succ_mul] using slices
    obtain ⟨result, returned, restored⟩ := concat_withRows
      (fun i items => slice items (i * splitSize) (i * splitSize + splitSize)) isBatch filled merges less again
    exact ⟨_, result, rfl, returned, restored, fun rows => absurd rows hasRows⟩

/-- Chunks and splits of a batch make it up again exactly when it has rows, the first column has as
many as any other, and the `meta_info` merges. -/
theorem chunk_split_concat [Value μ] (autoPadding : Bool) (data : DataProto τ ν μ) :
    ((∀ chunks, 0 < chunks → chunks ∣ data.len → data.Restores (data.chunk autoPadding chunks)) ∧
      ∀ splitSize, 0 < splitSize → data.Restores (data.split splitSize)) ↔
    0 < data.len ∧ (∀ column ∈ data.nonTensorBatch, column.2.length ≤ data.len) ∧ data.Merges data.len := by
  constructor
  · rintro ⟨-, splits⟩
    obtain ⟨pieces, result, returned, restored, same, -⟩ := splits 1 Nat.one_pos
    rw [split_ok Nat.one_pos, Except.ok.injEq, Nat.add_sub_cancel, Nat.div_one] at returned
    have positive : 0 < data.len := by
      by_contra none
      obtain rfl : pieces = [] := by simpa [Nat.eq_zero_of_not_pos none] using returned.symm
      cases restored
    obtain ⟨merged, merges⟩ := concat_merges restored
    have metaInfos : pieces.map DataProto.metaInfo = List.replicate data.len data.metaInfo := by
      rw [← returned, List.map_map, ← List.length_range (n := data.len), ← List.map_const', List.length_range]
      rfl
    rw [metaInfos] at merges
    refine ⟨positive, ?_, (mergeMetaInfo_copies positive).mp ⟨merged, merges⟩⟩
    intro column member
    by_cases hasRows : HasRows data.len data
    · exact Nat.le_of_eq (hasRows.others column member)
    · have isBatch := batch_of_uneven hasRows
      have nonempty : List.range data.len ≠ [] := List.ne_nil_of_length_pos (by simpa using positive)
      obtain ⟨other, again, -, columns⟩ := concat_columns (fun i items => slice items (i * 1) (i * 1 + 1)) nonempty
        (by rwa [List.length_range])
      simp only [between_of_columns isBatch] at returned
      rw [returned, restored] at again
      cases again
      have slices := (evenBounds_covers 1 data.len).slices column.2
      rw [evenBounds, List.flatMap_map] at slices
      simp only [Nat.succ_mul] at slices
      have kept := mapColumns_self.mp (columns.symm.trans same.2) column member
      rw [slices] at kept
      have length := congrArg List.length kept
      rw [slice_length] at length
      omega
  · rintro ⟨positive, covered, merges⟩
    exact ⟨fun _ => chunk_restores autoPadding positive merges, fun _ => split_restores positive merges covered⟩

/-- Flags in `meta_info`: no metrics are made of them. -/
local instance flagValue : Value Bool where
  truthy value := value
  isNone _ := false
  asList _ := none
  asDict _ := none
  ofList _ := false
  ofDict _ := false

/-- A tensor column and another one, with the same rows. -/
def numbered (rows : List Nat) (metaInfo : List (String × Bool)) : DataProto Nat Nat Bool where
  batch := some ⟨rows.length, [("input_ids", rows)], by simp, by simp⟩
  nonTensorBatch := [("uid", rows)]
  metaInfo := metaInfo
  distinct := by simp
  consistent := by simp

/-- Without rows a split has no pieces, which are not concatenated. -/
theorem no_rows_not_restored :
    ¬ ((∀ chunks, 0 < chunks → chunks ∣ (numbered [] []).len →
        (numbered [] []).Restores ((numbered [] []).chunk false chunks)) ∧
      ∀ splitSize, 0 < splitSize → (numbered [] []).Restores ((numbered [] []).split splitSize)) := by
  rintro ⟨-, splits⟩
  obtain ⟨pieces, result, returned, restored, -⟩ := splits 1 Nat.one_pos
  cases returned
  cases restored

/-- With padding enabled there are as many pieces as asked for, and they make up the batch,
exactly when one piece fewer would not do or there are no tensors. -/
theorem chunk_exact [Value μ] {autoPadding : Bool} {data : DataProto τ ν μ} {chunks : Nat}
    (enabled : data.isPaddingEnabled autoPadding = true) (nonempty : 0 < data.len) (positive : 0 < chunks) :
    (∃ pieces result, data.chunk autoPadding chunks = .ok pieces ∧ pieces.length = chunks ∧
        DataProto.concat pieces = .ok result ∧ SameColumns result data) ↔
      (data.batch = none ∨ (chunks - 1) * ((data.len + chunks - 1) / chunks) < data.len) ∧ data.Merges chunks := by
  have divides : data.Divides autoPadding chunks := ⟨positive, Or.inl enabled⟩
  cases isBatch : data.batch with
  | none =>
    have returned := chunk_of_columns isBatch divides
    constructor
    · rintro ⟨pieces, result, isPieces, -, restored, -⟩
      rw [returned] at isPieces
      cases isPieces
      have merges := concat_merges restored
      rw [withRows_metaInfo] at merges
      exact ⟨Or.inl rfl, (mergeMetaInfo_copies positive).mp merges⟩
    · rintro ⟨-, merges⟩
      obtain ⟨result, restored, same⟩ := concat_withRows (fun i items => (arraySplit items chunks).getD i []) isBatch
        positive merges (Nat.le_refl chunks) (fun column _ => arraySplit_again column.2 positive)
      exact ⟨_, result, returned, by simp, restored, same⟩
  | some table =>
    have hasRows := hasRows_of_batch isBatch
    rw [or_iff_right (by simp), ← chunkBounds_length positive nonempty]
    constructor
    · rintro ⟨pieces, result, isPieces, -, restored, -⟩
      have count := Nat.le_antisymm (chunkBounds_length_le data.len positive) (chunk_count isBatch isPieces)
      rw [chunk_of_batch isBatch divides count] at isPieces
      cases isPieces
      have merges := concat_merges restored
      have metaInfos : ((chunkBounds data.len chunks).map (fun piece => data.between piece.1 piece.2)).map
          DataProto.metaInfo = List.replicate chunks data.metaInfo := by
        conv_rhs => rw [← count]
        rw [List.map_map, ← List.map_const']
        rfl
      rw [metaInfos] at merges
      exact ⟨count, (mergeMetaInfo_copies positive).mp merges⟩
    · rintro ⟨count, merges⟩
      have some : chunkBounds data.len chunks ≠ [] := List.ne_nil_of_length_pos (by omega)
      obtain ⟨result, restored, same, _⟩ := concat_between hasRows (chunkBounds_covers data.len positive) some
        (List.forall₂_same.mpr (fun _ _ => ⟨rfl, rfl⟩)) merges (Nat.le_of_eq count)
      exact ⟨_, result, chunk_of_batch isBatch divides count, by rw [List.length_map, count], restored, same⟩

theorem chunk_exact_five :
    (numbered [0, 1, 2, 3, 4] [("_verl_auto_padding", true)]).len = 5 ∧ ∃ pieces result,
      (numbered [0, 1, 2, 3, 4] [("_verl_auto_padding", true)]).chunk false 5 = .ok pieces ∧ pieces.length = 5 ∧
        DataProto.concat pieces = .ok result ∧
        SameColumns result (numbered [0, 1, 2, 3, 4] [("_verl_auto_padding", true)]) := by
  refine ⟨rfl, ?_⟩
  apply (chunk_exact rfl (by decide) (by decide)).mpr
  exact ⟨Or.inr (by decide), _, rfl⟩

/-- Five rows in four chunks have size two, so there are three pieces. -/
theorem five_rows_in_four :
    (numbered [0, 1, 2, 3, 4] [("_verl_auto_padding", true)]).isPaddingEnabled false = true ∧
      ¬ ∃ pieces result,
        (numbered [0, 1, 2, 3, 4] [("_verl_auto_padding", true)]).chunk false 4 = .ok pieces ∧ pieces.length = 4 ∧
          DataProto.concat pieces = .ok result ∧
          SameColumns result (numbered [0, 1, 2, 3, 4] [("_verl_auto_padding", true)]) := by
  refine ⟨rfl, ?_⟩
  rintro ⟨pieces, result, returned, -⟩
  cases returned

end LLMFusion.Protocol
