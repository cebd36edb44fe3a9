import LLMFusion.Proofs.Dispatch
import LLMFusion.AutoPadding

/-! Repeated calls on the objects of one caller. Padding an object replaces its columns,
so a later call takes the padding for rows of the caller. -/

namespace LLMFusion.Dispatch
open List hiding mapM_map
open Protocol Slices Fallible

variable {τ ν μ τ' ν' μ' : Type}

/-! ### Padding -/

structure ColumnMap (α : Type) (size : Nat → Nat) where
  apply : List α → List α
  length : ∀ items, (apply items).length = size items.length

def onTable {size : Nat → Nat} (f : ColumnMap τ size) (table : TensorDict τ) : TensorDict τ where
  batchSize := size table.batchSize
  columns := mapColumns f.apply table.columns
  distinct := by simpa using table.distinct
  regular := by
    intro column member
    obtain ⟨original, inside, rfl⟩ := List.mem_map.mp member
    rw [f.length, table.regular original inside]

def onColumns {size : Nat → Nat} (f : ColumnMap τ size) (g : ColumnMap ν size) (data : DataProto τ ν μ) :
    DataProto τ ν μ where
  batch := data.batch.map (onTable f)
  nonTensorBatch := mapColumns g.apply data.nonTensorBatch
  metaInfo := data.metaInfo
  distinct := by simpa using data.distinct
  consistent := by
    intro table isTable column member
    obtain ⟨original, isOriginal, rfl⟩ := Option.map_eq_some_iff.mp isTable
    obtain ⟨before, inside, rfl⟩ := List.mem_map.mp member
    rw [g.length, data.consistent original isOriginal before inside]
    rfl

theorem onColumns_hasRows {size : Nat → Nat} (f : ColumnMap τ size) (g : ColumnMap ν size) {data : DataProto τ ν μ}
    {rows : Nat} (hasRows : HasRows rows data) : HasRows (size rows) (onColumns f g data) where
  tensors := by
    intro table isTable
    obtain ⟨original, isOriginal, rfl⟩ := Option.map_eq_some_iff.mp isTable
    change size original.batchSize = size rows
    rw [hasRows.tensors original isOriginal]
  others := by
    intro column member
    obtain ⟨original, isOriginal, rfl⟩ := mem_map.mp member
    rw [g.length, hasRows.others original isOriginal]

theorem TensorDict.make_self (table : TensorDict τ) : TensorDict.make table.batchSize table.columns = .ok table := by
  rw [TensorDict.make, dif_pos table.distinct, dif_pos table.regular]

section Columns
variable {α : Type} {rows : Nat} {columns : List (String × List α)}

def repeated (α : Type) (count : Nat) : ColumnMap α (fun length => length * count) where
  apply := repeatRows count true
  length items := by simp [repeatRows, List.length_flatMap]

def extended (α : Type) (rows count : Nat) : ColumnMap α (fun length => length + (min rows length - (rows - 1)) * count) where
  apply items := items ++ repeatRows count true (slice items (rows - 1) rows)
  length items := by
    have copies := (repeated α count).length (slice items (rows - 1) rows)
    rw [slice_length] at copies
    rw [List.length_append]
    exact congrArg (items.length + ·) copies

theorem takeColumns_last (positive : 0 < rows) (lengths : ∀ column ∈ columns, column.2.length = rows) :
    takeColumns [(rows : Int) - 1] columns = .ok (mapColumns (slice · (rows - 1) rows) columns) := by
  apply mapM_map
  intro column member
  have length := lengths column member
  have place : Indexing.position column.2.length ((rows : Int) - 1) = some (rows - 1) := by
    rw [show (rows : Int) - 1 = ((rows - 1 : Nat) : Int) by omega]
    exact Indexing.position_of_nat (by omega)
  have last : Indexing.getItem column.2 ((rows : Int) - 1) = some column.2[rows - 1] := by
    rw [Indexing.getItem, place, Option.bind_some, List.getElem?_eq_getElem]
  have cut : slice column.2 (rows - 1) rows = [column.2[rows - 1]] := by
    apply ext_getElem?
    intro index
    rw [slice_getElem?]
    cases index with
    | zero => simp [show rows - 1 < rows by omega]
    | succ index => simp; omega
  simp only [takeRows, mapM_cons, last, cut]
  rfl

end Columns

section Padding
variable [Value μ] {data padded : DataProto τ ν μ} {rows count : Nat}

omit [Value μ] in
theorem selectIdxs_last (positive : 0 < rows) (hasRows : HasRows rows data) :
    data.selectIdxs [(rows : Int) - 1] = .ok (data.between (rows - 1) rows) := by
  have made := DataProto.make_self (data.between (rows - 1) rows)
  rw [DataProto.selectIdxs, takeColumns_last positive hasRows.others]
  cases isBatch : data.batch with
  | none =>
    simp only [DataProto.between, isBatch, Option.map_none] at made ⊢
    exact made
  | some table =>
    have length := hasRows.tensors table isBatch
    have single : (table.slice (rows - 1) rows).batchSize = 1 := by
      change min rows table.batchSize - (rows - 1) = 1
      omega
    have selected := TensorDict.make_self (table.slice (rows - 1) rows)
    rw [single] at selected
    have cut : TensorDict.make 1 (mapColumns (slice · (rows - 1) rows) table.columns) = _ := selected
    simp only [takeColumns_last positive (fun column member => (table.regular column member).trans length),
      ok_bind, length_singleton, cut]
    simp only [DataProto.between, isBatch, Option.map_some] at made ⊢
    exact made

omit [Value μ] in
theorem repeatBatch_ok (data : DataProto τ ν μ) (count : Nat) :
    data.repeatBatch count true = .ok (onColumns (repeated τ count) (repeated ν count) data) := by
  have made := DataProto.make_self (onColumns (repeated τ count) (repeated ν count) data)
  rw [DataProto.repeatBatch]
  cases isBatch : data.batch with
  | none =>
    simp only [onColumns, isBatch, Option.map_none] at made ⊢
    exact made
  | some table =>
    have copied : TensorDict.make (table.batchSize * count) (mapColumns (repeatRows count true) table.columns) = _ :=
      TensorDict.make_self (onTable (repeated τ count) table)
    simp only [copied, ok_bind]
    simp only [onColumns, isBatch, Option.map_some] at made ⊢
    exact made

private theorem extended_between {α : Type} {items : List α} (count : Nat) (length : items.length = rows) (positive : 0 < rows) :
    slice ((extended α rows count).apply items) 0 rows = items ∧
      slice ((extended α rows count).apply items) rows (rows + count) =
        (repeated α count).apply (slice items (rows - 1) rows) := by
  have copies : (repeatRows count true (slice items (rows - 1) rows)).length = count := by
    have size := (repeated α count).length (slice items (rows - 1) rows)
    rw [slice_length, length, Nat.min_self, Nat.sub_sub_self positive, Nat.one_mul] at size
    exact size
  constructor
  · change slice (items ++ _) 0 rows = items
    rw [slice_append_left _ _ _ _ (by omega), slice_full _ _ (by omega)]
  · change slice (items ++ _) rows (rows + count) = _
    have shifted := slice_shift items (repeatRows count true (slice items (rows - 1) rows)) 0 count
    rw [length, Nat.add_zero] at shifted
    rw [shifted, slice_full _ _ (by omega)]
    rfl

private theorem mapColumns_extended {α : Type} {columns : List (String × List α)} (positive : 0 < rows) (count : Nat)
    (lengths : ∀ column ∈ columns, column.2.length = rows) :
    mapColumns (slice · 0 rows) (mapColumns (extended α rows count).apply columns) = columns ∧
      mapColumns (repeated α count).apply (mapColumns (slice · (rows - 1) rows) columns) =
        mapColumns (slice · rows (rows + count)) (mapColumns (extended α rows count).apply columns) := by
  have each := fun column member => extended_between count (lengths column member) positive
  constructor
  · rw [mapColumns, mapColumns, map_map]
    conv_rhs => rw [← map_id columns]
    apply map_congr_left
    intro column member
    simp only [Function.comp_apply, (each column member).1, id_eq]
  · simp only [mapColumns, map_map]
    apply map_congr_left
    intro column member
    simp only [Function.comp_apply, (each column member).2]

def extend (data : DataProto τ ν μ) (rows count : Nat) : DataProto τ ν μ :=
  onColumns (extended τ rows count) (extended ν rows count) data

omit [Value μ] in
theorem extend_hasRows (positive : 0 < rows) (count : Nat) (hasRows : HasRows rows data) :
    HasRows (rows + count) (extend data rows count) := by
  have size : rows + (min rows rows - (rows - 1)) * count = rows + count := by
    rw [Nat.min_self, Nat.sub_sub_self positive, Nat.one_mul]
  exact size ▸ onColumns_hasRows (extended τ rows count) (extended ν rows count) hasRows

omit [Value μ] in
theorem extend_between (positive : 0 < rows) (count : Nat) (hasRows : HasRows rows data) :
    SameColumns ((extend data rows count).between 0 rows) data ∧
      SameColumns (onColumns (repeated τ count) (repeated ν count) (data.between (rows - 1) rows))
        ((extend data rows count).between rows (rows + count)) := by
  have others := mapColumns_extended positive count hasRows.others
  cases isBatch : data.batch with
  | none =>
    refine ⟨⟨?_, others.1⟩, ⟨?_, others.2⟩⟩
    · simp [DataProto.between, extend, onColumns, isBatch]
    · simp [DataProto.between, extend, onColumns, isBatch]
  | some table =>
    have length := hasRows.tensors table isBatch
    have tensors := mapColumns_extended positive count (fun column member => (table.regular column member).trans length)
    have size : rows + (min rows rows - (rows - 1)) * count = rows + count := by
      rw [Nat.min_self, Nat.sub_sub_self positive, Nat.one_mul]
    have front : (onTable (extended τ rows count) table).slice 0 rows = table := by
      apply TensorDict.ext
      · change min rows (table.batchSize + (min rows table.batchSize - (rows - 1)) * count) - 0 = table.batchSize
        rw [length, size]
        omega
      · exact tensors.1
    have back : onTable (repeated τ count) (table.slice (rows - 1) rows) =
        (onTable (extended τ rows count) table).slice rows (rows + count) := by
      apply TensorDict.ext
      · change (min rows table.batchSize - (rows - 1)) * count =
          min (rows + count) (table.batchSize + (min rows table.batchSize - (rows - 1)) * count) - rows
        rw [length, size, Nat.min_self, Nat.min_self, Nat.sub_sub_self positive]
        omega
      · exact tensors.2
    refine ⟨⟨?_, others.1⟩, ⟨?_, others.2⟩⟩
    · simp only [DataProto.between, extend, onColumns, isBatch, Option.map_some, front]
    · simp only [DataProto.between, extend, onColumns, isBatch, Option.map_some, back]

omit [Value μ] in
theorem DataProto.eq_of_sameColumns {first second : DataProto τ ν μ} (same : SameColumns first second)
    (sameMeta : first.metaInfo = second.metaInfo) : first = second := by
  obtain ⟨batch, nonTensorBatch, metaInfo, distinct, consistent⟩ := first
  obtain ⟨batch', nonTensorBatch', metaInfo', distinct', consistent'⟩ := second
  obtain ⟨rfl, rfl⟩ := same
  cases sameMeta
  rfl

private theorem concat_merges {data : List (DataProto τ ν μ)} {whole : DataProto τ ν μ}
    (concatenated : DataProto.concat data = .ok whole) :
    ∃ metaInfo, mergeMetaInfo (data.map DataProto.metaInfo) = .ok metaInfo := by
  cases data with
  | nil => cases concatenated
  | cons first rest =>
    cases isMerged : mergeMetaInfo ((first :: rest).map DataProto.metaInfo) with
    | ok metaInfo => exact ⟨metaInfo, rfl⟩
    | error error =>
      rw [DataProto.concat, isMerged] at concatenated
      split at concatenated
      · obtain ⟨_, _, concatenated⟩ := bind_eq_ok.mp concatenated
        obtain ⟨_, _, concatenated⟩ := bind_eq_ok.mp concatenated
        obtain ⟨_, _, concatenated⟩ := bind_eq_ok.mp concatenated
        obtain ⟨_, _, concatenated⟩ := bind_eq_ok.mp concatenated
        cases concatenated
      · obtain ⟨_, _, concatenated⟩ := bind_eq_ok.mp concatenated
        obtain ⟨_, _, concatenated⟩ := bind_eq_ok.mp concatenated
        cases concatenated

theorem padding_ok (positive : 0 < rows) (some : 0 < count) (length : data.len = rows) (hasRows : HasRows rows data)
    (isPadded : data.padding count "" = .ok padded) : padded = extend data rows count := by
  have pieces := extend_between positive count hasRows
  rw [DataProto.padding, if_neg (by omega), if_neg (by decide), length, selectIdxs_last positive hasRows,
    ok_bind, repeatBatch_ok, ok_bind] at isPadded
  obtain ⟨whole, concatenated, isPadded⟩ := bind_eq_ok.mp isPadded
  cases isPadded
  obtain ⟨metaInfo, merged⟩ := concat_merges concatenated
  have covers : Covers 0 (rows + count) [(0, rows), (rows, rows + count)] :=
    ⟨rfl, Nat.zero_le _, rfl, Nat.le_add_right _ _, rfl⟩
  obtain ⟨result, concatenated', same, _⟩ := concat_pieces (extend_hasRows positive count hasRows) covers (by simp)
    (.cons ⟨pieces.1.1.symm, pieces.1.2.symm⟩ (.cons pieces.2 .nil)) merged
  rw [concatenated] at concatenated'
  cases concatenated'
  exact DataProto.eq_of_sameColumns same rfl

end Padding

/-! ### Calls -/

/-- The object of an argument: padding is enabled for it and its columns have the rows. -/
structure Padded [Value μ] (autoPadding : Bool) (rows : Nat) (objects : List (DataProto τ ν μ)) (ref : Nat)
    (obj : DataProto τ ν μ) : Prop where
  named : objects[ref]? = some obj
  enabled : obj.isPaddingEnabled autoPadding = true
  length : obj.len = rows
  hasRows : HasRows rows obj

/-- A call over objects of one length. -/
structure Call.Over [Value μ] (call : Call) (autoPadding : Bool) (rows : Nat) (objects : List (DataProto τ ν μ)) :
    Prop where
  workers : 0 < call.worldSize
  some : call.args ++ call.kwargs.map Prod.snd ≠ []
  args : ∀ ref ∈ call.args, ∃ obj, Padded autoPadding rows objects ref obj
  kwargs : ∀ kwarg ∈ call.kwargs, ∃ obj, Padded autoPadding rows objects kwarg.2 obj

/-- The batches that the arguments name. -/
def Call.argObjects (call : Call) (objects : List (DataProto τ ν μ)) : List (DataProto τ ν μ) :=
  call.args.filterMap (fun ref => objects[ref]?)

def Call.kwargObjects (call : Call) (objects : List (DataProto τ ν μ)) : List (String × DataProto τ ν μ) :=
  call.kwargs.filterMap (fun kwarg => objects[kwarg.2]?.map (fun obj => (kwarg.1, obj)))

/-- Every call returns what the method computes of the caller's rows, and leaves the
columns of the caller as they were. -/
def Transparent [Value μ] [Value μ'] (autoPadding : Bool)
    (method : List (DataProto τ ν μ) → List (String × DataProto τ ν μ) → DataProto τ' ν' μ')
    (objects : List (DataProto τ ν μ)) : List Call → Prop
  | [] => True
  | call :: calls => ∃ objects' result, callDpComputeProto autoPadding method objects call = .ok (objects', result) ∧
      SameColumns result (method (call.argObjects objects) (call.kwargObjects objects)) ∧
      List.Forall₂ SameColumns objects' objects ∧ Transparent autoPadding method objects' calls

section Calls
variable [Value μ] [Value μ'] {autoPadding : Bool} {rows size chunks : Nat} {objects : List (DataProto τ ν μ)}
  {call : Call}

structure Whole (rows : Nat) (objects : List (DataProto τ ν μ)) (padding : Padding τ ν μ) : Prop where
  objects : padding.objects = objects
  lengths : padding.dataProtoLen = none ∧ padding.paddingSize = none ∨
    padding.dataProtoLen = some rows ∧ padding.paddingSize = some 0

omit [Value μ] in
theorem Whole.paddingSize {padding : Padding τ ν μ} (whole : Whole rows objects padding) :
    padding.paddingSize.getD 0 = 0 := by
  rcases whole.lengths with ⟨_, none⟩ | ⟨_, zero⟩
  · rw [none]
    rfl
  · rw [zero]
    rfl

variable {obj : DataProto τ ν μ}

omit [Value μ] in
private theorem commonLen_whole {padding : Padding τ ν μ} (whole : Whole rows objects padding)
    (divides : chunks ∣ rows) (length : obj.len = rows) :
    ∃ next, commonLen chunks padding obj = .ok next ∧ Whole rows objects next := by
  rw [commonLen]
  rcases whole.lengths with ⟨none, _⟩ | ⟨same, _⟩
  · have unpadded : paddingOf chunks obj.len = 0 := by
      rw [paddingOf, length, Nat.mod_eq_zero_of_dvd divides, if_neg (Nat.lt_irrefl 0)]
    rw [none]
    exact ⟨_, rfl, whole.objects, Or.inr ⟨congrArg some length, congrArg some unpadded⟩⟩
  · rw [same]
    exact ⟨padding, if_pos length.symm, whole⟩

private theorem paddingAndSplitData_whole {padding : Padding τ ν μ} {ref : Nat}
    (whole : Whole (chunks * size) objects padding) (positive : 0 < chunks)
    (padded : Padded autoPadding (chunks * size) objects ref obj) :
    ∃ next, paddingAndSplitData autoPadding chunks padding ref = .ok (next, (List.range chunks).map (shard size obj)) ∧
      Whole (chunks * size) objects next := by
  obtain ⟨next, common, whole'⟩ := commonLen_whole whole (Nat.dvd_mul_right chunks size) padded.length
  have chunked := chunk_ok autoPadding positive padded.hasRows
  rw [evenBounds, List.map_map] at chunked
  have named : getItem padding.objects ref = .ok obj := by rw [getItem, whole.objects, padded.named]
  have kept : next.objects.set ref obj = next.objects := by
    obtain ⟨inside, same⟩ := List.getElem?_eq_some_iff.mp (whole'.objects ▸ padded.named)
    rw [← same, List.set_getElem_self]
  refine ⟨next, ?_, whole'⟩
  rw [paddingAndSplitData, named, ok_bind, if_pos padded.enabled, common, ok_bind, whole'.paddingSize,
    DataProto.padding, if_pos rfl, ok_bind, chunked, ok_bind, kept]
  rfl

private theorem splitAll_whole (refs : List Nat) {padding : Padding τ ν μ} (whole : Whole (chunks * size) objects padding)
    (positive : 0 < chunks) (named : ∀ ref ∈ refs, ∃ obj, Padded autoPadding (chunks * size) objects ref obj) :
    ∃ next, splitAll autoPadding chunks padding refs =
        .ok (next, (refs.filterMap (fun ref => objects[ref]?)).map (fun obj => (range chunks).map (shard size obj))) ∧
      Whole (chunks * size) objects next := by
  induction refs generalizing padding with
  | nil => exact ⟨padding, rfl, whole⟩
  | cons ref refs ih =>
    obtain ⟨obj, padded⟩ := named ref mem_cons_self
    obtain ⟨middle, first, whole⟩ := paddingAndSplitData_whole whole positive padded
    obtain ⟨next, rest, whole⟩ := ih whole (fun other member => named other (mem_cons_of_mem _ member))
    refine ⟨next, ?_, whole⟩
    rw [splitAll, first, ok_bind, rest, ok_bind, filterMap_cons_some padded.named]
    rfl

private theorem zip_kwargs {kwargs : List (String × Nat)} {γ : Type} (f : DataProto τ ν μ → γ)
    (named : ∀ kwarg ∈ kwargs, ∃ obj, Padded autoPadding rows objects kwarg.2 obj) :
    (kwargs.map Prod.fst).zip (((kwargs.map Prod.snd).filterMap (fun ref => objects[ref]?)).map f) =
      (kwargs.filterMap (fun kwarg => objects[kwarg.2]?.map (fun obj => (kwarg.1, obj)))).map
        (fun kwarg => (kwarg.1, f kwarg.2)) := by
  induction kwargs with
  | nil => rfl
  | cons kwarg kwargs ih =>
    obtain ⟨obj, padded⟩ := named kwarg mem_cons_self
    have rest := ih (fun other member => named other (mem_cons_of_mem _ member))
    have first := padded.named
    simp only [map_cons, filterMap_cons, first, Option.map_some, zip_cons_cons, rest]

variable {method : List (DataProto τ ν μ) → List (String × DataProto τ ν μ) → DataProto τ' ν' μ'}

private theorem callDpComputeProto_whole
    (rowWise : RowWise method)
    (valid : call.Over autoPadding rows objects) (divides : call.worldSize ∣ rows) :
    ∃ result, callDpComputeProto autoPadding method objects call = .ok (objects, result) ∧
      SameColumns result (method (call.argObjects objects) (call.kwargObjects objects)) := by
  obtain ⟨size, rfl⟩ := divides
  have start : Whole (call.worldSize * size) objects ⟨objects, none, none⟩ := ⟨rfl, Or.inl ⟨rfl, rfl⟩⟩
  obtain ⟨middle, args, whole⟩ := splitAll_whole call.args start valid.workers valid.args
  obtain ⟨last, kwargs, whole⟩ := splitAll_whole (call.kwargs.map Prod.snd) whole valid.workers (by
    intro ref member
    obtain ⟨kwarg, isKwarg, rfl⟩ := mem_map.mp member
    exact valid.kwargs kwarg isKwarg)
  have aligned : Aligned (call.worldSize * size) (call.argObjects objects) (call.kwargObjects objects) := by
    constructor
    · intro arg member
      obtain ⟨ref, isRef, named⟩ := mem_filterMap.mp member
      obtain ⟨obj, padded⟩ := valid.args ref isRef
      cases padded.named.symm.trans named
      exact padded.hasRows
    · intro kwarg member
      obtain ⟨ref, isRef, named⟩ := mem_filterMap.mp member
      obtain ⟨obj, padded⟩ := valid.kwargs ref isRef
      rw [padded.named, Option.map_some] at named
      cases named
      exact padded.hasRows
  obtain ⟨result, concatenated, same⟩ := concat_onRows valid.workers rowWise aligned
  have executed := executeAll_ok (call.argObjects objects) (call.kwargObjects objects) size method
    (show (range call.worldSize).length = call.worldSize from length_range)
  refine ⟨result, ?_, same⟩
  rw [callDpComputeProto, splitArgsKwargsDataProtoWithAutoPadding, args, ok_bind, kwargs, ok_bind,
    zip_kwargs _ valid.kwargs]
  change (executeAll call.worldSize method _ _ >>= _) = _
  rw [← Call.argObjects, ← Call.kwargObjects, executed, ok_bind, collectDpComputeDataProto, if_neg (by
      have workers := valid.workers
      simp
      omega), if_neg (by simp), concatenated, ok_bind]
  simp only [whole.paddingSize, dropPadding, gt_iff_lt, Nat.lt_irrefl, ite_false, whole.objects]
  rfl

/-- What the arguments so far have left after one of them was padded. -/
structure Spoiled (autoPadding : Bool) (rows ref : Nat) (padding : Padding τ ν μ) : Prop where
  length : padding.dataProtoLen = some rows
  longer : ∃ obj, padding.objects[ref]? = some obj ∧ obj.isPaddingEnabled autoPadding = true ∧ obj.len ≠ rows

variable {padding next : Padding τ ν μ}

private theorem paddingAndSplitData_spoiled {pieces : List (DataProto τ ν μ)}
    {ref other : Nat} (spoiled : Spoiled autoPadding rows ref padding)
    (split : paddingAndSplitData autoPadding chunks padding other = .ok (next, pieces)) :
    Spoiled autoPadding rows ref next := by
  obtain ⟨obj, named, enabled, longer⟩ := spoiled.longer
  rw [paddingAndSplitData] at split
  obtain ⟨obj', named', split⟩ := bind_eq_ok.mp split
  by_cases isEnabled : obj'.isPaddingEnabled autoPadding = true
  · rw [if_pos isEnabled] at split
    obtain ⟨common, isCommon, split⟩ := bind_eq_ok.mp split
    obtain ⟨padded, _, split⟩ := bind_eq_ok.mp split
    obtain ⟨_, _, split⟩ := bind_eq_ok.mp split
    cases split
    rw [commonLen, spoiled.length] at isCommon
    by_cases same : rows = obj'.len
    · obtain rfl : padding = common := by simpa [same] using isCommon
      refine ⟨spoiled.length, obj, ?_, enabled, longer⟩
      rw [List.getElem?_set_ne]
      · exact named
      · rintro rfl
        rw [getItem, named] at named'
        cases named'
        exact longer same.symm
    · simp [same] at isCommon
  · rw [if_neg isEnabled] at split
    obtain ⟨_, _, split⟩ := bind_eq_ok.mp split
    cases split
    exact spoiled

private theorem splitAll_spoiled {refs : List Nat} {pieces : List (List (DataProto τ ν μ))}
    {ref : Nat} (spoiled : Spoiled autoPadding rows ref padding)
    (split : splitAll autoPadding chunks padding refs = .ok (next, pieces)) : Spoiled autoPadding rows ref next := by
  induction refs generalizing padding pieces with
  | nil =>
    cases split
    exact spoiled
  | cons other refs ih =>
    rw [splitAll] at split
    obtain ⟨first, isFirst, split⟩ := bind_eq_ok.mp split
    obtain ⟨rest, isRest, split⟩ := bind_eq_ok.mp split
    cases split
    exact ih (paddingAndSplitData_spoiled spoiled isFirst) isRest

private theorem paddingAndSplitData_spoils {pieces : List (DataProto τ ν μ)} {ref : Nat}
    (padded : Padded autoPadding rows padding.objects ref obj) (workers : 0 < chunks)
    (uneven : ¬ chunks ∣ rows) (fresh : padding.dataProtoLen = none)
    (split : paddingAndSplitData autoPadding chunks padding ref = .ok (next, pieces)) :
    Spoiled autoPadding rows ref next := by
  have remainder : 0 < rows % chunks := Nat.pos_of_ne_zero (fun zero => uneven (Nat.dvd_of_mod_eq_zero zero))
  have positive : 0 < rows := by
    by_contra zero
    obtain rfl : rows = 0 := by omega
    simp at remainder
  have added : 0 < paddingOf chunks rows := by
    have below := Nat.mod_lt rows workers
    rw [paddingOf, if_pos remainder]
    omega
  have named : getItem padding.objects ref = .ok obj := by rw [getItem, padded.named]
  rw [paddingAndSplitData, named, ok_bind, if_pos padded.enabled, commonLen, fresh] at split
  simp only [ok_bind, padded.length, Option.getD_some] at split
  obtain ⟨obj', isPadded, split⟩ := bind_eq_ok.mp split
  obtain ⟨_, _, split⟩ := bind_eq_ok.mp split
  cases split
  have extension := padding_ok positive added padded.length padded.hasRows isPadded
  have longer := (extend_hasRows positive (paddingOf chunks rows) padded.hasRows).len
  have inside := (List.getElem?_eq_some_iff.mp padded.named).1
  refine ⟨rfl, obj', List.getElem?_set_self inside, ?_, ?_⟩
  · rw [extension]
    exact padded.enabled
  · rw [extension]
    omega

private theorem splitAll_spoils {refs : List Nat} {pieces : List (List (DataProto τ ν μ))}
    (workers : 0 < chunks) (uneven : ¬ chunks ∣ rows) (fresh : padding.dataProtoLen = none) (some : refs ≠ [])
    (named : ∀ ref ∈ refs, ∃ obj, Padded autoPadding rows padding.objects ref obj)
    (split : splitAll autoPadding chunks padding refs = .ok (next, pieces)) :
    ∃ ref ∈ refs, Spoiled autoPadding rows ref next := by
  cases refs with
  | nil => exact absurd rfl some
  | cons ref refs =>
    obtain ⟨obj, padded⟩ := named ref mem_cons_self
    rw [splitAll] at split
    obtain ⟨first, isFirst, split⟩ := bind_eq_ok.mp split
    obtain ⟨rest, isRest, split⟩ := bind_eq_ok.mp split
    cases split
    exact ⟨ref, mem_cons_self,
      splitAll_spoiled (paddingAndSplitData_spoils padded workers uneven fresh isFirst) isRest⟩

omit [Value μ] in
private theorem SameColumns.len {first second : DataProto τ ν μ} (same : SameColumns first second) :
    first.len = second.len := by
  rw [DataProto.len, DataProto.len, same.1, same.2]

private theorem callDpComputeProto_spoils
    {objects' : List (DataProto τ ν μ)} {result : DataProto τ' ν' μ'} (valid : call.Over autoPadding rows objects)
    (uneven : ¬ call.worldSize ∣ rows)
    (called : callDpComputeProto autoPadding method objects call = .ok (objects', result)) :
    ¬ List.Forall₂ SameColumns objects' objects := by
  rw [callDpComputeProto, splitArgsKwargsDataProtoWithAutoPadding] at called
  obtain ⟨dispatched, split, called⟩ := bind_eq_ok.mp called
  obtain ⟨args, isArgs, split⟩ := bind_eq_ok.mp split
  obtain ⟨kwargs, isKwargs, split⟩ := bind_eq_ok.mp split
  cases split
  obtain ⟨_, _, called⟩ := bind_eq_ok.mp called
  obtain ⟨_, _, called⟩ := bind_eq_ok.mp called
  obtain ⟨_, _, called⟩ := bind_eq_ok.mp called
  cases called
  have namedKwargs : ∀ ref ∈ call.kwargs.map Prod.snd, ∃ obj, Padded autoPadding rows objects ref obj := by
    intro ref member
    obtain ⟨kwarg, isKwarg, rfl⟩ := List.mem_map.mp member
    exact valid.kwargs kwarg isKwarg
  obtain ⟨ref, ⟨before, padded⟩, spoiled⟩ : ∃ ref, (∃ obj, Padded autoPadding rows objects ref obj) ∧
      Spoiled autoPadding rows ref kwargs.1 := by
    by_cases none : call.args = []
    · rw [none] at isArgs
      cases isArgs
      have some : call.kwargs.map Prod.snd ≠ [] := by
        have some := valid.some
        rwa [none, List.nil_append] at some
      obtain ⟨ref, member, spoiled⟩ := splitAll_spoils valid.workers uneven rfl some namedKwargs isKwargs
      exact ⟨ref, namedKwargs ref member, spoiled⟩
    · obtain ⟨ref, member, spoiled⟩ := splitAll_spoils valid.workers uneven rfl none valid.args isArgs
      exact ⟨ref, valid.args ref member, splitAll_spoiled spoiled isKwargs⟩
  obtain ⟨after, named, _, longer⟩ := spoiled.longer
  intro same
  obtain ⟨inside, rfl⟩ := List.getElem?_eq_some_iff.mp named
  obtain ⟨inside', rfl⟩ := List.getElem?_eq_some_iff.mp padded.named
  exact longer ((SameColumns.len (same.get inside inside')).trans padded.length)

/-- Calls on the caller's objects are transparent exactly when every world size divides
the rows. -/
theorem transparent_iff_divides {method : List (DataProto τ ν μ) → List (String × DataProto τ ν μ) → DataProto τ' ν' μ'}
    (rowWise : RowWise method) {calls : List Call} (valid : ∀ call ∈ calls, call.Over autoPadding rows objects) :
    Transparent autoPadding method objects calls ↔ ∀ call ∈ calls, call.worldSize ∣ rows := by
  have same : List.Forall₂ SameColumns objects objects := by
    rw [List.forall₂_same]
    exact fun _ _ => ⟨rfl, rfl⟩
  induction calls with
  | nil => simp [Transparent]
  | cons call calls ih =>
    have here := valid call List.mem_cons_self
    have rest := ih (fun other member => valid other (List.mem_cons_of_mem _ member))
    rw [Transparent, List.forall_mem_cons]
    constructor
    · rintro ⟨objects', result, called, _, unchanged, later⟩
      by_cases divides : call.worldSize ∣ rows
      · obtain ⟨result', called', _⟩ := callDpComputeProto_whole rowWise here divides
        cases called.symm.trans called'
        exact ⟨divides, rest.mp later⟩
      · exact absurd unchanged (callDpComputeProto_spoils here divides called)
    · rintro ⟨divides, later⟩
      obtain ⟨result, called, returned⟩ := callDpComputeProto_whole rowWise here divides
      exact ⟨objects, result, called, returned, same, rest.mpr later⟩

end Calls

def tenRows : DataProto Nat Nat (Option Int) :=
  ⟨some ⟨10, [("a", [0, 1, 2, 3, 4, 5, 6, 7, 8, 9])], by decide, by decide⟩, [], [], by decide, by simp⟩

theorem transparent_iff_divides_ten :
    Transparent true firstArg [tenRows] [⟨2, [0], []⟩, ⟨5, [], [("data", 0)]⟩] ↔
      ∀ call ∈ ([⟨2, [0], []⟩, ⟨5, [], [("data", 0)]⟩] : List Call), call.worldSize ∣ 10 := by
  have padded : ∃ obj, Padded true 10 [tenRows] 0 obj :=
    ⟨tenRows, rfl, rfl, rfl, by simp [tenRows], by simp [tenRows]⟩
  apply transparent_iff_divides firstArg_rowWise
  intro call member
  rcases List.mem_pair.mp member with rfl | rfl
  · exact ⟨by decide, by decide, by simpa using padded, by simp⟩
  · exact ⟨by decide, by decide, by simp, by simpa using padded⟩

/-- Four workers get twelve rows; the second call returns all of them. -/
theorem second_call_returns_padding :
    ¬ Transparent true firstArg [tenRows] [⟨4, [0], []⟩, ⟨4, [0], []⟩] ∧
      ((callDpComputeProto true firstArg [tenRows] ⟨4, [0], []⟩).toOption.map (fun first => first.2.len) = some 10) ∧
      (((callDpComputeProto true firstArg [tenRows] ⟨4, [0], []⟩).bind (fun first =>
        callDpComputeProto true firstArg first.1 ⟨4, [0], []⟩)).toOption.map (fun second => second.2.len) = some 12) := by
  refine ⟨?_, by decide, by decide⟩
  rintro ⟨objects, result, called, _, unchanged, _⟩
  have lengths : (callDpComputeProto true firstArg [tenRows] ⟨4, [0], []⟩).toOption.map
      (fun first => first.1.map DataProto.len) = some [12] := by decide
  rw [called] at lengths
  cases unchanged with
  | cons same rest =>
    cases rest
    have longer := (List.cons.inj (Option.some.inj lengths)).1
    have length : tenRows.len = 12 := (SameColumns.len same).symm.trans longer
    exact absurd length (by decide)

end LLMFusion.Dispatch
