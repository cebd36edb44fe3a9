import LLMFusion.TensorProtocol

/-! Repeating the rows of a batch. Every column gets the same rows in the same order, whether it is a
tensor or an array, as long as the operations of the two libraries take the column. -/

namespace LLMFusion.TensorProtocol
open NdTensor Fallible List

variable {α β γ δ ε μ : Type} {rows : Nat}

/-! ### Rebuilding a batch -/

/-- A batch and what has been made of its columns, one by one. -/
structure Rebuilt (size : Nat) (tensors : String → NdTensor α → NdTensor α → Prop)
    (arrays : String → NdTensor β → NdTensor β → Prop) (data result : DataProto α β μ) : Prop where
  batch : Option.Rel (fun table table' => table'.batchSize = [size] ∧
    List.Forall₂ (fun column column' => column'.1 = column.1 ∧ tensors column.1 column.2 column'.2) table.columns table'.columns)
    data.batch result.batch
  nonTensorBatch : List.Forall₂ (fun column column' => column'.1 = column.1 ∧ arrays column.1 column.2 column'.2)
    data.nonTensorBatch result.nonTensorBatch
  metaInfo : result.metaInfo = data.metaInfo

theorem mapColumns_ok {f : String → γ → Except Failure δ} (related : String → γ → δ → Prop) {columns : List (String × γ)}
    (each : ∀ column ∈ columns, ∃ value, f column.1 column.2 = .ok value ∧ related column.1 column.2 value) :
    ∃ values, mapColumns f columns = .ok values ∧
      List.Forall₂ (fun column value => value.1 = column.1 ∧ related column.1 column.2 value.2) columns values := by
  apply mapM_ok
  intro column member
  obtain ⟨value, returned, holds⟩ := each column member
  exact ⟨(column.1, value), by rw [returned]; rfl, rfl, holds⟩

theorem mapColumns_returned {f : String → γ → Except Failure δ} {columns : List (String × γ)} {values : List (String × δ)}
    (returned : mapColumns f columns = .ok values) : ∀ column ∈ columns, ∃ value, f column.1 column.2 = .ok value := by
  intro column member
  obtain ⟨value, _, here⟩ := forall₂_left (mapM_succeeded returned) member
  cases result : f column.1 column.2 with
  | ok value => exact ⟨value, rfl⟩
  | error error =>
    rw [result] at here
    cases here

theorem make_ok {batch : Option (TensorDict α)} {nonTensorBatch : List (String × NdTensor β)} (metaInfo : List (String × μ))
    (sized : ∀ table, batch = some table → ∃ size, table.batchSize = [size] ∧
      ∀ column ∈ nonTensorBatch, ∃ tail, column.2.shape = size :: tail) :
    DataProto.make batch nonTensorBatch metaInfo = .ok ⟨batch, nonTensorBatch, metaInfo⟩ := by
  have consistent : (⟨batch, nonTensorBatch, metaInfo⟩ : DataProto α β μ).checkConsistency = .ok () := by
    cases batch with
    | none => rfl
    | some table =>
      obtain ⟨size, isSize, each⟩ := sized table rfl
      simp only [DataProto.checkConsistency, isSize]
      clear sized
      induction nonTensorBatch with
      | nil => rfl
      | cons column columns ih =>
        obtain ⟨tail, shaped⟩ := each column mem_cons_self
        simp only [List.forM, shaped, ite_true, ok_bind]
        exact ih (fun other member => each other (mem_cons_of_mem _ member))
  rw [DataProto.make, consistent]
  rfl

theorem tensorDict_make_ok {size : Nat} {columns : List (String × NdTensor α)}
    (sized : ∀ column ∈ columns, ∃ tail, column.2.shape = size :: tail) :
    ∃ table, TensorDict.make [size] columns = .ok table ∧ table.batchSize = [size] ∧ table.columns = columns := by
  have regular : ∀ column ∈ columns, [size] <+: column.2.shape := by
    intro column member
    obtain ⟨tail, shaped⟩ := sized column member
    exact ⟨tail, shaped.symm⟩
  exact ⟨⟨[size], columns, regular⟩, dif_pos regular, rfl, rfl⟩

section Rebuild
variable {tensorOf : String → NdTensor α → Except Failure (NdTensor α)} {sizeOf : TensorDict α → Except Failure Nat}
  {arrayOf : String → NdTensor β → Except Failure (NdTensor β)} {tensors : String → NdTensor α → NdTensor α → Prop}
  {arrays : String → NdTensor β → NdTensor β → Prop} {data result : DataProto α β μ} {size : Nat}

/-- When every column can be made, with as many rows as the batch is to have, the batch is rebuilt. -/
theorem rebuild_ok (sized : ∀ table, data.batch = some table → sizeOf table = .ok size)
    (eachTensor : ∀ table, data.batch = some table → ∀ column ∈ table.columns,
      ∃ y, tensorOf column.1 column.2 = .ok y ∧ tensors column.1 column.2 y)
    (tensorRows : ∀ key x y, tensors key x y → ∃ tail, y.shape = size :: tail)
    (eachArray : ∀ column ∈ data.nonTensorBatch, ∃ y, arrayOf column.1 column.2 = .ok y ∧ arrays column.1 column.2 y)
    (arrayRows : ∀ key x y, arrays key x y → ∃ tail, y.shape = size :: tail) :
    ∃ result, data.rebuild tensorOf sizeOf arrayOf = .ok result ∧ Rebuilt size tensors arrays data result := by
  obtain ⟨newArrays, arraysMade, arraysRelated⟩ := mapColumns_ok arrays eachArray
  have arraysSized : ∀ column ∈ newArrays, ∃ tail, column.2.shape = size :: tail := by
    intro column member
    obtain ⟨original, _, _, related⟩ := forall₂_right arraysRelated member
    exact arrayRows _ _ _ related
  obtain ⟨batch, batchMade, batchRelated, batchSized⟩ : ∃ batch, rebuildBatch tensorOf sizeOf data.batch = .ok batch ∧
      Option.Rel (fun table table' => table'.batchSize = [size] ∧ List.Forall₂
        (fun column column' => column'.1 = column.1 ∧ tensors column.1 column.2 column'.2) table.columns table'.columns)
        data.batch batch ∧ ∀ table, batch = some table → table.batchSize = [size] := by
    cases held : data.batch with
    | none => exact ⟨none, rfl, .none, fun _ impossible => by cases impossible⟩
    | some table =>
      obtain ⟨newTensors, tensorsMade, tensorsRelated⟩ := mapColumns_ok tensors (eachTensor table held)
      have tensorsSized : ∀ column ∈ newTensors, ∃ tail, column.2.shape = size :: tail := by
        intro column member
        obtain ⟨original, _, _, related⟩ := forall₂_right tensorsRelated member
        exact tensorRows _ _ _ related
      obtain ⟨newTable, tableMade, newSize, newColumns⟩ := tensorDict_make_ok tensorsSized
      refine ⟨some newTable, ?_, .some ⟨newSize, newColumns ▸ tensorsRelated⟩, ?_⟩
      · simp only [rebuildBatch, tensorsMade, sized table held, tableMade, ok_bind, pure, Except.pure]
      · intro table' same
        cases same
        exact newSize
  refine ⟨⟨batch, newArrays, data.metaInfo⟩, ?_, batchRelated, arraysRelated, rfl⟩
  simp only [DataProto.rebuild, batchMade, arraysMade, ok_bind]
  exact make_ok _ (fun table same => ⟨size, batchSized table same, arraysSized⟩)

theorem rebuild_returned (returned : data.rebuild tensorOf sizeOf arrayOf = .ok result) :
    (∀ table, data.batch = some table → (∀ column ∈ table.columns, ∃ y, tensorOf column.1 column.2 = .ok y) ∧
      ∃ size, sizeOf table = .ok size) ∧ ∀ column ∈ data.nonTensorBatch, ∃ y, arrayOf column.1 column.2 = .ok y := by
  rw [DataProto.rebuild] at returned
  obtain ⟨batch, batchMade, returned⟩ := bind_eq_ok.mp returned
  obtain ⟨newArrays, arraysMade, returned⟩ := bind_eq_ok.mp returned
  refine ⟨?_, mapColumns_returned arraysMade⟩
  intro table held
  rw [held, rebuildBatch] at batchMade
  obtain ⟨newTensors, tensorsMade, batchMade⟩ := bind_eq_ok.mp batchMade
  obtain ⟨size, sizeMade, _⟩ := bind_eq_ok.mp batchMade
  exact ⟨mapColumns_returned tensorsMade, size, sizeMade⟩

theorem mapColumns_congr {f f' : String → γ → Except Failure δ} {columns : List (String × γ)}
    (same : ∀ column ∈ columns, f column.1 column.2 = f' column.1 column.2) : mapColumns f columns = mapColumns f' columns := by
  apply mapM_congr
  intro column member
  rw [same column member]

theorem rebuild_congr {tensorOf' : String → NdTensor α → Except Failure (NdTensor α)} {sizeOf' : TensorDict α → Except Failure Nat}
    {arrayOf' : String → NdTensor β → Except Failure (NdTensor β)}
    (sameTensors : ∀ table, data.batch = some table → ∀ column ∈ table.columns,
      tensorOf column.1 column.2 = tensorOf' column.1 column.2)
    (sameSize : ∀ table, data.batch = some table → sizeOf table = sizeOf' table)
    (sameArrays : ∀ column ∈ data.nonTensorBatch, arrayOf column.1 column.2 = arrayOf' column.1 column.2) :
    data.rebuild tensorOf sizeOf arrayOf = data.rebuild tensorOf' sizeOf' arrayOf' := by
  have sameBatch : rebuildBatch tensorOf sizeOf data.batch = rebuildBatch tensorOf' sizeOf' data.batch := by
    cases held : data.batch with
    | none => rfl
    | some table => rw [rebuildBatch, rebuildBatch, mapColumns_congr (sameTensors table held), sameSize table held]
  rw [DataProto.rebuild, DataProto.rebuild, sameBatch, mapColumns_congr sameArrays]

end Rebuild

/-! ### The operations on a column -/

section Operations
variable {x : NdTensor ε} {tail counts : List Nat} {times : Nat}

theorem reshapeTo_ok {shape : List Nat} (fits : x.data.length = shape.prod) :
    ∃ y, reshapeTo shape x = .ok y ∧ y.shape = shape ∧ y.data = x.data := by
  obtain ⟨y, reshaped, same⟩ := reshape_fits fits
  exact ⟨y, by rw [reshapeTo, reshaped], same⟩

theorem shape_tail (shaped : x.shape = rows :: tail) : x.shape = rows :: x.shape.tail := by
  rw [shaped, tail_cons]

theorem repeatInterleave_gathers (shaped : x.shape = rows :: tail) (each : counts.length = rows) :
    ∃ y, repeatInterleave counts x = .ok y ∧ Gathers (repeatSources 0 counts) x y := by
  have same : counts.length = x.rows.length := by rw [rows_length, shaped, headD_cons, each]
  have gathers := gathers_ofRowList (fun row member => x.rows_each row (mem_repeatRows member)) (shape_tail shaped)
    (repeatRows_sources [] x.rows same)
  refine ⟨_, ?_, gathers⟩
  simp only [repeatInterleave]
  split
  next none =>
    rw [none] at shaped
    cases shaped
  next rows' _ isCons =>
    rw [shaped] at isCons
    cases isCons
    -- a single count for a single row is not another list of counts
    have effective : (if counts.length = 1 then replicate rows (counts.headD 0) else counts) = counts := by
      split
      next one =>
        obtain ⟨count, rfl⟩ := length_eq_one_iff.mp one
        rw [← each]
        rfl
      next => rfl
    simp only [effective]
    rw [if_pos each]

theorem repeatInterleave_single (shaped : x.shape = rows :: tail) :
    repeatInterleave [times] x = repeatInterleave (replicate rows times) x := by
  have effective : (if (replicate rows times).length = 1 then replicate rows ((replicate rows times).headD 0)
      else replicate rows times) = replicate rows times := by
    split
    next one =>
      rw [length_replicate] at one
      subst one
      rfl
    next => rfl
  simp only [repeatInterleave]
  split
  next => rfl
  next rows' _ isCons =>
    rw [shaped] at isCons
    cases isCons
    simp only [effective, length_singleton, ite_true, headD_cons]

theorem single_gathers (shaped : x.shape = rows :: tail) :
    ∃ y, repeatInterleave [times] x = .ok y ∧ Gathers (repeatSources 0 (replicate rows times)) x y := by
  rw [repeatInterleave_single shaped]
  exact repeatInterleave_gathers shaped length_replicate

theorem stacked_gathers {y : NdTensor ε} (shaped : x.shape = rows :: tail) (shape : y.shape = times * rows :: tail)
    (data : y.data = (replicate times x.data).flatten) : Gathers (replicate times (range rows)).flatten x y := by
  have count : x.rows.length = rows := by rw [rows_length, shaped, headD_cons]
  have each : ∀ row ∈ (replicate times x.rows).flatten, row.length = tail.prod := by
    intro row member
    obtain ⟨copy, isCopy, inside⟩ := mem_flatten.mp member
    rw [eq_of_mem_replicate isCopy] at inside
    rw [x.rows_each row inside, shaped, tail_cons]
  have length : (replicate times x.rows).flatten.length = times * rows := by
    rw [length_flatten, map_replicate, sum_replicate, count, smul_eq_mul]
  have entries : y.data = (replicate times x.rows).flatten.flatten := by
    rw [data, ← rows_flatten shaped, flatten_flatten, map_replicate]
  rw [eq_ofRowList each (by rw [shape, length]) entries, ← count]
  exact gathers_ofRowList each shaped (stacked_sources times x.rows)

theorem tile_gathers (shaped : x.shape = rows :: tail) :
    Gathers (replicate times (range rows)).flatten x (tile times x) := by
  refine stacked_gathers shaped ?_ rfl
  simp only [tile, shaped, headD_cons, tail_cons]

theorem expand_length (shaped : x.shape = rows :: tail) : (expand times x).data.length = times * rows * tail.prod := by
  rw [(expand times x).sized, expand, prod_cons, shaped, prod_cons, Nat.mul_assoc]

theorem stack_gathers (shaped : x.shape = rows :: tail) (sized : tail.prod ≠ 0) :
    ∃ y, stack times x = .ok y ∧ Gathers (replicate times (range rows)).flatten x y := by
  have known : ([] : List Nat).prod * tail.prod ≠ 0 := by rwa [prod_nil, Nat.one_mul]
  have fits : (expand times x).data.length = times * rows * (([] : List Nat).prod * tail.prod) := by
    rw [expand_length shaped, prod_nil, Nat.one_mul]
  obtain ⟨y, reshaped, shape, data⟩ := reshapeInfer_fits known fits
  exact ⟨y, by simp only [stack, shaped, tail_cons, reshaped], stacked_gathers shaped shape data⟩

theorem stack_refused (shaped : x.shape = rows :: tail) (empty : tail.prod = 0) : stack times x = .error .reshapeError := by
  have unknown : ([] : List Nat).prod * tail.prod = 0 := by rw [empty, Nat.mul_zero]
  simp only [stack, shaped, tail_cons, reshapeInfer_unknown unknown]

end Operations

/-! ### The operations on a batch -/

/-- All columns have one number of rows. A batch that is built makes sure of it, and `__len__` reads the
number off any column. -/
structure DataProto.HasRows (rows : Nat) (data : DataProto α β μ) : Prop where
  batch : ∀ table, data.batch = some table → table.batchSize = [rows]
  nonTensorBatch : ∀ column ∈ data.nonTensorBatch, ∃ tail, column.2.shape = rows :: tail

/-- Every column has, at each place, the row of the same source. -/
def Repeats (sources : List Nat) (data result : DataProto α β μ) : Prop :=
  Rebuilt sources.length (fun _ => Gathers sources) (fun _ => Gathers sources) data result

/-- The repetitions of a batch of `rows` rows, by a number and by a list of counts. -/
structure RepeatLaw (numpyTakesFloats : Bool) (rows repeatTimes : Nat) (counts : List Nat) (data : DataProto α β μ) : Prop where
  interleaved : ∃ result, data.repeatBatch repeatTimes true = .ok result ∧
    Repeats (repeatSources 0 (List.replicate rows repeatTimes)) data result
  stacked : ∃ result, data.repeatBatch repeatTimes false = .ok result ∧
    Repeats (List.replicate repeatTimes (List.range rows)).flatten data result
  sampled : ∃ result, data.sampleLevelRepeat numpyTakesFloats counts = .ok result ∧ Repeats (repeatSources 0 counts) data result
  constant : data.repeatBatch repeatTimes true = data.sampleLevelRepeat numpyTakesFloats (List.replicate rows repeatTimes)

section Batch
variable {data result : DataProto α β μ} {repeatTimes : Nat} {counts : List Nat} {numpyTakesFloats : Bool}

theorem DataProto.HasRows.tensors (hasRows : data.HasRows rows) {table : TensorDict α} (held : data.batch = some table) :
    ∀ column ∈ table.columns, ∃ tail, column.2.shape = rows :: tail := by
  intro column member
  obtain ⟨tail, same⟩ := hasRows.batch table held ▸ table.regular column member
  exact ⟨tail, same.symm⟩

theorem gathers_rows {sources : List Nat} {x y : NdTensor ε} (gathers : Gathers sources x y) :
    ∃ tail, y.shape = sources.length :: tail := by
  obtain ⟨_, tail, _, shape⟩ := gathers.shape
  exact ⟨tail, shape⟩

theorem repeat_interleaved (hasRows : data.HasRows rows) (repeatTimes : Nat) :
    ∃ result, data.repeatBatch repeatTimes true = .ok result ∧
      Repeats (repeatSources 0 (replicate rows repeatTimes)) data result := by
  have length : (repeatSources 0 (replicate rows repeatTimes)).length = rows * repeatTimes := by
    rw [repeatSources_length, sum_replicate, smul_eq_mul]
  refine rebuild_ok ?_ ?_ (fun _ _ _ => gathers_rows) ?_ (fun _ _ _ => gathers_rows)
  · intro table held
    rw [hasRows.batch table held, length, headD_cons]
  · intro table held column member
    obtain ⟨tail, shaped⟩ := hasRows.tensors held column member
    exact single_gathers shaped
  · intro column member
    obtain ⟨tail, shaped⟩ := hasRows.nonTensorBatch column member
    exact single_gathers shaped

theorem stacked_length (rows repeatTimes : Nat) :
    (replicate repeatTimes (range rows)).flatten.length = rows * repeatTimes := by
  rw [length_flatten, map_replicate, sum_replicate, length_range, smul_eq_mul, Nat.mul_comm]

theorem repeat_stacked_iff (hasRows : data.HasRows rows) (repeatTimes : Nat) :
    (∃ result, data.repeatBatch repeatTimes false = .ok result ∧
      Repeats (replicate repeatTimes (range rows)).flatten data result) ↔
      ∀ table, data.batch = some table → ∀ column ∈ table.columns, column.2.shape.tail.prod ≠ 0 := by
  constructor
  · rintro ⟨result, returned, _⟩ table held column member empty
    obtain ⟨y, made⟩ := ((rebuild_returned returned).1 table held).1 column member
    obtain ⟨tail, shaped⟩ := hasRows.tensors held column member
    rw [shaped] at empty
    cases made.symm.trans (stack_refused shaped empty)
  · intro sized
    refine rebuild_ok ?_ ?_ (fun _ _ _ => gathers_rows) ?_ (fun _ _ _ => gathers_rows)
    · intro table held
      rw [hasRows.batch table held, stacked_length, headD_cons]
    · intro table held column member
      obtain ⟨tail, shaped⟩ := hasRows.tensors held column member
      have some := sized table held column member
      rw [shaped] at some
      exact stack_gathers shaped some
    · intro column member
      obtain ⟨tail, shaped⟩ := hasRows.nonTensorBatch column member
      exact ⟨_, rfl, tile_gathers shaped⟩

theorem sample_level_iff (hasRows : data.HasRows rows) (each : counts.length = rows) :
    (∃ result, data.sampleLevelRepeat numpyTakesFloats counts = .ok result ∧ Repeats (repeatSources 0 counts) data result) ↔
      (rows = 0 → data.batch = none ∧ (data.nonTensorBatch = [] ∨ numpyTakesFloats = true)) := by
  constructor
  · rintro ⟨result, returned, _⟩ none
    have empty : counts.isEmpty = true := isEmpty_iff_length_eq_zero.mpr (each.trans none)
    obtain ⟨batch, arrays⟩ := rebuild_returned returned
    rw [empty] at batch arrays
    constructor
    · cases held : data.batch with
      | none => rfl
      | some table =>
        obtain ⟨_, size, sized⟩ := batch table held
        cases sized
    · cases held : data.nonTensorBatch with
      | nil => exact Or.inl rfl
      | cons column columns =>
        obtain ⟨y, made⟩ := arrays column (held ▸ mem_cons_self)
        cases numpyTakesFloats with
        | false => cases made
        | true => exact Or.inr rfl
  · intro takes
    have nonempty : ∀ table, data.batch = some table → counts.isEmpty = false := by
      intro table held
      rw [isEmpty_eq_false_iff]
      rintro rfl
      cases held.symm.trans (takes each.symm).1
    refine rebuild_ok ?_ ?_ (fun _ _ _ => gathers_rows) ?_ (fun _ _ _ => gathers_rows)
    · intro table held
      rw [nonempty table held, repeatSources_length]
      rfl
    · intro table held column member
      obtain ⟨tail, shaped⟩ := hasRows.tensors held column member
      rw [nonempty table held]
      exact repeatInterleave_gathers shaped each
    · intro column member
      obtain ⟨tail, shaped⟩ := hasRows.nonTensorBatch column member
      have allowed : (counts.isEmpty && !numpyTakesFloats) = false := by
        cases empty : counts.isEmpty with
        | false => rfl
        | true =>
          have none : rows = 0 := each.symm.trans (isEmpty_iff_length_eq_zero.mp empty)
          rcases (takes none).2 with noColumns | floats
          · rw [noColumns] at member
            cases member
          · rw [floats]
            rfl
      rw [allowed]
      exact repeatInterleave_gathers shaped each

theorem repeat_constant (hasRows : data.HasRows rows)
    (takes : rows = 0 → data.batch = none ∧ (data.nonTensorBatch = [] ∨ numpyTakesFloats = true)) :
    data.repeatBatch repeatTimes true = data.sampleLevelRepeat numpyTakesFloats (replicate rows repeatTimes) := by
  have nonempty : 0 < rows → (replicate rows repeatTimes).isEmpty = false := by
    intro some
    rw [isEmpty_eq_false_iff, ne_eq, replicate_eq_nil_iff]
    exact Nat.ne_of_gt some
  have some : ∀ table, data.batch = some table → 0 < rows := by
    intro table held
    refine Nat.pos_of_ne_zero (fun none => ?_)
    cases held.symm.trans (takes none).1
  refine rebuild_congr ?_ ?_ ?_
  · intro table held column member
    obtain ⟨tail, shaped⟩ := hasRows.tensors held column member
    rw [nonempty (some table held)]
    exact repeatInterleave_single shaped
  · intro table held
    rw [nonempty (some table held), hasRows.batch table held, sum_replicate, smul_eq_mul]
    rfl
  · intro column member
    obtain ⟨tail, shaped⟩ := hasRows.nonTensorBatch column member
    have allowed : ((replicate rows repeatTimes).isEmpty && !numpyTakesFloats) = false := by
      rcases Nat.eq_zero_or_pos rows with none | some
      · rcases (takes none).2 with noColumns | floats
        · rw [noColumns] at member
          cases member
        · rw [floats, Bool.not_true, Bool.and_false]
      · rw [nonempty some, Bool.false_and]
    rw [allowed]
    exact repeatInterleave_single shaped

theorem repeatLaw_iff (hasRows : data.HasRows rows) (each : counts.length = rows) :
    RepeatLaw numpyTakesFloats rows repeatTimes counts data ↔
      (∀ table, data.batch = some table → ∀ column ∈ table.columns, column.2.shape.tail.prod ≠ 0) ∧
      (rows = 0 → data.batch = none ∧ (data.nonTensorBatch = [] ∨ numpyTakesFloats = true)) := by
  constructor
  · intro law
    exact ⟨(repeat_stacked_iff hasRows repeatTimes).mp law.stacked, (sample_level_iff hasRows each).mp law.sampled⟩
  · rintro ⟨sized, takes⟩
    exact ⟨repeat_interleaved hasRows repeatTimes, (repeat_stacked_iff hasRows repeatTimes).mpr sized,
      (sample_level_iff hasRows each).mpr takes, repeat_constant hasRows takes⟩

/-- A batch with one tensor column of a shape. -/
private def column (shape : List Nat) (data : List Nat) (rows : Nat) (sized : data.length = shape.prod) (sizes : [rows] <+: shape) :
    DataProto Nat Nat Unit where
  batch := some {
    batchSize := [rows]
    columns := [("obs", ⟨shape, data, sized⟩)]
    regular := by
      intro column member
      cases List.mem_singleton.mp member
      exact sizes }
  nonTensorBatch := []
  metaInfo := []

private theorem column_hasRows {shape data : List Nat} {rows : Nat} (sized : data.length = shape.prod) (sizes : [rows] <+: shape) :
    (column shape data rows sized sizes).HasRows rows := by
  refine ⟨?_, fun _ impossible => by cases impossible⟩
  intro table held
  cases held
  rfl

theorem repeatLaw_matrix : RepeatLaw false 2 3 [1, 2] (column [2, 2] [1, 2, 3, 4] 2 rfl ⟨[2], rfl⟩) := by
  have hasRows : (column [2, 2] [1, 2, 3, 4] 2 rfl ⟨[2], rfl⟩).HasRows 2 := column_hasRows rfl ⟨[2], rfl⟩
  refine (repeatLaw_iff hasRows rfl).mpr ⟨?_, fun impossible => absurd impossible (Nat.succ_ne_zero 1)⟩
  intro table held
  cases held
  intro column member
  cases List.mem_singleton.mp member
  exact Nat.succ_ne_zero 1

/-- A batch without rows, and one whose rows have no entries. -/
theorem repeatLaw_empty : ¬ RepeatLaw false 0 2 [] (column [0, 2] [] 0 rfl ⟨[2], rfl⟩) ∧
    ¬ RepeatLaw false 2 2 [1, 1] (column [2, 0] [] 2 rfl ⟨[0], rfl⟩) := by
  constructor
  · intro law
    obtain ⟨result, returned, _⟩ := law.sampled
    have refused : (column [0, 2] [] 0 rfl ⟨[2], rfl⟩).sampleLevelRepeat false [] = .error .typeError := rfl
    cases refused.symm.trans returned
  · intro law
    obtain ⟨result, returned, _⟩ := law.stacked
    have refused : (column [2, 0] [] 2 rfl ⟨[0], rfl⟩).repeatBatch 2 false = .error .reshapeError := rfl
    cases refused.symm.trans returned

end Batch

end LLMFusion.TensorProtocol
