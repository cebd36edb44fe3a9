import LLMFusion.Proofs.DataProtoRepeat

/-! Folding the rows of a batch and unfolding them again. The columns come back, but both calls write
into the object they are given: the one its arrays, the other its batch size. -/

namespace LLMFusion.TensorProtocol
open NdTensor Fallible List

variable {α β γ ε μ : Type} {rows newBatchSize : Nat}

/-! ### Shapes -/

/-- The same entries with other sizes in the place of the first dimensions. -/
structure Reshaped (sizes : List Nat) (dims : Nat) (x y : NdTensor ε) : Prop where
  data : y.data = x.data
  shape : y.shape = sizes ++ x.shape.drop dims

theorem prefix_commonPrefix {sizes shape shape' : List Nat} (first : sizes <+: shape) (second : sizes <+: shape') :
    sizes <+: commonPrefix shape shape' := by
  induction sizes generalizing shape shape' with
  | nil => exact nil_prefix
  | cons size sizes ih =>
    obtain ⟨rest, rfl⟩ := first
    obtain ⟨rest', rfl⟩ := second
    simp only [cons_append, commonPrefix, ite_true]
    exact (cons_prefix_cons).mpr ⟨rfl, ih ⟨rest, rfl⟩ ⟨rest', rfl⟩⟩

theorem prefix_sharedSizes {sizes : List Nat} {shapes : List (List Nat)} (some : shapes ≠ [])
    (each : ∀ shape ∈ shapes, sizes <+: shape) : sizes <+: sharedSizes shapes := by
  induction shapes with
  | nil => exact absurd rfl some
  | cons shape shapes ih =>
    cases shapes with
    | nil => exact each shape mem_cons_self
    | cons next shapes =>
      have rest := ih (cons_ne_nil _ _) (fun other member => each other (mem_cons_of_mem _ member))
      exact prefix_commonPrefix (each shape mem_cons_self) rest

theorem autoBatchSize_ok {table : TensorDict α} {sizes : List Nat} {batchDims : Nat} (some : table.columns ≠ [])
    (few : batchDims ≤ sizes.length) (each : ∀ column ∈ table.columns, sizes <+: column.2.shape) :
    ∃ sized, table.autoBatchSize batchDims = .ok sized ∧ sized.batchSize = sizes.take batchDims ∧
      sized.columns = table.columns := by
  have shared : sizes <+: sharedSizes (table.columns.map (fun column => column.2.shape)) := by
    apply prefix_sharedSizes
    · exact fun none => some (map_eq_nil_iff.mp none)
    · intro shape member
      obtain ⟨column, inside, rfl⟩ := mem_map.mp member
      exact each column inside
  have first : (sharedSizes (table.columns.map (fun column => column.2.shape))).take batchDims = sizes.take batchDims := by
    obtain ⟨rest, same⟩ := shared
    rw [← same, take_append_of_le_length few]
  have regular : ∀ column ∈ table.columns, sizes.take batchDims <+: column.2.shape :=
    fun column member => ( take_prefix _ _).trans (each column member)
  refine ⟨⟨sizes.take batchDims, table.columns, regular⟩, ?_, rfl, rfl⟩
  rw [TensorDict.autoBatchSize, if_neg (by simpa using some), first]
  exact dif_pos regular

theorem autoBatchSize_empty {table : TensorDict α} (none : table.columns = []) (batchDims : Nat) :
    ∃ sized, table.autoBatchSize batchDims = .ok sized ∧ sized.batchSize = table.batchSize.take batchDims ∧
      sized.columns = [] := by
  have regular : ∀ column ∈ table.columns, table.batchSize.take batchDims <+: column.2.shape := by
    rw [none]
    intro column impossible
    cases impossible
  refine ⟨⟨_, table.columns, regular⟩, ?_, rfl, none⟩
  rw [TensorDict.autoBatchSize, if_pos (by rw [none]; rfl)]
  exact dif_pos regular

theorem view_ok {table : TensorDict α} {sizes : List Nat} {inferred : Nat} (known : sizes.prod ≠ 0)
    (fits : table.batchSize.prod = inferred * sizes.prod) :
    ∃ viewed, table.view sizes = .ok viewed ∧ viewed.batchSize = sizes ++ [inferred] ∧
      List.Forall₂ (fun column column' => column'.1 = column.1 ∧
        Reshaped (sizes ++ [inferred]) table.batchSize.length column.2 column'.2) table.columns viewed.columns := by
  have number : table.batchSize.prod / sizes.prod = inferred := by
    rw [fits, Nat.mul_div_cancel _ (Nat.pos_of_ne_zero known)]
  have each : ∀ column ∈ table.columns, ∃ y,
      reshapeTo (sizes ++ inferred :: column.2.shape.drop table.batchSize.length) column.2 = .ok y ∧
        Reshaped (sizes ++ [inferred]) table.batchSize.length column.2 y := by
    intro column member
    obtain ⟨rest, shaped⟩ := table.regular column member
    have entries : column.2.data.length = (sizes ++ inferred :: column.2.shape.drop table.batchSize.length).prod := by
      rw [column.2.sized, ← shaped, drop_left, prod_append, prod_append, prod_cons, fits, Nat.mul_left_comm,
        Nat.mul_assoc]
    obtain ⟨y, reshaped, shape, data⟩ := reshapeTo_ok entries
    exact ⟨y, reshaped, data, by rw [shape, append_assoc, singleton_append]⟩
  obtain ⟨columns, made, related⟩ : ∃ columns,
      mapColumns (fun _ tensor => reshapeTo (sizes ++ inferred :: tensor.shape.drop table.batchSize.length) tensor)
        table.columns = .ok columns ∧
      List.Forall₂ (fun column column' => column'.1 = column.1 ∧
        Reshaped (sizes ++ [inferred]) table.batchSize.length column.2 column'.2) table.columns columns :=
    mapColumns_ok (fun _ x y => Reshaped (sizes ++ [inferred]) table.batchSize.length x y) each
  have regular : ∀ column ∈ columns, sizes ++ [inferred] <+: column.2.shape := by
    intro column member
    obtain ⟨original, _, _, reshaped⟩ := forall₂_right related member
    exact ⟨_, reshaped.shape.symm⟩
  refine ⟨⟨_, columns, regular⟩, ?_, rfl, related⟩
  have whole : ¬ (sizes.prod = 0 ∨ table.batchSize.prod % sizes.prod ≠ 0) := by
    rw [fits, Nat.mul_mod_left]
    simpa using known
  simp only [TensorDict.view]
  rw [if_neg whole, number, made]
  exact dif_pos regular

/-- Columns and what they are with the first dimensions in other sizes. -/
abbrev ReshapedAll (sizes : List Nat) (dims : Nat) (columns columns' : List (String × NdTensor ε)) : Prop :=
  List.Forall₂ (fun column column' => column'.1 = column.1 ∧ Reshaped sizes dims column.2 column'.2) columns columns'

theorem reshaped_back {x y z : NdTensor ε} {tail sizes : List Nat} (shaped : x.shape = rows :: tail)
    (there : Reshaped sizes 1 x y) (back : Reshaped [rows] sizes.length y z) : z = x := by
  apply NdTensor.ext
  · rw [back.shape, there.shape, drop_left, shaped]
    rfl
  · rw [back.data, there.data]

theorem reshapedAll_back {columns columns' columns'' : List (String × NdTensor ε)} {sizes : List Nat}
    (sized : ∀ column ∈ columns, ∃ tail, column.2.shape = rows :: tail)
    (there : ReshapedAll sizes 1 columns columns') (back : ReshapedAll [rows] sizes.length columns' columns'') :
    columns'' = columns := by
  induction there generalizing columns'' with
  | nil =>
    cases back
    rfl
  | cons first _ ih =>
    cases back with
    | cons first' later =>
      obtain ⟨tail, shaped⟩ := sized _ mem_cons_self
      have here := reshaped_back shaped first.2 first'.2
      rw [ih (fun other member => sized other (mem_cons_of_mem _ member)) later]
      congr 1
      exact Prod.ext (first'.1.trans first.1) here

/-! ### Folding -/

section Fold
variable {folds : Nat} {columns : List (String × NdTensor β)}

theorem foldColumns_ok (positive : 0 < newBatchSize)
    (sized : ∀ column ∈ columns, ∃ tail, column.2.shape = folds * newBatchSize :: tail ∧ tail.prod ≠ 0) :
    ∃ folded, foldColumns newBatchSize columns = (none, folded) ∧ ReshapedAll [newBatchSize, folds] 1 columns folded := by
  induction columns with
  | nil => exact ⟨[], rfl, .nil⟩
  | cons column columns ih =>
    obtain ⟨tail, shaped, some⟩ := sized column mem_cons_self
    obtain ⟨rest, foldedRest, related⟩ := ih (fun other member => sized other (mem_cons_of_mem _ member))
    have known : [newBatchSize].prod * column.2.shape.tail.prod ≠ 0 := by
      rw [prod_singleton, shaped, tail_cons]
      exact Nat.mul_ne_zero (Nat.ne_of_gt positive) some
    have fits : column.2.data.length = folds * ([newBatchSize].prod * column.2.shape.tail.prod) := by
      rw [sized_cons shaped, prod_singleton, shaped, tail_cons, Nat.mul_assoc]
    obtain ⟨y, reshaped, shape, data⟩ := reshapeInfer_fits known fits
    refine ⟨(column.1, y) :: rest, ?_, .cons ⟨rfl, data, ?_⟩ related⟩
    · simp only [foldColumns, reshaped, foldedRest]
    · rw [shape, drop_one]
      rfl

theorem foldColumns_changes (through : (foldColumns newBatchSize columns).1 = none) (some : columns ≠ []) :
    (foldColumns newBatchSize columns).2 ≠ columns := by
  cases columns with
  | nil => exact absurd rfl some
  | cons column columns =>
    rw [foldColumns] at through ⊢
    intro same
    cases reshaped : column.2.reshapeInfer [newBatchSize] column.2.shape.tail with
    | none =>
      rw [reshaped] at through
      cases through
    | some y =>
      rw [reshaped] at same
      have isColumn : y = column.2 := congrArg Prod.snd (cons.inj same).1
      rw [reshapeInfer] at reshaped
      split at reshaped
      · cases reshaped
      next known =>
        rw [reshape] at reshaped
        split at reshaped
        · cases reshaped
          have longer := congrArg (fun x => x.shape.length) isColumn
          cases shaped : column.2.shape with
          | nil => simp [shaped] at longer
          | cons size sizes => simp [shaped] at longer
        · cases reshaped

variable {table : TensorDict α}

theorem folded_batch (positive : 0 < newBatchSize) (size : table.batchSize = [folds * newBatchSize]) :
    ∃ folded, table.view [newBatchSize] >>= TensorDict.autoBatchSize 1 = .ok folded ∧ folded.batchSize = [newBatchSize] ∧
      ReshapedAll [newBatchSize, folds] 1 table.columns folded.columns := by
  have known : [newBatchSize].prod ≠ 0 := by
    rw [prod_singleton]
    exact Nat.ne_of_gt positive
  have fits : table.batchSize.prod = folds * [newBatchSize].prod := by
    rw [size, prod_singleton, prod_singleton]
  obtain ⟨viewed, view, viewedSize, related⟩ := view_ok known fits
  rw [size] at related
  rw [view, ok_bind]
  by_cases none : viewed.columns = []
  · obtain ⟨folded, auto, foldedSize, foldedColumns⟩ := autoBatchSize_empty none 1
    exact ⟨folded, auto, by rw [foldedSize, viewedSize]; rfl, by rwa [foldedColumns, ← none]⟩
  · have each : ∀ column ∈ viewed.columns, [newBatchSize, folds] <+: column.2.shape := by
      intro column member
      obtain ⟨original, _, _, reshaped⟩ := forall₂_right related member
      exact ⟨_, reshaped.shape.symm⟩
    obtain ⟨folded, auto, foldedSize, foldedColumns⟩ := autoBatchSize_ok none (Nat.le_succ 1) each
    exact ⟨folded, auto, foldedSize, by rwa [foldedColumns]⟩

theorem foldBatchDim_eq {data : DataProto α β μ} (positive : 0 < newBatchSize) (held : data.batch = some table)
    (size : table.batchSize = [folds * newBatchSize]) : ∃ folded : TensorDict α, folded.batchSize = [newBatchSize] ∧
      ReshapedAll [newBatchSize, folds] 1 table.columns folded.columns ∧
      (foldBatchDim data newBatchSize).2 = { data with nonTensorBatch := (foldColumns newBatchSize data.nonTensorBatch).2 } ∧
      (foldBatchDim data newBatchSize).1 = (foldColumns newBatchSize data.nonTensorBatch).1.elim
        (DataProto.make (some folded) (foldColumns newBatchSize data.nonTensorBatch).2 data.metaInfo) .error := by
  obtain ⟨folded, made, foldedSize, related⟩ := folded_batch positive size
  refine ⟨folded, foldedSize, related, ?_, ?_⟩
  · simp only [foldBatchDim, held, size, Nat.ne_of_gt positive, Nat.mul_mod_left, made, ite_false, ne_eq, not_true_eq_false]
    cases (foldColumns newBatchSize data.nonTensorBatch).1 <;> rfl
  · simp only [foldBatchDim, held, size, Nat.ne_of_gt positive, Nat.mul_mod_left, made, ite_false, ne_eq, not_true_eq_false]
    cases (foldColumns newBatchSize data.nonTensorBatch).1 <;> rfl

end Fold

/-! ### Unfolding -/

section Unfold
variable {folds : Nat} {table : TensorDict α}

/-- What unfolding makes of a batch with columns: the batch size of the object is written, and the view has
all rows. -/
theorem unfolded_batch (some : table.columns ≠ []) (each : ∀ column ∈ table.columns, [newBatchSize, folds] <+: column.2.shape) :
    ∃ sized unfolded, table.autoBatchSize 2 = .ok sized ∧ sized.batchSize = [newBatchSize, folds] ∧
      sized.view [] = .ok unfolded ∧ unfolded.batchSize = [folds * newBatchSize] ∧
      ReshapedAll [folds * newBatchSize] 2 table.columns unfolded.columns := by
  obtain ⟨sized, auto, size, columns⟩ := autoBatchSize_ok some (Nat.le_refl 2) each
  have known : ([] : List Nat).prod ≠ 0 := Nat.one_ne_zero
  have fits : sized.batchSize.prod = folds * newBatchSize * ([] : List Nat).prod := by
    rw [size, prod_nil, Nat.mul_one, Nat.mul_comm]
    exact prod_pair
  obtain ⟨unfolded, view, unfoldedSize, related⟩ := view_ok known fits
  rw [size, columns] at related
  exact ⟨sized, unfolded, auto, size, view, unfoldedSize, related⟩

theorem unfoldedArrays_ok {columns columns' : List (String × NdTensor β)}
    (sized : ∀ column ∈ columns, ∃ tail, column.2.shape = folds * newBatchSize :: tail)
    (folded : ReshapedAll [newBatchSize, folds] 1 columns columns') :
    mapColumns (fun _ val => reshapeTo (folds * newBatchSize :: val.shape.drop 2) val) columns' = .ok columns := by
  have each : ∀ column ∈ columns', ∃ y, reshapeTo (folds * newBatchSize :: column.2.shape.drop 2) column.2 = .ok y ∧
      Reshaped [folds * newBatchSize] 2 column.2 y := by
    intro column member
    obtain ⟨original, _, _, reshaped⟩ := forall₂_right folded member
    have entries : column.2.data.length = (folds * newBatchSize :: column.2.shape.drop 2).prod := by
      rw [column.2.sized, reshaped.shape]
      simp only [cons_append, nil_append, drop_succ_cons, drop_zero, prod_cons]
      rw [Nat.mul_assoc, Nat.mul_left_comm]
    obtain ⟨y, made, shape, data⟩ := reshapeTo_ok entries
    exact ⟨y, made, data, shape⟩
  obtain ⟨unfolded, made, related⟩ : ∃ unfolded,
      mapColumns (fun _ val => reshapeTo (folds * newBatchSize :: val.shape.drop 2) val) columns' = .ok unfolded ∧
        ReshapedAll [folds * newBatchSize] 2 columns' unfolded :=
    mapColumns_ok (fun _ x y => Reshaped [folds * newBatchSize] 2 x y) each
  rw [made, reshapedAll_back sized folded related]

end Unfold

/-! ### The round trip -/

/-- The columns of two batches are the same. -/
structure SameColumns (data data' : DataProto α β μ) : Prop where
  batch : ∃ table table', data.batch = some table ∧ data'.batch = some table' ∧ table'.columns = table.columns
  nonTensorBatch : data'.nonTensorBatch = data.nonTensorBatch

def RoundTrip (newBatchSize : Nat) (data : DataProto α β μ) : Prop :=
  ∃ folded unfolded, (foldBatchDim data newBatchSize).1 = .ok folded ∧ (unfoldBatchDim folded 2).1 = .ok unfolded ∧
    SameColumns data unfolded

/-- And neither call changes the object it is given. -/
def FoldLaw (newBatchSize : Nat) (data : DataProto α β μ) : Prop :=
  ∃ folded unfolded, (foldBatchDim data newBatchSize).1 = .ok folded ∧ (unfoldBatchDim folded 2).1 = .ok unfolded ∧
    SameColumns data unfolded ∧ (foldBatchDim data newBatchSize).2 = data ∧ (unfoldBatchDim folded 2).2 = folded

section Law
variable {data : DataProto α β μ} {table : TensorDict α}

/-- Of a batch with tensors the columns come back, unless an array has no entries behind its first
dimension. -/
theorem roundTrip (hasRows : data.HasRows rows) (positive : 0 < newBatchSize) (divides : newBatchSize ∣ rows)
    (held : data.batch = some table) (tensors : table.columns ≠ [])
    (sized : ∀ column ∈ data.nonTensorBatch, column.2.shape.tail.prod ≠ 0) : RoundTrip newBatchSize data := by
  obtain ⟨folds, rfl⟩ := divides
  rw [Nat.mul_comm] at hasRows
  obtain ⟨folded, size, related, _, returned⟩ := foldBatchDim_eq positive held (hasRows.batch table held)
  have arraysSized : ∀ column ∈ data.nonTensorBatch, ∃ tail, column.2.shape = folds * newBatchSize :: tail ∧ tail.prod ≠ 0 := by
    intro column member
    obtain ⟨tail, shaped⟩ := hasRows.nonTensorBatch column member
    have some := sized column member
    rw [shaped] at some
    exact ⟨tail, shaped, some⟩
  obtain ⟨arrays, loop, arraysRelated⟩ := foldColumns_ok positive arraysSized
  have made : DataProto.make (some folded) arrays data.metaInfo = .ok ⟨some folded, arrays, data.metaInfo⟩ := by
    apply make_ok
    intro table' same
    cases same
    refine ⟨newBatchSize, size, ?_⟩
    intro column member
    obtain ⟨original, _, _, reshaped⟩ := forall₂_right arraysRelated member
    exact ⟨folds :: original.2.shape.drop 1, reshaped.shape⟩
  rw [loop, Option.elim_none, made] at returned
  have foldedTensors : folded.columns ≠ [] := by
    intro none
    rw [none] at related
    exact tensors (forall₂_nil_right_iff.mp related)
  have each : ∀ column ∈ folded.columns, [newBatchSize, folds] <+: column.2.shape := by
    intro column member
    obtain ⟨original, _, _, reshaped⟩ := forall₂_right related member
    exact ⟨_, reshaped.shape.symm⟩
  obtain ⟨sized', unfolded, auto, _, view, unfoldedSize, back⟩ := unfolded_batch foldedTensors each
  have columns := reshapedAll_back (hasRows.tensors held) related back
  have unfoldedMade : DataProto.make (some unfolded) data.nonTensorBatch data.metaInfo =
      .ok ⟨some unfolded, data.nonTensorBatch, data.metaInfo⟩ := by
    apply make_ok
    intro table' same
    cases same
    exact ⟨_, unfoldedSize, hasRows.nonTensorBatch⟩
  refine ⟨_, ⟨some unfolded, data.nonTensorBatch, data.metaInfo⟩, returned, ?_, ⟨table, unfolded, held, rfl, columns⟩, rfl⟩
  simp only [unfoldBatchDim, auto, view, ok_bind, unfoldedSize, headD_cons,
    unfoldedArrays_ok hasRows.nonTensorBatch arraysRelated, unfoldedMade]

theorem foldLaw_iff (hasRows : data.HasRows rows) (positive : 0 < newBatchSize) (divides : newBatchSize ∣ rows) :
    FoldLaw newBatchSize data ↔
      (∃ table, data.batch = some table ∧ table.columns = []) ∧ data.nonTensorBatch = [] := by
  obtain ⟨folds, rfl⟩ := divides
  rw [Nat.mul_comm] at hasRows
  constructor
  · rintro ⟨folded, unfolded, foldReturned, unfoldReturned, _, foldKeeps, unfoldKeeps⟩
    cases held : data.batch with
    | none =>
      rw [foldBatchDim, held] at foldReturned
      cases foldReturned
    | some table =>
      obtain ⟨batch, size, related, passed, returned⟩ := foldBatchDim_eq positive held (hasRows.batch table held)
      have through : (foldColumns newBatchSize data.nonTensorBatch).1 = none := by
        rw [foldReturned] at returned
        cases failed : (foldColumns newBatchSize data.nonTensorBatch).1 with
        | none => rfl
        | some failure =>
          rw [failed] at returned
          cases returned
      constructor
      · refine ⟨table, rfl, ?_⟩
        by_contra tensors
        -- the batch size that unfolding writes is one longer
        have isFolded : folded.batch = some batch := by
          rw [foldReturned, through, Option.elim_none, DataProto.make] at returned
          obtain ⟨_, _, isData⟩ := bind_eq_ok.mp returned.symm
          cases isData
          rfl
        have foldedTensors : batch.columns ≠ [] := by
          intro none
          rw [none] at related
          exact tensors (List.forall₂_nil_right_iff.mp related)
        have each : ∀ column ∈ batch.columns, [newBatchSize, folds] <+: column.2.shape := by
          intro column member
          obtain ⟨original, _, _, reshaped⟩ := forall₂_right related member
          exact ⟨_, reshaped.shape.symm⟩
        obtain ⟨sized, _, auto, sizedSize, _⟩ := unfolded_batch foldedTensors each
        have written : (unfoldBatchDim folded 2).2.batch = some sized := by
          simp only [unfoldBatchDim, isFolded, auto]
        rw [unfoldKeeps, isFolded] at written
        cases written
        rw [size] at sizedSize
        cases sizedSize
      · by_contra arrays
        apply foldColumns_changes through arrays
        rw [passed] at foldKeeps
        exact congrArg DataProto.nonTensorBatch foldKeeps
  · rintro ⟨⟨table, held, noTensors⟩, noArrays⟩
    obtain ⟨batch, size, related, passed, returned⟩ := foldBatchDim_eq positive held (hasRows.batch table held)
    rw [noTensors] at related
    have noColumns : batch.columns = [] := List.forall₂_nil_left_iff.mp related
    rw [noArrays] at passed returned
    have made : DataProto.make (some batch) ([] : List (String × NdTensor β)) data.metaInfo = .ok ⟨some batch, [], data.metaInfo⟩ := by
      apply make_ok
      intro table' same
      cases same
      exact ⟨newBatchSize, size, fun _ impossible => by cases impossible⟩
    obtain ⟨sized, auto, sizedSize, sizedColumns⟩ := autoBatchSize_empty noColumns 2
    have same : sized = batch := TensorDict.ext (by rw [sizedSize, size]; rfl) (by rw [sizedColumns, noColumns])
    rw [same] at auto
    have fits : batch.batchSize.prod = newBatchSize * ([] : List Nat).prod := by
      rw [size, List.prod_singleton, List.prod_nil, Nat.mul_one]
    have known : ([] : List Nat).prod ≠ 0 := Nat.one_ne_zero
    obtain ⟨viewed, view, viewedSize, viewedColumns⟩ := view_ok known fits
    rw [noColumns] at viewedColumns
    have unfoldedMade : DataProto.make (some viewed) ([] : List (String × NdTensor β)) data.metaInfo =
        .ok ⟨some viewed, [], data.metaInfo⟩ := by
      apply make_ok
      intro table' same
      cases same
      exact ⟨newBatchSize, viewedSize, fun _ impossible => by cases impossible⟩
    refine ⟨⟨some batch, [], data.metaInfo⟩, ⟨some viewed, [], data.metaInfo⟩, returned.trans made, ?_,
      ⟨⟨table, viewed, held, rfl, ?_⟩, noArrays.symm⟩, ?_, ?_⟩
    · simp only [unfoldBatchDim, auto, view, ok_bind]
      exact unfoldedMade
    · rw [noTensors, List.forall₂_nil_left_iff.mp viewedColumns]
    · rw [passed]
      exact DataProto.ext rfl noArrays.symm rfl
    · simp only [unfoldBatchDim, auto]

end Law

/-- A batch of two rows with an array. -/
private def rowsOfTwo (columns : List (String × NdTensor Nat)) (arrays : List (String × NdTensor Nat))
    (regular : ∀ column ∈ columns, [2] <+: column.2.shape) : DataProto Nat Nat Unit where
  batch := some ⟨[2], columns, regular⟩
  nonTensorBatch := arrays
  metaInfo := []

theorem foldLaw_nothing : FoldLaw 1 (rowsOfTwo [] [] (fun _ impossible => by cases impossible)) := by
  have hasRows : (rowsOfTwo [] [] (fun _ impossible => by cases impossible)).HasRows 2 := by
    refine ⟨?_, fun _ impossible => by cases impossible⟩
    intro table held
    cases held
    rfl
  exact (foldLaw_iff hasRows Nat.one_pos (Nat.one_dvd 2)).mpr ⟨⟨_, rfl, rfl⟩, rfl⟩

/-- The array is left in two dimensions. -/
theorem foldLaw_array : ¬ FoldLaw 1 (rowsOfTwo [] [("labels", ⟨[2], [1, 2], rfl⟩)] (fun _ impossible => by cases impossible)) := by
  rintro ⟨folded, unfolded, _, _, _, keeps, _⟩
  have written := congrArg DataProto.nonTensorBatch keeps
  exact absurd written (by decide)

theorem roundTrip_labels : RoundTrip 1 (rowsOfTwo [("tokens", ⟨[2], [7, 8], rfl⟩)] [("labels", ⟨[2], [1, 2], rfl⟩)]
    (List.forall_mem_singleton.mpr List.prefix_rfl)) := by
  refine @roundTrip _ _ _ 2 1 _ _ ⟨?_, List.forall_mem_singleton.mpr ⟨[], rfl⟩⟩ Nat.one_pos (Nat.one_dvd 2) rfl
    (List.cons_ne_nil _ _) (List.forall_mem_singleton.mpr Nat.one_ne_zero)
  intro table held
  cases held
  rfl

end LLMFusion.TensorProtocol
