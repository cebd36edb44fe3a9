import LLMFusion.Lib.Indexing
import LLMFusion.Lib.Rows

/-! Batches with columns of any rank. A tensor dictionary has a batch size, with which the shapes of
all its columns begin; beside it stand arrays with names, and a dictionary of other values. The
entries of a tensor have the type `α`, those of an array the type `β`. -/

namespace LLMFusion.TensorProtocol

inductive Failure where
  | attributeError
  | zeroDivision
  | typeError
  | indexError
  | reshapeError
  | repeatsError
  | batchDivision
  | inconsistent
  | batchSize (message : String)
  | conflictingTensor (message : String)
  | conflictingArray (message : String)
  | conflictingMeta (message : String)
  deriving DecidableEq, Repr

@[ext] structure TensorDict (α : Type) where
  batchSize : List Nat
  columns : List (String × NdTensor α)
  regular : ∀ column ∈ columns, batchSize <+: column.2.shape

/-- The fields of a `DataProto`. They are checked when it is built, and may be changed later. -/
@[ext] structure DataProto (α β μ : Type) where
  batch : Option (TensorDict α)
  nonTensorBatch : List (String × NdTensor β)
  metaInfo : List (String × μ)

variable {α β γ μ : Type}

/-- `check_consistency`. Without a batch the columns are not looked at. -/
def DataProto.checkConsistency (data : DataProto α β μ) : Except Failure Unit :=
  match data.batch with
  | none => .ok ()
  | some table =>
    match table.batchSize with
    | [batchSize] => data.nonTensorBatch.forM (fun column =>
        match column.2.shape with
        | [] => .error .indexError
        | rows :: _ => if rows = batchSize then .ok () else .error .inconsistent)
    | _ => .error .inconsistent

/-- A batch, checked when it is built. -/
def DataProto.make (batch : Option (TensorDict α)) (nonTensorBatch : List (String × NdTensor β))
    (metaInfo : List (String × μ)) : Except Failure (DataProto α β μ) := do
  let data : DataProto α β μ := ⟨batch, nonTensorBatch, metaInfo⟩
  data.checkConsistency
  return data

/-- `TensorDict(source, batch_size)` -/
def TensorDict.make (batchSize : List Nat) (columns : List (String × NdTensor α)) : Except Failure (TensorDict α) :=
  if regular : ∀ column ∈ columns, batchSize <+: column.2.shape then .ok ⟨batchSize, columns, regular⟩
  else .error .inconsistent

/-- The columns that a function makes of columns, under the same keys. -/
def mapColumns {δ : Type} (f : String → γ → Except Failure δ) (columns : List (String × γ)) :
    Except Failure (List (String × δ)) :=
  columns.mapM (fun column => (column.1, ·) <$> f column.1 column.2)

/-- The keys of dictionaries differ. -/
structure DataProto.Keyed (data : DataProto α β μ) : Prop where
  batch : ∀ table, data.batch = some table → (table.columns.map Prod.fst).Nodup
  nonTensorBatch : (data.nonTensorBatch.map Prod.fst).Nodup
  metaInfo : (data.metaInfo.map Prod.fst).Nodup

/-! ### Union -/

/-- The loops of the three unions. A new key is put in; a key that is there already has to have
an equal value, and `again` is what is done with it. -/
def unionInto (again : List (String × γ) → String × γ → List (String × γ)) (equal : γ → γ → Bool)
    (conflict : String → Failure) : List (String × γ) → List (String × γ) → Option Failure × List (String × γ)
  | dict, [] => (none, dict)
  | dict, entry :: entries =>
    match dict.lookup entry.1 with
    | none => unionInto again equal conflict (Indexing.insert entry.1 entry.2 dict) entries
    | some value =>
      if equal value entry.2 then unionInto again equal conflict (again dict entry) entries
      else (some (conflict entry.1), dict)

/-- How two columns and two values are compared. -/
structure Comparisons (α β μ : Type) where
  tensorEqual : NdTensor α → NdTensor α → Bool
  deepEqual : NdTensor β → NdTensor β → Bool
  equal : μ → μ → Bool

/-- The loop of `union_tensor_dict`. A tensor that is there already stays. -/
def unionTensorDict (compare : Comparisons α β μ) (first second : List (String × NdTensor α)) :
    Option Failure × List (String × NdTensor α) :=
  unionInto (fun dict _ => dict) compare.tensorEqual
    (fun key => .conflictingTensor s!"{key} in tensor_dict1 and tensor_dict2 are not the same object") first second

/-- An array that is there already is replaced. -/
def unionNumpyDict (compare : Comparisons α β μ) (first second : List (String × NdTensor β)) :
    Option Failure × List (String × NdTensor β) :=
  unionInto (fun dict entry => Indexing.insert entry.1 entry.2 dict) compare.deepEqual
    (fun key => .conflictingArray ("`" ++ key ++ "` in tensor_dict1 and tensor_dict2 are not the same object.")) first second

/-- The new value is the left one of the comparison. -/
def unionTwoDict (compare : Comparisons α β μ) (first second : List (String × μ)) : Option Failure × List (String × μ) :=
  unionInto (fun dict entry => Indexing.insert entry.1 entry.2 dict) (fun old new => compare.equal new old)
    (fun key => .conflictingMeta s!"{key} in meta_dict1 and meta_dict2 are not the same object") first second

/-- What the loop holds was there, or was put in. -/
theorem mem_unionInto {again : List (String × γ) → String × γ → List (String × γ)} {equal : γ → γ → Bool}
    {conflict : String → Failure}
    (stores : ∀ dict entry other, other ∈ again dict entry → other ∈ dict ∨ other = entry)
    {first second : List (String × γ)} {entry : String × γ} (member : entry ∈ (unionInto again equal conflict first second).2) :
    entry ∈ first ∨ entry ∈ second := by
  induction second generalizing first with
  | nil => exact Or.inl member
  | cons next second ih =>
    simp only [unionInto] at member
    split at member
    · rcases ih member with inside | later
      · rcases Indexing.mem_insert inside with rfl | old
        · exact Or.inr List.mem_cons_self
        · exact Or.inl old
      · exact Or.inr (List.mem_cons_of_mem _ later)
    · split at member
      · rcases ih member with inside | later
        · rcases stores first next entry inside with old | rfl
          · exact Or.inl old
          · exact Or.inr List.mem_cons_self
        · exact Or.inr (List.mem_cons_of_mem _ later)
      · exact Or.inl member

/-- `union_tensor_dict` -/
def TensorDict.union (compare : Comparisons α β μ) (first second : TensorDict α) : Option Failure × TensorDict α :=
  if same : first.batchSize = second.batchSize then
    let merged := unionTensorDict compare first.columns second.columns
    (merged.1, {
      batchSize := first.batchSize
      columns := merged.2
      regular := by
        intro column member
        rcases mem_unionInto (fun _ _ _ inside => Or.inl inside) member with left | right
        · exact first.regular column left
        · exact same ▸ second.regular column right })
  else (some (.batchSize (s!"Two tensor dict must have identical batch size. Got torch.Size({first.batchSize})" ++
    s!" and torch.Size({second.batchSize})")), first)

/-- The failure of a union, and the receiver behind it. -/
def DataProto.union (compare : Comparisons α β μ) (self other : DataProto α β μ) : Option Failure × DataProto α β μ :=
  match self.batch, other.batch with
  | some first, some second =>
    let batch := first.union compare second
    let self := { self with batch := some batch.2 }
    if batch.1.isSome then (batch.1, self)
    else
      let nonTensorBatch := unionNumpyDict compare self.nonTensorBatch other.nonTensorBatch
      let self := { self with nonTensorBatch := nonTensorBatch.2 }
      if nonTensorBatch.1.isSome then (nonTensorBatch.1, self)
      else
        let metaInfo := unionTwoDict compare self.metaInfo other.metaInfo
        (metaInfo.1, { self with metaInfo := metaInfo.2 })
  | _, _ => (some .attributeError, self)

/-! ### Repetition -/

section Columns
variable {ε : Type}

private theorem repeatRows_each (x : NdTensor ε) (counts : List Nat) :
    ∀ row ∈ NdTensor.repeatRows x.rows counts, row.length = x.shape.tail.prod :=
  fun row member => x.rows_each row (NdTensor.mem_repeatRows member)

def reshapeTo (shape : List Nat) (x : NdTensor ε) : Except Failure (NdTensor ε) :=
  match x.reshape shape with
  | some reshaped => .ok reshaped
  | none => .error .reshapeError

/-- `repeat_interleave` and `np.repeat` along the first dimension, with a count for each row or one
for all. -/
def repeatInterleave (counts : List Nat) (x : NdTensor ε) : Except Failure (NdTensor ε) :=
  match x.shape with
  | [] => .error .indexError
  | rows :: _ =>
    let counts := if counts.length = 1 then List.replicate rows (counts.headD 0) else counts
    if counts.length = rows then .ok (.ofRowList x.shape.tail (NdTensor.repeatRows x.rows counts) (repeatRows_each x counts))
    else .error .repeatsError

/-- `unsqueeze(0).expand(times, *shape)` -/
def expand (times : Nat) (x : NdTensor ε) : NdTensor ε where
  shape := times :: x.shape
  data := (List.replicate times x.data).flatten
  sized := by
    rw [List.length_flatten, List.map_replicate, List.sum_replicate, List.prod_cons, x.sized, smul_eq_mul]

/-- `np.tile` with `times` for the first dimension and one for the others. -/
def tile (times : Nat) (x : NdTensor ε) : NdTensor ε where
  shape := times * x.shape.headD 1 :: x.shape.tail
  data := (List.replicate times x.data).flatten
  sized := by
    rw [List.length_flatten, List.map_replicate, List.sum_replicate, List.prod_cons, x.sized, smul_eq_mul]
    cases x.shape with
    | nil => simp
    | cons count tail => simp [Nat.mul_assoc]

/-- Expanded, and reshaped with the sizes behind the first dimension. -/
def stack (times : Nat) (x : NdTensor ε) : Except Failure (NdTensor ε) :=
  match (expand times x).reshapeInfer [] x.shape.tail with
  | some stacked => .ok stacked
  | none => .error .reshapeError

end Columns

/-- The loop over the tensors, which make a batch of a new size. -/
def rebuildBatch (tensorOf : String → NdTensor α → Except Failure (NdTensor α)) (sizeOf : TensorDict α → Except Failure Nat) :
    Option (TensorDict α) → Except Failure (Option (TensorDict α))
  | none => .ok none
  | some table => do
    let tensors ← mapColumns tensorOf table.columns
    let size ← sizeOf table
    let rebuilt ← TensorDict.make [size] tensors
    return some rebuilt

/-- The loops of the functions below: over the tensors, and over the arrays. -/
def DataProto.rebuild (tensorOf : String → NdTensor α → Except Failure (NdTensor α))
    (sizeOf : TensorDict α → Except Failure Nat) (arrayOf : String → NdTensor β → Except Failure (NdTensor β))
    (data : DataProto α β μ) : Except Failure (DataProto α β μ) := do
  let batch ← rebuildBatch tensorOf sizeOf data.batch
  let nonTensorBatch ← mapColumns arrayOf data.nonTensorBatch
  DataProto.make batch nonTensorBatch data.metaInfo

/-- `repeat` -/
def DataProto.repeatBatch (data : DataProto α β μ) (repeatTimes : Nat) (interleave : Bool) :
    Except Failure (DataProto α β μ) :=
  data.rebuild (fun _ tensor => if interleave then repeatInterleave [repeatTimes] tensor else stack repeatTimes tensor)
    (fun table => .ok (table.batchSize.headD 0 * repeatTimes))
    (fun _ val => if interleave then repeatInterleave [repeatTimes] val else .ok (tile repeatTimes val))

/-- The counts are made a tensor. No counts make a tensor of floats, which neither `repeat_interleave` nor
the size of a batch takes; `numpyTakesFloats` says whether `np.repeat` does. -/
def DataProto.sampleLevelRepeat (numpyTakesFloats : Bool) (data : DataProto α β μ) (repeatTimes : List Nat) :
    Except Failure (DataProto α β μ) :=
  data.rebuild (fun _ tensor => if repeatTimes.isEmpty then .error .typeError else repeatInterleave repeatTimes tensor)
    (fun _ => if repeatTimes.isEmpty then .error .typeError else .ok repeatTimes.sum)
    (fun _ val => if repeatTimes.isEmpty && !numpyTakesFloats then .error .typeError else repeatInterleave repeatTimes val)

/-- A column whose second dimension is cut into `nSplit` parts, which become rows. -/
def cutSecond {ε : Type} (nSplit : Nat) (x : NdTensor ε) : Except Failure (NdTensor ε) :=
  match x.shape with
  | rows :: width :: tail =>
    if nSplit = 0 then .error .zeroDivision else reshapeTo (rows * nSplit :: width / nSplit :: tail) x
  | _ => .error .indexError

/-- Whether an array is cut is asked of the keys also when there are none. -/
def DataProto.unfoldColumnChunks (data : DataProto α β μ) (nSplit : Nat) (splitKeys : Option (List String)) :
    Except Failure (DataProto α β μ) :=
  data.rebuild
    (fun key tensor =>
      match splitKeys with
      | some keys => if key ∈ keys then cutSecond nSplit tensor else repeatInterleave [nSplit] tensor
      | none => repeatInterleave [nSplit] tensor)
    (fun table => .ok (table.batchSize.headD 0 * nSplit))
    (fun key val =>
      match splitKeys with
      | some keys => if key ∈ keys then cutSecond nSplit val else repeatInterleave [nSplit] val
      | none => .error .typeError)

/-! ### Folding -/

/-- `view(*sizes, -1)`. The batch size is replaced, and in each column the sizes it stood for. -/
def TensorDict.view (sizes : List Nat) (table : TensorDict α) : Except Failure (TensorDict α) :=
  let inferred := table.batchSize.prod / sizes.prod
  if sizes.prod = 0 ∨ table.batchSize.prod % sizes.prod ≠ 0 then .error .reshapeError
  else do
    let columns ← mapColumns
      (fun _ tensor => reshapeTo (sizes ++ inferred :: tensor.shape.drop table.batchSize.length) tensor) table.columns
    TensorDict.make (sizes ++ [inferred]) columns

def commonPrefix : List Nat → List Nat → List Nat
  | size :: sizes, size' :: sizes' => if size = size' then size :: commonPrefix sizes sizes' else []
  | _, _ => []

/-- The sizes with which all shapes begin. -/
def sharedSizes : List (List Nat) → List Nat
  | [] => []
  | [shape] => shape
  | shape :: shapes => commonPrefix shape (sharedSizes shapes)

/-- `auto_batch_size_` -/
def TensorDict.autoBatchSize (batchDims : Nat) (table : TensorDict α) : Except Failure (TensorDict α) :=
  if table.columns.isEmpty then TensorDict.make (table.batchSize.take batchDims) table.columns
  else TensorDict.make ((sharedSizes (table.columns.map (fun column => column.2.shape))).take batchDims) table.columns

/-- The loop of `fold_batch_dim`, which writes into the dictionary that it goes over. -/
def foldColumns (newBatchSize : Nat) : List (String × NdTensor β) → Option Failure × List (String × NdTensor β)
  | [] => (none, [])
  | column :: columns =>
    match column.2.reshapeInfer [newBatchSize] column.2.shape.tail with
    | none => (some .reshapeError, column :: columns)
    | some reshaped =>
      let rest := foldColumns newBatchSize columns
      (rest.1, (column.1, reshaped) :: rest.2)

/-- What the call returns, and the object it was given as it is then. -/
def foldBatchDim (data : DataProto α β μ) (newBatchSize : Nat) : Except Failure (DataProto α β μ) × DataProto α β μ :=
  match data.batch with
  | none => (.error .attributeError, data)
  | some table =>
    match table.batchSize with
    | [] => (.error .indexError, data)
    | batchSize :: _ =>
      if newBatchSize = 0 then (.error .zeroDivision, data)
      else if batchSize % newBatchSize ≠ 0 then (.error .batchDivision, data)
      else
        match table.view [newBatchSize] >>= TensorDict.autoBatchSize 1 with
        | .error failure => (.error failure, data)
        | .ok tensor =>
          let nonTensor := foldColumns newBatchSize data.nonTensorBatch
          let passed := { data with nonTensorBatch := nonTensor.2 }
          match nonTensor.1 with
          | some failure => (.error failure, passed)
          | none => (DataProto.make (some tensor) nonTensor.2 data.metaInfo, passed)

/-- The batch of the object it was given gets another batch size. -/
def unfoldBatchDim (data : DataProto α β μ) (batchDims : Nat) : Except Failure (DataProto α β μ) × DataProto α β μ :=
  match data.batch with
  | none => (.error .attributeError, data)
  | some table =>
    match table.autoBatchSize batchDims with
    | .error failure => (.error failure, data)
    | .ok table =>
      let passed := { data with batch := some table }
      let returned : Except Failure (DataProto α β μ) := do
        let tensor ← table.view []
        let nonTensorNew ← mapColumns
          (fun _ val => reshapeTo (tensor.batchSize.headD 0 :: val.shape.drop batchDims) val) data.nonTensorBatch
        DataProto.make (some tensor) nonTensorNew data.metaInfo
      (returned, passed)

end LLMFusion.TensorProtocol
