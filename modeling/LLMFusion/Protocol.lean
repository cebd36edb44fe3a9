import Mathlib
import LLMFusion.Lib.Slices
import LLMFusion.Lib.Indexing
import LLMFusion.Lib.Fallible

/-! Batches as they are exchanged between workers: tensor columns with one length,
other columns, and a dictionary beside the rows. A row of a tensor column is an item
of type `τ`, a row of another column one of type `ν`. -/

namespace LLMFusion.Protocol
open Slices Indexing

inductive Failure where
  | unequalChunk (size chunks : Nat)
  | chunkCount (pieces chunks : Nat)
  | inconsistent
  | missingKey (key : String)
  | conflictingMeta (key : String)
  | keyError
  | typeError
  | indexError
  | lengthMismatch (expected got : Nat)
  | notConcatable
  | zeroStep
  deriving DecidableEq, Repr

/-- What the code asks of a value of `meta_info`. -/
class Value (μ : Type) extends BEq μ where
  truthy : μ → Bool
  isNone : μ → Bool
  asList : μ → Option (List μ)
  asDict : μ → Option (List (String × μ))
  ofList : List μ → μ
  ofDict : List (String × μ) → μ

/-- `torch.chunk`: pieces of one size, but for the last, and no empty one except of an
empty dimension. -/
def chunkBounds (length chunks : Nat) : List (Nat × Nat) :=
  if length = 0 then List.replicate chunks (0, 0)
  else
    let size := (length + chunks - 1) / chunks
    (List.range ((length + size - 1) / size)).map (fun i => (i * size, min ((i + 1) * size) length))

/-- `np.array_split` at indices. -/
def arraySplitAt {α : Type} (items : List α) (indices : List Nat) : List (List α) :=
  ((0 :: indices).zip (indices ++ [items.length])).map (fun bounds => slice items bounds.1 bounds.2)

/-- `np.cumsum(sizes)[:-1]` -/
def chunkIndices (start : Nat) : List Nat → List Nat
  | [] => []
  | [_] => []
  | size :: next :: sizes => (start + size) :: chunkIndices (start + size) (next :: sizes)

/-- `np.array_split` into a number of sections: the first ones have an item more. -/
def arraySplit {α : Type} (items : List α) (sections : Nat) : List (List α) :=
  let each := items.length / sections
  let extras := items.length % sections
  arraySplitAt items (chunkIndices 0 (List.replicate extras (each + 1) ++ List.replicate (sections - extras) each))

/-- A dictionary of columns with a length of its own. -/
@[ext] structure TensorDict (τ : Type) where
  batchSize : Nat
  columns : List (String × List τ)
  distinct : (columns.map Prod.fst).Nodup
  regular : ∀ column ∈ columns, column.2.length = batchSize

/-- `check_consistency` holds of every batch that is built. -/
structure DataProto (τ ν μ : Type) where
  batch : Option (TensorDict τ)
  nonTensorBatch : List (String × List ν)
  metaInfo : List (String × μ)
  distinct : (nonTensorBatch.map Prod.fst).Nodup
  consistent : ∀ table, batch = some table → ∀ column ∈ nonTensorBatch, column.2.length = table.batchSize

section Columns
variable {α β : Type}

/-- A function of every column. -/
def mapColumns (f : List α → List β) (columns : List (String × List α)) : List (String × List β) :=
  columns.map (fun column => (column.1, f column.2))

@[simp] theorem mapColumns_keys (f : List α → List β) (columns : List (String × List α)) :
    (mapColumns f columns).map Prod.fst = columns.map Prod.fst := by
  simp [mapColumns]

end Columns

variable {τ ν μ : Type}

def TensorDict.slice (table : TensorDict τ) (start stop : Nat) : TensorDict τ where
  batchSize := min stop table.batchSize - start
  columns := mapColumns (Slices.slice · start stop) table.columns
  distinct := by simpa using table.distinct
  regular := by
    intro column member
    obtain ⟨original, inside, rfl⟩ := List.mem_map.mp member
    rw [slice_length, table.regular original inside]

def TensorDict.chunk (table : TensorDict τ) (chunks : Nat) : List (TensorDict τ) :=
  (chunkBounds table.batchSize chunks).map (fun bounds => table.slice bounds.1 bounds.2)

/-- `__post_init__`. The keys of a dictionary are distinct as they are. -/
def DataProto.make (batch : Option (TensorDict τ)) (nonTensorBatch : List (String × List ν))
    (metaInfo : List (String × μ)) : Except Failure (DataProto τ ν μ) :=
  if distinct : (nonTensorBatch.map Prod.fst).Nodup then
    match batch with
    | none => .ok ⟨none, nonTensorBatch, metaInfo, distinct, by simp⟩
    | some table =>
      if consistent : ∀ column ∈ nonTensorBatch, column.2.length = table.batchSize then
        .ok ⟨some table, nonTensorBatch, metaInfo, distinct, by simpa using consistent⟩
      else .error .inconsistent
  else .error .inconsistent

def DataProto.len (data : DataProto τ ν μ) : Nat :=
  match data.batch, data.nonTensorBatch with
  | some table, _ => table.batchSize
  | none, column :: _ => column.2.length
  | none, [] => 0

/-- `autoPadding` is the setting of `DataProtoConfig`. -/
def DataProto.isPaddingEnabled [Value μ] (autoPadding : Bool) (data : DataProto τ ν μ) : Bool :=
  ((data.metaInfo.lookup "_verl_auto_padding").map Value.truthy).getD false || autoPadding

/-- The pieces of every column. -/
def splitColumns (split : List ν → List (List ν)) (chunks : Nat) (columns : List (String × List ν)) :
    Except Failure (List (List (String × List ν))) := do
  let pieces ← columns.mapM (fun column =>
    if (split column.2).length = chunks then Except.ok (column.1, split column.2)
    else .error (.chunkCount (split column.2).length chunks))
  return (List.range chunks).map (fun i => pieces.map (fun piece => (piece.1, piece.2.getD i [])))

/-- No chunks are refused by the division. -/
def DataProto.chunk [Value μ] (autoPadding : Bool) (data : DataProto τ ν μ) (chunks : Nat) :
    Except Failure (List (DataProto τ ν μ)) := do
  if chunks = 0 ∨ (data.isPaddingEnabled autoPadding = false ∧ data.len % chunks ≠ 0) then
    throw (.unequalChunk data.len chunks)
  match data.batch with
  | some table =>
    let batchLst := table.chunk chunks
    let chunkIndices := chunkIndices 0 (batchLst.map TensorDict.batchSize)
    let nonTensorLst ← splitColumns (arraySplitAt · chunkIndices) chunks data.nonTensorBatch
    (List.range chunks).mapM (fun i =>
      match batchLst[i]? with
      | some piece => DataProto.make (some piece) (nonTensorLst.getD i []) data.metaInfo
      | none => .error .indexError)
  | none =>
    let nonTensorLst ← splitColumns (arraySplit · chunks) chunks data.nonTensorBatch
    (List.range chunks).mapM (fun i => DataProto.make none (nonTensorLst.getD i []) data.metaInfo)

def DataProto.slice (data : DataProto τ ν μ) (start stop : Nat) : Except Failure (DataProto τ ν μ) :=
  DataProto.make (data.batch.map (fun table => table.slice start stop))
    (mapColumns (Slices.slice · start stop) data.nonTensorBatch) data.metaInfo

/-- The starts are those of `range(0, len(self), split_size)`. -/
def DataProto.split (data : DataProto τ ν μ) (splitSize : Nat) : Except Failure (List (DataProto τ ν μ)) :=
  if splitSize = 0 then .error .zeroStep
  else (List.range ((data.len + splitSize - 1) / splitSize)).mapM (fun i =>
    data.slice (i * splitSize) (i * splitSize + splitSize))

/-! ### Concatenation -/

/-- `output[key].append(item)` -/
def appendAt {α : Type} (output : List (String × List α)) (entry : String × α) :
    Except Failure (List (String × List α)) :=
  match output with
  | [] => .error (.missingKey entry.1)
  | column :: columns =>
    if column.1 = entry.1 then .ok ((column.1, column.2 ++ [entry.2]) :: columns)
    else (appendAt columns entry).map (column :: ·)

def listOfDictToDictOfList {α : Type} (dicts : List (List (String × α))) : Except Failure (List (String × List α)) :=
  match dicts with
  | [] => .ok []
  | first :: _ => dicts.foldlM (fun output data => data.foldlM appendAt output) (first.map (fun entry => (entry.1, [])))

/-- `torch.cat` of dictionaries with the same keys. -/
def catColumns {α : Type} (first : List (String × List α)) (tables : List (List (String × List α))) :
    List (String × List α) :=
  first.map (fun column => (column.1, tables.flatMap (fun columns => (columns.lookup column.1).getD [])))

def sameKeys {α : Type} (first columns : List (String × List α)) : Bool :=
  first.all (fun column => (columns.lookup column.1).isSome) && columns.length == first.length

theorem lookup_mem {α : Type} {key : String} {value : α} {entries : List (String × α)}
    (found : entries.lookup key = some value) : (key, value) ∈ entries := by
  induction entries with
  | nil => cases found
  | cons entry entries ih =>
    rw [List.lookup_cons] at found
    by_cases same : key == entry.1
    · simp only [same, Option.some.injEq] at found
      rw [eq_of_beq same, ← found]
      exact List.mem_cons_self
    · simp only [same] at found
      exact List.mem_cons_of_mem _ (ih found)

private theorem catColumns_regular {first : TensorDict τ} {tables : List (TensorDict τ)}
    (same : ∀ table ∈ tables, sameKeys first.columns table.columns = true) :
    ∀ column ∈ catColumns first.columns (tables.map TensorDict.columns),
      column.2.length = (tables.map TensorDict.batchSize).sum := by
  intro column member
  obtain ⟨original, inside, rfl⟩ := List.mem_map.mp member
  rw [List.length_flatMap, List.map_map]
  congr 1
  apply List.map_congr_left
  intro table isTable
  have keys := same table isTable
  simp only [sameKeys, Bool.and_eq_true, List.all_eq_true] at keys
  obtain ⟨rows, found⟩ := Option.isSome_iff_exists.mp (keys.1 original inside)
  simp only [Function.comp_apply, found, Option.getD_some]
  exact table.regular _ (lookup_mem found)

def TensorDict.cat (tables : List (TensorDict τ)) : Except Failure (TensorDict τ) :=
  match tables with
  | [] => .error .indexError
  | first :: rest =>
    if same : ∀ table ∈ first :: rest, sameKeys first.columns table.columns = true then
      .ok {
        batchSize := ((first :: rest).map TensorDict.batchSize).sum
        columns := catColumns first.columns ((first :: rest).map TensorDict.columns)
        distinct := by simpa [catColumns, Function.comp_def] using first.distinct
        regular := catColumns_regular same }
    else .error .keyError

/-- What `concat` keeps while it goes over the entries: the merged entries and all
metrics. -/
structure Merged (μ : Type) where
  metaInfo : List (String × μ)
  allMetrics : List μ

def mergeEntry [Value μ] (merged : Merged μ) (entry : String × μ) : Except Failure (Merged μ) :=
  if entry.1 = "metrics" then
    if Value.isNone entry.2 then .ok merged
    else match Value.asList entry.2 with
      | some items => .ok { merged with allMetrics := merged.allMetrics ++ items }
      | none => .ok { merged with allMetrics := merged.allMetrics ++ [entry.2] }
  else match merged.metaInfo.lookup entry.1 with
    | some value => if value == entry.2 then .ok merged else .error (.conflictingMeta entry.1)
    | none => .ok { merged with metaInfo := merged.metaInfo ++ [entry] }

def requireDict [Value μ] (metrics : μ) : Except Failure (List (String × μ)) :=
  match Value.asDict metrics with
  | some entries => .ok entries
  | none => .error .typeError

def mergeMetaInfo [Value μ] (metaInfos : List (List (String × μ))) : Except Failure (List (String × μ)) := do
  let merged ← metaInfos.flatten.foldlM mergeEntry ⟨[], []⟩
  if merged.allMetrics.isEmpty then return merged.metaInfo
  else
    let dicts ← merged.allMetrics.mapM requireDict
    let lists ← listOfDictToDictOfList dicts
    return insert "metrics" (Value.ofDict (lists.map (fun entry => (entry.1, Value.ofList entry.2)))) merged.metaInfo

def DataProto.requireBatch (item : DataProto τ ν μ) : Except Failure (TensorDict τ) :=
  match item.batch with
  | some table => .ok table
  | none => .error .typeError

/-- The batches behind the first are looked at only when the first has one. -/
def DataProto.concat [Value μ] (data : List (DataProto τ ν μ)) : Except Failure (DataProto τ ν μ) :=
  match data with
  | [] => .error .indexError
  | first :: rest => do
    let newBatch ← match first.batch with
      | some _ => do
        let batchLst ← (first :: rest).mapM DataProto.requireBatch
        let table ← TensorDict.cat batchLst
        pure (some table)
      | none => pure none
    let nonTensorBatch ← listOfDictToDictOfList ((first :: rest).map DataProto.nonTensorBatch)
    let mergedMetaInfo ← mergeMetaInfo ((first :: rest).map DataProto.metaInfo)
    DataProto.make newBatch (mapColumns List.flatten nonTensorBatch) mergedMetaInfo

/-! ### Rows by index -/

/-- The items that the indices name; a negative one counts from the end. -/
def takeRows {α : Type} (items : List α) (indices : List Int) : Except Failure (List α) :=
  indices.mapM (fun index => match getItem items index with
    | some item => .ok item
    | none => .error .indexError)

def takeColumns {α : Type} (indices : List Int) (columns : List (String × List α)) :
    Except Failure (List (String × List α)) :=
  columns.mapM (fun column => do
    let rows ← takeRows column.2 indices
    return (column.1, rows))

/-- `TensorDict(source, batch_size)` -/
def TensorDict.make (batchSize : Nat) (columns : List (String × List τ)) : Except Failure (TensorDict τ) :=
  if distinct : (columns.map Prod.fst).Nodup then
    if regular : ∀ column ∈ columns, column.2.length = batchSize then .ok ⟨batchSize, columns, distinct, regular⟩
    else .error .inconsistent
  else .error .inconsistent

def DataProto.selectIdxs (data : DataProto τ ν μ) (idxs : List Int) : Except Failure (DataProto τ ν μ) := do
  let selectedBatch ← match data.batch with
    | some table => do
      let columns ← takeColumns idxs table.columns
      let selected ← TensorDict.make idxs.length columns
      pure (some selected)
    | none => pure none
  let selectedNonTensor ← takeColumns idxs data.nonTensorBatch
  DataProto.make selectedBatch selectedNonTensor data.metaInfo

def repeatRows {α : Type} (repeatTimes : Nat) (interleave : Bool) (items : List α) : List α :=
  if interleave then items.flatMap (fun item => List.replicate repeatTimes item)
  else (List.replicate repeatTimes items).flatten

/-- `repeat` -/
def DataProto.repeatBatch (data : DataProto τ ν μ) (repeatTimes : Nat) (interleave : Bool) :
    Except Failure (DataProto τ ν μ) := do
  let repeatedBatch ← match data.batch with
    | some table => do
      let repeated ← TensorDict.make (table.batchSize * repeatTimes)
        (mapColumns (repeatRows repeatTimes interleave) table.columns)
      pure (some repeated)
    | none => pure none
  DataProto.make repeatedBatch (mapColumns (repeatRows repeatTimes interleave) data.nonTensorBatch) data.metaInfo

/-- The batch after `padding`, which replaces the columns of the object itself. -/
def DataProto.padding [Value μ] (data : DataProto τ ν μ) (paddingSize : Nat) (paddingCandidate : String) :
    Except Failure (DataProto τ ν μ) :=
  if paddingSize = 0 then .ok data
  else do
    let candidate ← data.selectIdxs [if paddingCandidate = "first" then 0 else (data.len : Int) - 1]
    let paddingPart ← candidate.repeatBatch paddingSize true
    let padded ← DataProto.concat [data, paddingPart]
    return { padded with metaInfo := data.metaInfo }

end LLMFusion.Protocol
