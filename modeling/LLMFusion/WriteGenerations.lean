import LLMFusion.Lib.Dictionary
import LLMFusion.Lib.Grouping
import LLMFusion.Lib.Splitting
import LLMFusion.ToolParser

/-! The dump of the samples of a step. The samples are grouped by their data source, and every group is
written to a file of its own. -/

namespace LLMFusion.WriteGenerations
open ToolParser (Text)

/-- What Python says of characters and of objects. -/
structure Python (ν : Type) where
  isalnum : Char → Bool
  lower : Text → Text
  str : ν → Text

variable {ν : Type} (python : Python ν)

/-- Turn a `data_source` string into a filesystem-safe file stem. -/
def sanitizeDataSource (dataSource : Text) : Text :=
  let safe := dataSource.map (fun c => if python.isalnum c || c = '.' || c = '_' || c = '-' then c else '_')
  let stem := Splitting.trim (fun c => c = '_') safe
  if stem = [] then "unknown".toList else stem

def codeDataSources : List Text :=
  ["codecontests".toList, "apps".toList, "codeforces".toList, "taco".toList, "livecodebench_v5".toList,
    "livecodebench_v6".toList, "LLM-Fusion/Code".toList]

/-- `ds.rsplit("/", 1)[-1]` -/
def leaf (dataSource : Text) : Text := (dataSource.reverse.takeWhile (· ≠ '/')).reverse

def isCodeDataSource (dataSource : Text) : Bool :=
  codeDataSources.contains dataSource || codeDataSources.contains (leaf dataSource) ||
    decide ("livecodebench".toList <:+: python.lower (leaf dataSource)) ||
    decide ("codecontests".toList <:+: python.lower (leaf dataSource))

/-- A line of a file. The index of its sample is not written. -/
structure Line (ν : Type) where
  sample : Nat
  entry : List (Text × ν)

structure Generations (ν : Type) where
  inputs : List ν
  outputs : List ν
  gts : List ν
  scores : List ν
  dataSources : Option (List ν)

/-- `reward_extra_infos_dict` -/
structure ExtraInfos (ν : Type) where
  entries : List (Text × List ν)
  distinct : (entries.map Prod.fst).Nodup

def inputKey : Text := "input".toList

def outputKey : Text := "output".toList

def gtsKey : Text := "gts".toList

def scoreKey : Text := "score".toList

def stepKey : Text := "step".toList

def dataSourceKey : Text := "data_source".toList

/-- The columns, with the extra ones that have an item for each sample. -/
def baseData (generations : Generations ν) (extraInfos : ExtraInfos ν) (globalSteps : ν) : List (Text × List ν) :=
  let n := generations.inputs.length
  let columns := [(inputKey, generations.inputs), (outputKey, generations.outputs), (gtsKey, generations.gts),
    (scoreKey, generations.scores), (stepKey, List.replicate n globalSteps)]
  let columns := match generations.dataSources with
    | some dataSources => columns ++ [(dataSourceKey, dataSources)]
    | none => columns
  Dictionary.merge (fun _ values => values) columns (extraInfos.entries.filter (fun info => info.2.length = n))

/-- A row; `None` where a column is too short. -/
def writeRow (columns : List (Text × List ν)) (omitKeys : List Text) (i : Nat) : Option (Line ν) := do
  let entry ← (Dictionary.erase columns omitKeys).mapM (fun column => (column.2[i]?).map (fun value => (column.1, value)))
  return ⟨i, entry⟩

def fileName (stem : Text) : Text := stem ++ ".jsonl".toList

/-- The file of a group is opened for writing, and what it had is lost. -/
def writeFile (columns : List (Text × List ν)) (files : List (Text × List (Line ν))) (group : Text × List Nat) :
    Option (List (Text × List (Line ν))) := do
  let omitKeys := if isCodeDataSource python group.1 then [gtsKey] else []
  let rows ← group.2.mapM (writeRow columns omitKeys)
  return Dictionary.modify (fileName (sanitizeDataSource python group.1)) (fun _ => rows) files

/-- The indices of the samples by their data source. -/
def indicesBySource (dataSources : List ν) : List (Text × List Nat) :=
  Grouping.collect (dataSources.zipIdx.map (fun source => (python.str source.1, source.2)))

/-- The files that are written, in a directory of the step or, without data sources, a single one. -/
def writeGenerations (generations : Generations ν) (extraInfos : ExtraInfos ν) (globalSteps : ν) :
    Option (List (Text × List (Line ν))) :=
  let columns := baseData generations extraInfos globalSteps
  match generations.dataSources with
  | none => do
    let rows ← (List.range generations.inputs.length).mapM (writeRow columns [])
    return [(fileName (python.str globalSteps), rows)]
  | some _ => do
    let dataSources ← Dictionary.get columns dataSourceKey
    (indicesBySource python dataSources).foldlM (writeFile python columns) []

end LLMFusion.WriteGenerations
