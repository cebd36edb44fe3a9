import LLMFusion.Validation

/-! The validation of the trainer with separate rollouts, whose result can be merged with another one. The samples of a
result are in lists that are joined by position alone, and the lists of two results are joined key by key. -/

namespace LLMFusion.MergedValidation
open Validation

structure Row (K : Type) where
  uid : String
  rmScores : List K
  numTurns : Nat
  dataSource : String

/-- A batch of outputs, with the columns that need not be there. -/
structure Batch (K : Type) where
  rows : List (Row K)
  filled : rows ≠ []
  rewardExtraInfo : ExtraInfos K
  distinct : (rewardExtraInfo.map Prod.fst).Nodup
  columns : ∀ column ∈ rewardExtraInfo, column.2.length = rows.length
  hasNumTurns : Bool
  hasDataSource : Bool

/-- What a validation returns when it is to be merged. -/
structure Result (K : Type) where
  dataSources : List (List String)
  sampleUids : List String
  sampleTurns : List (List Nat)
  rewardExtraInfos : ExtraInfos K

structure State (K : Type) where
  result : Result K
  sampleScores : List K

/-- The iteration over a set of texts. -/
structure SetOrder where
  list : List String → List String
  distinct : ∀ keys, (list keys).Nodup
  members : ∀ keys key, key ∈ list keys ↔ key ∈ keys

variable {K : Type}

/-! ### Collecting -/

def emptyResult (K : Type) : Result K := ⟨[], [], [], []⟩

def Batch.dataSources (batch : Batch K) : List String :=
  if batch.hasDataSource then batch.rows.map Row.dataSource else List.replicate batch.rows.length "unknown"

variable [Field K]

def collectBatch (state : State K) (batch : Batch K) : State K :=
  let result := state.result
  let scores := batch.rows.map (fun row => row.rmScores.sum)
  let infos := Dictionary.modify rewardKey (fun values => values.getD [] ++
    scores.map Value.number) result.rewardExtraInfos
  { result :=
      { dataSources := result.dataSources ++ [batch.dataSources]
        sampleUids := result.sampleUids ++ batch.rows.map Row.uid
        sampleTurns := result.sampleTurns ++ (if batch.hasNumTurns then [batch.rows.map Row.numTurns] else [])
        rewardExtraInfos := Dictionary.merge (fun values new => values.getD [] ++
          new) infos batch.rewardExtraInfo }
    sampleScores := state.sampleScores ++ scores }

def collect (batches : List (Batch K)) : State K := batches.foldl collectBatch ⟨emptyResult K, []⟩

/-- Without the lists of a length of their own. -/
def validate (batches : List (Batch K)) : Option (Result K) :=
  let state := collect batches
  if ∀ info ∈ state.result.rewardExtraInfos, info.2.length = 0 ∨ info.2.length = state.sampleScores.length then
    some state.result
  else none

/-! ### Metrics -/

/-- The number behind `@` in the name of a metric. -/
def size : Metric → Nat
  | .mean n => n
  | .std n => n
  | .best n _ => n
  | .worst n _ => n
  | .maj n _ => n

def momentText : Moment → String
  | .mean => "mean"
  | .std => "std"

def metricText : Metric → String
  | .mean n => "mean@" ++ toString n
  | .std n => "std@" ++ toString n
  | .best n moment => "best@" ++ toString n ++ "/" ++ momentText moment
  | .worst n moment => "worst@" ++ toString n ++ "/" ++ momentText moment
  | .maj n moment => "maj@" ++ toString n ++ "/" ++ momentText moment

def isCore : Metric → Bool
  | .mean _ => true
  | .std _ => false
  | .best _ _ => true
  | .worst _ _ => false
  | .maj _ _ => true

def accKey : String := "acc"

def metricSec (varName coreVar : String) (nMax : Nat) (metric : Metric) : String :=
  if varName = coreVar ∧ isCore metric = true ∧ size metric = nMax then "val-core" else "val-aux"

omit [Field K] in
def varEntries (dataSource coreVar : String) (var : String × List (Metric × K)) :
    Except Failure (List (String × K)) := do
  let nMax ← orValueError (var.2.map (fun metric => size metric.1)).max?
  return var.2.map (fun metric =>
    (metricSec var.1 coreVar nMax metric.1 ++ "/" ++ dataSource ++ "/" ++ var.1 ++ "/" ++
      metricText metric.1, metric.2))

omit [Field K] in
def sourceEntries (source : String × List (String × List (Metric × K))) : Except Failure (List (String × K)) :=
  do
  let coreVar := if accKey ∈ source.2.map Prod.fst then accKey else rewardKey
  let entries ← source.2.mapM (varEntries source.1 coreVar)
  return entries.flatten

def turnEntries (sampleTurns : List (List Nat)) : Except Failure (List (String × K)) := do
  if sampleTurns.length > 0 then
    let turns := sampleTurns.flatten
    let least ← orValueError turns.min?
    let most ← orValueError turns.max?
    return [("val-aux/num_turns/min", (least : K)), ("val-aux/num_turns/max", (most : K)),
      ("val-aux/num_turns/mean", npMean (turns.map (fun n : Nat => (n : K))))]
  else return []

/-- The metrics by their full names. -/
def metricDict (metrics : List (String × List (String × List (Metric × K)))) (sampleTurns : List (List Nat)) :
    Except Failure (List (String × K)) := do
  let entries ← metrics.mapM sourceEntries
  let turns ← turnEntries sampleTurns
  return Dictionary.merge (fun _ value => value) [] (entries.flatten ++ turns)

variable [LinearOrder K] (sqrt : K → K) (choice : Choice)

def valMetricsUpdate (dataSources sampleUids : List String) (infos : ExtraInfos K)
    (sampleTurns : List (List Nat)) :
    Except Failure (List (String × K)) := do
  let metrics ← processValidationMetrics sqrt choice dataSources sampleUids infos
  metricDict metrics sampleTurns

/-! ### Merging -/

omit [LinearOrder K] [Field K] in
def allKeys (order : SetOrder) (resultA resultB : Result K) : List String :=
  order.list (resultA.rewardExtraInfos.map Prod.fst ++ resultB.rewardExtraInfos.map Prod.fst)

omit [LinearOrder K] [Field K] in
def mergedInfos (order : SetOrder) (resultA resultB : Result K) : ExtraInfos K :=
  (allKeys order resultA resultB).map (fun key =>
    (key, (Dictionary.get resultA.rewardExtraInfos key).getD [] ++
      (Dictionary.get resultB.rewardExtraInfos key).getD []))

def mergeValidationResults (order : SetOrder) (resultA resultB : Option (Result K)) :
    Except Failure (List (String × K)) :=
  if resultA.isNone ∧ resultB.isNone then .ok []
  else
    let resultA := resultA.getD (emptyResult K)
    let resultB := resultB.getD (emptyResult K)
    if resultA.dataSources = [] ∧ resultB.dataSources = [] then .ok []
    else valMetricsUpdate sqrt choice (resultA.dataSources ++ resultB.dataSources).flatten
      (resultA.sampleUids ++ resultB.sampleUids) (mergedInfos order resultA resultB)
      (resultA.sampleTurns ++ resultB.sampleTurns)

end LLMFusion.MergedValidation
