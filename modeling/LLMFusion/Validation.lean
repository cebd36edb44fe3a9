import LLMFusion.SyncTrainer
import LLMFusion.Lib.Dictionary

/-! Validation: the samples of every batch are collected in lists, the generations are dumped, and the
metrics of every data source are computed from the lists. -/

namespace LLMFusion.Validation
open SyncTrainer
open PaddingUtils (Key)

inductive Failure where
  | indexError
  | keyError
  | typeError
  | valueError
  deriving DecidableEq, Repr

/-- What a reward function says of a sample, or `None`. -/
inductive Value (K : Type) where
  | none
  | number (value : K)
  | text (value : String)
  deriving DecidableEq, Repr

structure Info (K : Type) where
  entries : List (String × Value K)
  distinct : (entries.map Prod.fst).Nodup

/-- `extra_fields` of a sample, which need not be a dictionary. -/
inductive ExtraField (K : Type) where
  | dict (rewardExtraInfo : Option (Info K))
  | other

structure Row (K : Type) where
  prompts : List Nat
  responses : List Nat
  uid : String
  rmScores : List K
  numTurns : Nat
  groundTruth : Option String
  dataSource : String
  extraField : ExtraField K

/-- The outputs of a batch, with the columns that need not be there. -/
structure Batch (K : Type) where
  rows : List (Key × Row K)
  distinct : (rows.map Prod.fst).Nodup
  hasExtraFields : Bool
  hasRewardModel : Bool
  hasDataSource : Bool

structure Tokenizer where
  decode : List Nat → String
  padTokenId : Nat

/-- `np.random.choice` after seeding, as the indices of every sample. -/
structure Choice where
  indices : (size subsetSize : Nat) → List (List Nat)
  inside : ∀ size subsetSize, ∀ sample ∈ indices size subsetSize, sample.length = subsetSize ∧ ∀ i ∈ sample, i < size

/-- `reward_extra_infos_dict` -/
abbrev ExtraInfos (K : Type) := List (String × List (Value K))

structure State (K : Type) where
  sampleUids : List String
  sampleInputs : List String
  sampleOutputs : List String
  sampleGts : List (Option String)
  sampleScores : List K
  sampleTurns : List Nat
  dataSources : List String
  rewardExtraInfos : ExtraInfos K
  dumpAllInputs : List String
  dumpAllOutputs : List String
  dumpAllKeys : List Key
  sessionToSampleIdx : List ((String × Nat) × Nat)

def start (K : Type) : State K := ⟨[], [], [], [], [], [], [], [], [], [], [], []⟩

variable {K : Type}

/-! ### Collecting -/

def ExtraField.rewardExtraInfo : ExtraField K → List (String × Value K)
  | .dict (some info) => info.entries
  | .dict none => []
  | .other => []

def rewardKey : String := "reward"

/-- Lists of keys that a sample does not have are padded. -/
def padAbsent (info : List (String × Value K)) (infos : ExtraInfos K) : ExtraInfos K :=
  infos.map (fun entry =>
    if entry.1 ≠ rewardKey ∧ entry.1 ∉ info.map Prod.fst then (entry.1, entry.2 ++ [.none]) else entry)

/-- One pass of the loop over the samples, with `n_prior`. -/
def addExtraField (state : ExtraInfos K × Nat) (extraField : ExtraField K) : ExtraInfos K × Nat :=
  let info := extraField.rewardExtraInfo
  (Dictionary.merge (fun values value => values.getD (List.replicate state.2 .none) ++ [value]) (padAbsent info state.1) info,
    state.2 + 1)

def addExtraFields (infos : ExtraInfos K) (extraFields : List (ExtraField K)) : ExtraInfos K :=
  let nPrior := ((Dictionary.get infos rewardKey).getD []).length - extraFields.length
  (extraFields.foldl addExtraField (infos, nPrior)).1

/-- The keys of the final outputs, by their position. -/
def sortedSessions (keys : List Key) : FinalSessions :=
  (finalSessions keys).mergeSort (fun session other => decide (session.2.2 ≤ other.2.2))

def paddedTo (padTokenId : Nat) (rows : List (List Nat)) : List (List Nat) :=
  let width := (rows.map List.length).foldr max 0
  rows.map (fun ids => ids ++ List.replicate (width - ids.length) padTokenId)

variable [Field K]

def collectBatch (tokenizer : Tokenizer) (state : State K) (batch : Batch K) : State K :=
  let sessions := sortedSessions (batch.rows.map Prod.fst)
  let allInputs := (paddedTo tokenizer.padTokenId (batch.rows.map (fun row => row.2.prompts))).map tokenizer.decode
  let allOutputs := (paddedTo tokenizer.padTokenId (batch.rows.map (fun row => row.2.responses))).map tokenizer.decode
  let finalIndices := sessions.map (fun session => session.2.2)
  let data := (finalIndices.filterMap (fun i => batch.rows[i]?)).map Prod.snd
  let baseOffset := state.sampleScores.length
  let scores := data.map (fun row => row.rmScores.sum)
  let infos := Dictionary.modify rewardKey (fun values => values.getD [] ++ scores.map Value.number) state.rewardExtraInfos
  { sampleUids := state.sampleUids ++ data.map Row.uid
    sampleInputs := state.sampleInputs ++ finalIndices.filterMap (fun i => allInputs[i]?)
    sampleOutputs := state.sampleOutputs ++ finalIndices.filterMap (fun i => allOutputs[i]?)
    sampleGts := state.sampleGts ++
      (if batch.hasRewardModel then data.map Row.groundTruth else List.replicate finalIndices.length none)
    sampleScores := state.sampleScores ++ scores
    sampleTurns := state.sampleTurns ++ data.map Row.numTurns
    dataSources := state.dataSources ++
      (if batch.hasDataSource then data.map Row.dataSource else List.replicate finalIndices.length "unknown")
    rewardExtraInfos := if batch.hasExtraFields then addExtraFields infos (data.map Row.extraField) else infos
    dumpAllInputs := state.dumpAllInputs ++ allInputs
    dumpAllOutputs := state.dumpAllOutputs ++ allOutputs
    dumpAllKeys := state.dumpAllKeys ++ batch.rows.map Prod.fst
    sessionToSampleIdx := Dictionary.merge (fun _ i => i) state.sessionToSampleIdx
      (sessions.zipIdx.map (fun session => (session.1.1, baseOffset + session.2))) }

def collect (tokenizer : Tokenizer) (batches : List (Batch K)) : State K := batches.foldl (collectBatch tokenizer) (start K)

/-! ### Dumping -/

omit [Field K] in
def item {α : Type} (values : List α) (i : Nat) : Except Failure α :=
  match values[i]? with
  | some value => .ok value
  | none => .error .indexError

def getKey {α β : Type} [DecidableEq α] (dict : List (α × β)) (key : α) : Except Failure β :=
  match Dictionary.get dict key with
  | some value => .ok value
  | none => .error .keyError

/-- What `_dump_generations` is called with. -/
structure Dump (K : Type) where
  inputs : List String
  outputs : List String
  gts : List (Option String)
  scores : List K
  keys : List Key
  rewardExtraInfos : ExtraInfos K

def sortKey (key : Key) : String ×ₗ (Nat ×ₗ Nat) := toLex (key.uid, toLex (key.sessionId, key.index))

def keyText (key : Key) : String := key.uid ++ "_" ++ toString key.sessionId ++ "_" ++ toString key.index

def uidKey : String := "uid"

def dump (state : State K) : Except Failure (Dump K) := do
  let rows := (state.dumpAllKeys.zip (state.dumpAllInputs.zip state.dumpAllOutputs)).mergeSort
    (fun row other => decide (sortKey row.1 ≤ sortKey other.1))
  let keys := rows.map Prod.fst
  let sessionFinalIndices ← keys.mapM (fun key => getKey state.sessionToSampleIdx (key.uid, key.sessionId))
  let gts ← sessionFinalIndices.mapM (item state.sampleGts)
  let scores ← sessionFinalIndices.mapM (item state.sampleScores)
  let infos ← state.rewardExtraInfos.mapM (fun info => do
    let values ← sessionFinalIndices.mapM (item info.2)
    return (info.1, values))
  return ⟨rows.map (fun row => row.2.1), rows.map (fun row => row.2.2), gts, scores, keys,
    Dictionary.modify uidKey (fun _ => keys.map (fun key => .text (keyText key))) infos⟩

/-- Without a directory nothing is dumped. -/
def maybeDump (validationDataDir : Bool) (state : State K) : Except Failure (Option (Dump K)) :=
  if validationDataDir then (dump state).map Option.some else .ok none

/-! ### Metrics -/

inductive Moment where
  | mean
  | std
  deriving DecidableEq, Repr

/-- The metrics with `@n` in their name. -/
inductive Metric where
  | mean (n : Nat)
  | std (n : Nat)
  | best (n : Nat) (moment : Moment)
  | worst (n : Nat) (moment : Moment)
  | maj (n : Nat) (moment : Moment)
  deriving DecidableEq, Repr

/-- `np.mean` -/
def npMean (values : List K) : K := values.sum / values.length

/-- `np.std` -/
def npStd (sqrt : K → K) (values : List K) : K := sqrt (npMean (values.map (fun value => (value - npMean values) ^ 2)))

omit [Field K] in
/-- Only numbers have a mean. -/
def asNumber : Value K → Except Failure K
  | .number value => .ok value
  | .none => .error .typeError
  | .text _ => .error .typeError

/-- The sizes behind `size` of the bootstrap samples. -/
def genNsFrom (nResps : Nat) (size : Nat) (positive : 0 < size) : List Nat :=
  if size < nResps then size :: genNsFrom nResps (size * 2) (by omega) else [nResps]
  termination_by nResps - size

def genNs (nResps : Nat) : List Nat := if nResps ≤ 1 then [] else genNsFrom nResps 2 Nat.zero_lt_two

variable (sqrt : K → K) (choice : Choice)

/-- The mean and the deviation of a statistic of the bootstrap samples. -/
def bootstrapMetric {α : Type} (data : List α) (subsetSize : Nat) (reduceFn : List α → Except Failure K) :
    Except Failure (K × K) := do
  let results ← (choice.indices data.length subsetSize).mapM (fun idxs => do
    let sample ← idxs.mapM (item data)
    reduceFn sample)
  return (npMean results, npStd sqrt results)

def orValueError {α : Type} : Option α → Except Failure α
  | some value => .ok value
  | none => .error .valueError

variable [LinearOrder K]

/-- The first value of the first of the most common votes. -/
def calcMajVal (data : List (Value K × K)) : Except Failure K :=
  orValueError (((Grouping.collect data).argmax (fun vote => vote.2.length)).bind (fun vote => vote.2.head?))

/-- The metrics of one size of the bootstrap samples. -/
def bootstrapMetrics (values : List K) (predVals : Option (List (Value K))) (n : Nat) : Except Failure (List (Metric × K)) := do
  let best ← bootstrapMetric sqrt choice values n (fun sample => orValueError sample.max?)
  let worst ← bootstrapMetric sqrt choice values n (fun sample => orValueError sample.min?)
  let metric := [(.best n .mean, best.1), (.best n .std, best.2), (.worst n .mean, worst.1), (.worst n .std, worst.2)]
  match predVals with
  | none => return metric
  | some predVals =>
    if predVals.length ≠ values.length then throw .valueError
    let maj ← bootstrapMetric sqrt choice (predVals.zip values) n calcMajVal
    return metric ++ [(.maj n .mean, maj.1), (.maj n .std, maj.2)]

/-- The metrics of a variable; empty or string values are skipped. -/
def varMetrics (varVals : List (Value K)) (predVals : Option (List (Value K))) : Except Failure (Option (List (Metric × K))) :=
  match varVals with
  | [] => .ok none
  | .text _ :: _ => .ok none
  | _ => do
    let values ← varVals.mapM asNumber
    let nResps := values.length
    let sizes ← (genNs nResps).mapM (bootstrapMetrics sqrt choice values predVals)
    let std := if nResps > 1 then [(.std nResps, npStd sqrt values)] else []
    return some ((.mean nResps, npMean values) :: std ++ sizes.flatten)

/-- What every data source and every `uid` have, in the order in which they come. -/
abbrev BySource (α : Type) := List (String × List (String × α))

/-- The samples of every data source and every `uid`. -/
def groupSamples {α : Type} (samples : List (String × (String × α))) : BySource (List α) :=
  (Grouping.collect samples).map (fun source => (source.1, Grouping.collect source.2))

def perUid {α β : Type} (f : α → Except Failure β) (groups : BySource α) : Except Failure (BySource β) :=
  groups.mapM (fun source => do
    let uids ← source.2.mapM (fun uid => do
      let result ← f uid.2
      return (uid.1, result))
    return (source.1, uids))

def predKey : String := "pred"

/-- The metrics of the variables of a `uid`. -/
def uidMetrics (var2vals : List (String × List (Value K))) : Except Failure (List (String × List (Metric × K))) := do
  let metrics ← var2vals.mapM (fun var => do
    let metric ← varMetrics sqrt choice var.2 (Dictionary.get var2vals predKey)
    return (var.1, metric))
  return metrics.filterMap (fun var => var.2.map (fun metric => (var.1, metric)))

omit [LinearOrder K] in
/-- The mean of every metric over the `uid`s of a data source. -/
def aggregate (metrics : BySource (List (String × List (Metric × K)))) :
    List (String × List (String × List (Metric × K))) :=
  let values := metrics.flatMap (fun source => source.2.flatMap (fun uid => uid.2.flatMap (fun var =>
    var.2.map (fun metric => (source.1, (var.1, metric))))))
  (Grouping.collect values).map (fun source =>
    (source.1, (Grouping.collect source.2).map (fun var =>
      (var.1, (Grouping.collect var.2).map (fun metric => (metric.1, npMean metric.2))))))

def processValidationMetrics (dataSources sampleUids : List String) (infosDict : ExtraInfos K) :
    Except Failure (List (String × List (String × List (Metric × K)))) := do
  let samples ← dataSources.zipIdx.mapM (fun entry => do
    let uid ← item sampleUids entry.2
    return (entry.1, (uid, entry.2)))
  let var2vals ← perUid (fun sampleIdxs => infosDict.mapM (fun info => do
    let values ← sampleIdxs.mapM (item info.2)
    return (info.1, values))) (groupSamples samples)
  let metrics ← perUid (uidMetrics sqrt choice) var2vals
  return aggregate metrics

/-- The lists of a validation, its dump and its metrics. -/
structure Outcome (K : Type) where
  state : State K
  dumped : Option (Dump K)
  metrics : List (String × List (String × List (Metric × K)))

def validate (tokenizer : Tokenizer) (validationDataDir : Bool) (batches : List (Batch K)) : Except Failure (Outcome K) := do
  let state := collect tokenizer batches
  let dumped ← maybeDump validationDataDir state
  let metrics ← processValidationMetrics sqrt choice state.dataSources state.sampleUids state.rewardExtraInfos
  return ⟨state, dumped, metrics⟩

end LLMFusion.Validation
