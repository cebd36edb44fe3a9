import LLMFusion.MergedValidation
import LLMFusion.Proofs.ValidationMetrics

/-! Merged results of two validations. A list of the merged result is joined with the samples by position, so that it is
complete exactly if every sample of both results has its key. -/

namespace LLMFusion.MergedValidation
open Validation Fallible List

variable {K : Type}

/-! ### Samples -/

section Samples
variable [Field K]

/-- What a batch has of a row, which is named by its place. -/
def sampleOf (batch : Batch K) (place : Row K × Nat) : Sample K :=
  { key := ⟨place.1.uid, 0, place.2⟩
    uid := place.1.uid
    score := place.1.rmScores.sum
    groundTruth := none
    dataSource := if batch.hasDataSource then place.1.dataSource else "unknown"
    info := batch.rewardExtraInfo.filterMap (fun column => column.2[place.2]?.map
      (fun value => (column.1, value))) }

def batchSamples (batch : Batch K) : List (Sample K) := batch.rows.zipIdx.map (sampleOf batch)

def samplesOf (batches : List (Batch K)) : List (Sample K) := batches.flatMap batchSamples

theorem batchSamples_length (batch : Batch K) : (batchSamples batch).length = batch.rows.length := by
  rw [batchSamples, length_map, length_zipIdx]

theorem batchSamples_filled (batch : Batch K) : batchSamples batch ≠ [] := by
  apply ne_nil_of_length_pos
  rw [batchSamples_length]
  exact length_pos_of_ne_nil batch.filled

theorem batchSamples_map {α : Type} (batch : Batch K) (f : Sample K → α) (g : Row K → α)
    (same : ∀ place ∈ batch.rows.zipIdx, f (sampleOf batch place) = g place.1) :
        (batchSamples batch).map f = batch.rows.map g := by
  have firsts := congrArg (map g) (zipIdx_map_fst 0 batch.rows)
  rw [map_map] at firsts
  rw [batchSamples, map_map, ← firsts]
  exact map_congr_left same

theorem batchSamples_dataSources (batch : Batch K) : (batchSamples batch).map Sample.dataSource = batch.dataSources := by
  rw [Batch.dataSources]
  cases has : batch.hasDataSource with
  | true => exact batchSamples_map batch _ Row.dataSource (fun place _ => by rw [sampleOf, has]; rfl)
  | false =>
    have unknown := batchSamples_map batch Sample.dataSource (fun _ => "unknown")
      (fun place _ => by rw [sampleOf, has]; rfl)
    rw [unknown, map_const']
    rfl

theorem batchSamples_uids (batch : Batch K) : (batchSamples batch).map Sample.uid = batch.rows.map Row.uid :=
  batchSamples_map batch _ _ (fun _ _ => rfl)

theorem batchSamples_scores (batch : Batch K) :
    (batchSamples batch).map Sample.score = batch.rows.map (fun row => row.rmScores.sum) :=
  batchSamples_map batch _ _ (fun _ _ => rfl)

theorem sampleOf_info (batch : Batch K) {place : Row K × Nat} (inside : place ∈ batch.rows.zipIdx) :
    (sampleOf batch place).info.map Prod.fst = batch.rewardExtraInfo.map Prod.fst ∧
      ∀ key, Dictionary.get (sampleOf batch place).info key =
        (Dictionary.get batch.rewardExtraInfo key).bind (fun values => values[place.2]?) := by
  have bound : place.2 < batch.rows.length := by
    have read := mk_mem_zipIdx_iff_getElem?.mp (show (place.1, place.2) ∈ batch.rows.zipIdx from inside)
    exact (List.getElem?_eq_some_iff.mp read).1
  have columns := batch.columns
  unfold sampleOf
  generalize batch.rewardExtraInfo = infos at columns
  induction infos with
  | nil => exact ⟨rfl, fun _ => rfl⟩
  | cons column rest ih =>
    obtain ⟨length, columns⟩ := forall_mem_cons.mp columns
    have read := List.getElem?_eq_getElem (length.symm ▸ bound)
    obtain ⟨keys, found⟩ := ih columns
    constructor
    · rw [filterMap_cons_some (b := (column.1, column.2[place.2])) (by rw [read]; rfl)]
      exact congrArg (column.1 :: ·) keys
    · intro key
      rw [filterMap_cons_some (b := (column.1, column.2[place.2]))
        (by rw [read]; rfl), Dictionary.get_cons,
        Dictionary.get_cons]
      split
      · exact read.symm
      · exact found key

theorem has_iff (batch : Batch K) {sample : Sample K} (member : sample ∈ batchSamples batch) (key : String) :
    Has key sample ↔ key ∈ batch.rewardExtraInfo.map Prod.fst := by
  obtain ⟨place, inside, rfl⟩ := mem_map.mp member
  rw [Has, (sampleOf_info batch inside).1]

theorem column_values (batch : Batch K) {key : String} (other : key ≠ rewardKey) {values : List (Value K)}
    (found : Dictionary.get batch.rewardExtraInfo key = some values) :
        values = (batchSamples batch).map (valueOf key) := by
  have length := batch.columns (key, values) (Dictionary.get_some_mem found)
  apply List.ext_getElem?
  intro i
  rw [batchSamples, List.map_map, List.getElem?_map, List.getElem?_zipIdx]
  cases read : batch.rows[i]? with
  | none =>
    rw [List.getElem?_eq_none_iff] at read
    exact List.getElem?_eq_none (length.trans_le read)
  | some row =>
    have inside : (row, i) ∈ batch.rows.zipIdx := List.mk_mem_zipIdx_iff_getElem?.mpr read
    have bound : i < values.length := length.symm ▸ (List.getElem?_eq_some_iff.mp read).1
    have value := (sampleOf_info batch inside).2 key
    rw [found, Option.bind_some, List.getElem?_eq_getElem bound] at value
    rw [List.getElem?_eq_getElem bound]
    simp only [Option.map_some, Nat.zero_add, Function.comp_apply, valueOf, if_neg other, value,
      Option.getD_some]

end Samples

/-! ### Collected lists -/

section Collected
variable [Field K]

theorem collect_append (batches : List (Batch K)) (batch : Batch K) :
    collect (batches ++ [batch]) = collectBatch (collect batches) batch := by
  rw [collect, collect, foldl_append, foldl_cons, foldl_nil]

theorem samplesOf_append (batches : List (Batch K)) (batch : Batch K) :
    samplesOf (batches ++ [batch]) = samplesOf batches ++ batchSamples batch := by
  rw [samplesOf, samplesOf, flatMap_append, flatMap_singleton]

structure Collected (batches : List (Batch K)) (state : State K) : Prop where
  sources : state.result.dataSources.flatten = (samplesOf batches).map Sample.dataSource
  uids : state.result.sampleUids = (samplesOf batches).map Sample.uid
  scores : state.sampleScores = (samplesOf batches).map Sample.score
  turns : ∀ turns ∈ state.result.sampleTurns, turns ≠ []
  none : state.result.dataSources = [] → batches = []
  distinct : (state.result.rewardExtraInfos.map Prod.fst).Nodup

theorem collected (batches : List (Batch K)) : Collected batches (collect batches) := by
  induction batches using reverseRecOn with
  | nil =>
    refine ⟨rfl, rfl, rfl, ?_, fun _ => rfl, nodup_nil⟩
    intro turns member
    cases member
  | append_singleton batches batch ih =>
    rw [collect_append]
    refine ⟨?_, ?_, ?_, ?_, ?_, Dictionary.merge_distinct (Dictionary.modify_distinct ih.distinct _ _) _⟩
    · simp only [collectBatch, flatten_append, ih.sources, samplesOf_append, map_append,
      flatten_singleton,
        batchSamples_dataSources]
    · simp only [collectBatch, ih.uids, samplesOf_append, map_append, batchSamples_uids]
    · simp only [collectBatch, ih.scores, samplesOf_append, map_append, batchSamples_scores]
    · intro turns member
      simp only [collectBatch, mem_append] at member
      cases member with
      | inl earlier => exact ih.turns turns earlier
      | inr here =>
        split at here
        · rw [mem_singleton.mp here]
          simpa using batch.filled
        · cases here
    · intro none
      exact absurd (append_eq_nil_iff.mp none).2 (cons_ne_nil _ _)

theorem collect_values (batches : List (Batch K)) (key : String) :
    (Dictionary.get (collect batches).result.rewardExtraInfos key).getD [] = batches.flatMap (fun batch =>
      (if key = rewardKey then (batchSamples batch).map (valueOf rewardKey) else []) ++
        (Dictionary.get batch.rewardExtraInfo key).getD []) := by
  induction batches using reverseRecOn with
  | nil => rfl
  | append_singleton batches batch ih =>
    have rewards : (batch.rows.map (fun row => row.rmScores.sum)).map Value.number =
        (batchSamples batch).map (valueOf rewardKey) := by
      rw [← batchSamples_scores, map_map]
      exact map_congr_left (fun _ _ => (if_pos rfl).symm)
    have found : Dictionary.get (collectBatch (collect batches) batch).result.rewardExtraInfos key = _ :=
      Dictionary.get_merge batch.distinct _ key
    rw [collect_append, flatMap_append, flatMap_singleton, ← ih, found, Dictionary.get_modify,
      rewards]
    by_cases reward : key = rewardKey
    · subst reward
      cases Dictionary.get batch.rewardExtraInfo rewardKey with
      | none => simp
      | some values => simp
    · cases Dictionary.get batch.rewardExtraInfo key with
      | none => simp [reward]
      | some values => simp [reward]

theorem collect_known (batches : List (Batch K)) (key : String) :
    key ∈ (collect batches).result.rewardExtraInfos.map Prod.fst ↔
      ∃ batch ∈ batches, key = rewardKey ∨ key ∈ batch.rewardExtraInfo.map Prod.fst := by
  induction batches using reverseRecOn with
  | nil => simp [collect, emptyResult]
  | append_singleton batches batch ih =>
    have found : Dictionary.get (collectBatch (collect batches) batch).result.rewardExtraInfos key = _ :=
      Dictionary.get_merge batch.distinct _ key
    have known : ∀ {α : Type} (infos : List (String × α)),
        key ∈ infos.map Prod.fst ↔ Dictionary.get infos key ≠ none :=
      fun infos => (not_iff_comm.mp Dictionary.get_none.symm).symm
    rw [known] at ih
    rw [known, collect_append, found, Dictionary.get_modify]
    simp only [mem_append, mem_singleton, or_and_right, exists_or, exists_eq_left]
    rw [← ih, known batch.rewardExtraInfo]
    by_cases reward : key = rewardKey
    · cases Dictionary.get batch.rewardExtraInfo key <;> simp [reward]
    · cases Dictionary.get batch.rewardExtraInfo key <;> simp [reward]

/-! ### Returned results -/

/-- The samples have the same keys. -/
def Shared (samples : List (Sample K)) : Prop :=
  ∀ sample ∈ samples, ∀ other ∈ samples, ∀ key, Has key other → Has key sample

def share (key : String) (batch : Batch K) : Nat :=
  (if key = rewardKey then batch.rows.length else 0) +
    (if key ∈ batch.rewardExtraInfo.map Prod.fst then batch.rows.length else 0)

theorem share_length (key : String) (batch : Batch K) :
    ((if key = rewardKey then (batchSamples batch).map (valueOf rewardKey) else []) ++
      (Dictionary.get batch.rewardExtraInfo key).getD []).length = share key batch := by
  have first : (if key = rewardKey then (batchSamples batch).map (valueOf rewardKey) else []).length =
      if key = rewardKey then batch.rows.length else 0 := by
    split
    · rw [length_map, batchSamples_length]
    · rfl
  have second : ((Dictionary.get batch.rewardExtraInfo key).getD []).length =
      if key ∈ batch.rewardExtraInfo.map Prod.fst then batch.rows.length else 0 := by
    cases found : Dictionary.get batch.rewardExtraInfo key with
    | none => exact (if_neg (Dictionary.get_none.mp found)).symm
    | some values =>
      have member := Dictionary.get_some_mem found
      rw [if_pos (mem_map_of_mem member)]
      exact batch.columns _ member
  rw [length_append, first, second, share]

theorem samplesOf_length (batches : List (Batch K)) :
    (samplesOf batches).length = (batches.map (fun batch => batch.rows.length)).sum := by
  rw [samplesOf, length_flatMap]
  simp only [batchSamples_length]

theorem validate_complete {batches : List (Batch K)} {result : Result K} (returned : validate batches = some result) :
    result = (collect batches).result ∧ ∀ key, (∃ batch ∈ batches, share key batch ≠ 0) →
      (batches.map (share key)).sum = (batches.map (fun batch => batch.rows.length)).sum := by
  have states := collected batches
  simp only [validate] at returned
  split at returned
  · next checked =>
    refine ⟨(Option.some.inj returned).symm, ?_⟩
    intro key known
    obtain ⟨batch, member, some⟩ := known
    have total := congrArg length (collect_values batches key)
    rw [length_flatMap] at total
    simp only [share_length] at total
    have positive : 0 < (batches.map (share key)).sum :=
      (Nat.pos_of_ne_zero some).trans_le (single_le_sum (fun _ _ => Nat.zero_le _) _
        (mem_map_of_mem member))
    cases found : Dictionary.get (collect batches).result.rewardExtraInfos key with
    | none =>
      rw [found] at total
      exact absurd total (Nat.ne_of_lt positive)
    | some values =>
      rw [found, Option.getD_some] at total
      have length := checked (key, values) (Dictionary.get_some_mem found)
      rw [states.scores, length_map, samplesOf_length, total] at length
      exact length.resolve_left (Nat.ne_of_gt positive)
  · cases returned

theorem validate_keys {batches : List (Batch K)} {result : Result K} (returned : validate batches = some result)
    (key : String) : ∀ batch ∈ batches, key ∈ batch.rewardExtraInfo.map Prod.fst →
      key ≠ rewardKey ∧ ∀ other ∈ batches, key ∈ other.rewardExtraInfo.map Prod.fst := by
  intro batch member has
  have rows := length_pos_of_ne_nil batch.filled
  have total := (validate_complete returned).2 key ⟨batch, member, by
    rw [share, if_pos has]
    omega⟩
  have different : key ≠ rewardKey := by
    intro reward
    have more := sum_lt_sum (fun batch => batch.rows.length) (share key)
      (fun other _ => by rw [share, if_pos reward]; omega) ⟨batch, member, by
        rw [share, if_pos reward, if_pos has]
        omega⟩
    exact absurd total (Nat.ne_of_gt more)
  refine ⟨different, fun other among => ?_⟩
  by_contra lacks
  have fewer := sum_lt_sum (share key) (fun batch => batch.rows.length)
    (fun other _ => by
      rw [share, if_neg different]
      split <;> omega) ⟨other, among, by
      rw [share, if_neg different, if_neg lacks]
      exact length_pos_of_ne_nil other.filled⟩
  exact absurd total (Nat.ne_of_lt fewer)

end Collected

/-! ### Merged lists -/

section Merged
variable [Field K]

/-- A result, or `None` in place of that of no batches. -/
inductive ResultOf : Option (Result K) → List (Batch K) → Prop
  | absent : ResultOf none []
  | validated {batches : List (Batch K)} {result : Result K} (returned : validate batches = some result) :
      ResultOf (some result) batches

structure Beside (batches : List (Batch K)) (result : Result K) : Prop where
  sources : result.dataSources.flatten = (samplesOf batches).map Sample.dataSource
  uids : result.sampleUids = (samplesOf batches).map Sample.uid
  turns : ∀ turns ∈ result.sampleTurns, turns ≠ []
  none : result.dataSources = [] → batches = []
  noTurns : batches = [] → result.sampleTurns = []
  known : ∀ key, key ∈ result.rewardExtraInfos.map Prod.fst ↔ ∃ sample ∈ samplesOf batches, key = rewardKey ∨
    Has key sample
  shared : Shared (samplesOf batches)
  noReward : ∀ sample ∈ samplesOf batches, ¬ Has rewardKey sample
  values : ∀ key ∈ result.rewardExtraInfos.map Prod.fst,
    (Dictionary.get result.rewardExtraInfos key).getD [] = (samplesOf batches).map (valueOf key)

theorem some_sample (batches : List (Batch K)) (key : String) :
    (∃ batch ∈ batches, key = rewardKey ∨ key ∈ batch.rewardExtraInfo.map Prod.fst) ↔
      ∃ sample ∈ samplesOf batches, key = rewardKey ∨ Has key sample := by
  constructor
  · rintro ⟨batch, member, known⟩
    obtain ⟨sample, inside⟩ := exists_mem_of_ne_nil _ (batchSamples_filled batch)
    exact ⟨sample, mem_flatMap.mpr ⟨batch, member, inside⟩, known.imp_right (has_iff batch inside key).mpr⟩
  · rintro ⟨sample, member, known⟩
    obtain ⟨batch, among, inside⟩ := mem_flatMap.mp member
    exact ⟨batch, among, known.imp_right (has_iff batch inside key).mp⟩

theorem validate_beside {batches : List (Batch K)} {result : Result K} (returned : validate batches = some result) :
    Beside batches result := by
  have states := collected batches
  have keys := validate_keys returned
  obtain ⟨rfl, _⟩ := validate_complete returned
  refine ⟨states.sources, states.uids, states.turns, states.none, ?_, ?_, ?_, ?_, ?_⟩
  · rintro rfl
    rfl
  · exact fun key => (collect_known batches key).trans (some_sample batches key)
  · intro sample member other among key has
    obtain ⟨batch, inBatches, inside⟩ := mem_flatMap.mp member
    obtain ⟨batch', inBatches', inside'⟩ := mem_flatMap.mp among
    apply (has_iff batch inside key).mpr
    exact (keys key batch' inBatches' ((has_iff batch' inside' key).mp has)).2 batch inBatches
  · intro sample member has
    obtain ⟨batch, inBatches, inside⟩ := mem_flatMap.mp member
    exact (keys rewardKey batch inBatches ((has_iff batch inside rewardKey).mp has)).1 rfl
  · intro key known
    obtain ⟨first, inFirst, has⟩ := (collect_known batches key).mp known
    rw [collect_values, samplesOf, map_flatMap]
    apply flatMap_congr
    intro batch member
    by_cases reward : key = rewardKey
    · have absent : Dictionary.get batch.rewardExtraInfo key = none := by
        apply Dictionary.get_none.mpr
        exact fun has => (keys key batch member has).1 reward
      rw [absent, if_pos reward, Option.getD_none, append_nil, reward]
    · have inside := (keys key first inFirst (has.resolve_left reward)).2 batch member
      rw [if_neg reward, nil_append]
      cases found : Dictionary.get batch.rewardExtraInfo key with
      | none => exact absurd inside (Dictionary.get_none.mp found)
      | some values => exact column_values batch reward found

theorem resultOf_beside {result : Option (Result K)} {batches : List (Batch K)} (is : ResultOf result batches) :
    Beside batches (result.getD (emptyResult K)) := by
  cases is with
  | validated returned => exact validate_beside returned
  | absent =>
    refine ⟨rfl, rfl, ?_, fun _ => rfl, fun _ => rfl, ?_, ?_, ?_, ?_⟩
    · intro turns member
      cases member
    · simp [emptyResult, samplesOf]
    · intro sample member
      cases member
    · intro sample member
      cases member
    · intro key member
      cases member

variable (order : SetOrder) {batchesA batchesB : List (Batch K)} {resultA resultB : Result K}

omit [Field K] in
theorem mergedInfos_keys : (mergedInfos order resultA resultB).map Prod.fst = allKeys order resultA resultB := by
  rw [mergedInfos, map_map]
  exact map_id' _

section
variable {batches : List (Batch K)} {result : Result K} (beside : Beside batches result) {key : String}
include batches result beside key

theorem side_values (all : ∀ sample ∈ samplesOf batches, key = rewardKey ∨ Has key sample) :
    (Dictionary.get result.rewardExtraInfos key).getD [] = (samplesOf batches).map (valueOf key) := by
  by_cases known : key ∈ result.rewardExtraInfos.map Prod.fst
  · exact beside.values key known
  · have empty : samplesOf batches = [] := by
      apply eq_nil_iff_forall_not_mem.mpr
      intro sample member
      exact known ((beside.known key).mpr ⟨sample, member, all sample member⟩)
    rw [Dictionary.get_none.mpr known, empty]
    rfl

theorem side_absent (other : key ≠ rewardKey) {sample : Sample K} (member : sample ∈ samplesOf batches)
      (lacks : ¬ Has key sample) : (Dictionary.get result.rewardExtraInfos key).getD [] = [] := by
  have unknown : key ∉ result.rewardExtraInfos.map Prod.fst := by
    intro known
    obtain ⟨having, among, has⟩ := (beside.known key).mp known
    exact lacks (beside.shared sample member having among key (has.resolve_left other))
  rw [Dictionary.get_none.mpr unknown]
  rfl

theorem side_present {sample : Sample K} (member : sample ∈ samplesOf batches) (has : Has key sample) :
    ((Dictionary.get result.rewardExtraInfos key).getD []).length = (samplesOf batches).length := by
  rw [beside.values key ((beside.known key).mpr ⟨sample, member, Or.inr has⟩), length_map]

end

variable (besideA : Beside batchesA resultA) (besideB : Beside batchesB resultB)
include besideA besideB

theorem merged_known (key : String) : key ∈ (mergedInfos order resultA resultB).map Prod.fst ↔
    ∃ sample ∈ samplesOf batchesA ++ samplesOf batchesB, key = rewardKey ∨ Has key sample := by
  rw [mergedInfos_keys, allKeys, order.members, mem_append, besideA.known, besideB.known]
  simp only [mem_append, or_and_right, exists_or]

theorem merged_aligned (shared : Shared (samplesOf batchesA ++ samplesOf batchesB)) :
    Aligned (samplesOf batchesA ++ samplesOf batchesB) (mergedInfos order resultA resultB) := by
  constructor
  · intro key values found
    have member := Dictionary.get_some_mem found
    obtain ⟨_, _, same⟩ := mem_map.mp member
    cases same
    obtain ⟨sample, among, has⟩ := (merged_known order besideA besideB key).mp (mem_map_of_mem member)
    have all : ∀ other ∈ samplesOf batchesA ++ samplesOf batchesB, key = rewardKey ∨ Has key other :=
      fun other inside => has.imp_right (fun has => shared other inside sample among key has)
    rw [map_append, side_values besideA (fun other inside => all other (mem_append_left _ inside)),
      side_values besideB (fun other inside => all other (mem_append_right _ inside))]
  · intro sample member key has
    exact (merged_known order besideA besideB key).mpr ⟨sample, member, Or.inr has⟩

theorem merged_short (different : ¬ Shared (samplesOf batchesA ++ samplesOf batchesB)) :
    ∃ info ∈ mergedInfos order resultA resultB, info.2.length < (samplesOf batchesA ++ samplesOf batchesB).length := by
  simp only [Shared, not_forall] at different
  obtain ⟨sample, member, having, among, key, has, lacks⟩ := different
  have listed := (merged_known order besideA besideB key).mpr ⟨having, among, Or.inr has⟩
  refine ⟨(key, _), mem_map.mpr ⟨key, mergedInfos_keys order ▸ listed, rfl⟩, ?_⟩
  have other : key ≠ rewardKey := by
    rintro rfl
    cases mem_append.mp among with
    | inl inA => exact besideA.noReward having inA has
    | inr inB => exact besideB.noReward having inB has
  rw [length_append, length_append]
  cases mem_append.mp member with
  | inl inA =>
    have filled := length_pos_of_mem inA
    cases mem_append.mp among with
    | inl hasA => exact absurd (besideA.shared sample inA having hasA key has) lacks
    | inr hasB =>
      rw [side_absent besideA other inA lacks, side_present besideB hasB has, length_nil]
      omega
  | inr inB =>
    have filled := length_pos_of_mem inB
    cases mem_append.mp among with
    | inl hasA =>
      rw [side_absent besideB other inB lacks, side_present besideA hasA has, length_nil]
      omega
    | inr hasB => exact absurd (besideB.shared sample inB having hasB key has) lacks

end Merged

/-! ### Metrics -/

section Metrics

theorem exists_groupSamples {α : Type} {samples : List (String × (String × α))} {entry : String × (String × α)}
    (member : entry ∈ samples) : ∃ source ∈ groupSamples samples, ∃ uid ∈ source.2, entry.2.2 ∈ uid.2 := by
  obtain ⟨group, grouped, named⟩ := Grouping.exists_group (mem_map_of_mem member)
  have own : entry.2 ∈ group.2 := by
    rw [Grouping.collect_members grouped, named]
    exact Grouping.mem_members.mpr member
  obtain ⟨uid, inUid, ofUid⟩ := Grouping.exists_group (mem_map_of_mem own)
  refine ⟨(group.1, Grouping.collect group.2), mem_map_of_mem grouped, uid, inUid, ?_⟩
  rw [Grouping.collect_members inUid, ofUid]
  exact Grouping.mem_members.mpr own

variable [Field K] [LinearOrder K] (sqrt : K → K) (choice : Choice)

variable {metrics : List (String × List (String × List (Metric × K)))}

theorem process_lengths {dataSources sampleUids : List String} {infos : ExtraInfos K}
    (returned : processValidationMetrics sqrt choice dataSources sampleUids infos = .ok metrics) :
    ∀ info ∈ infos, dataSources.length ≤ info.2.length := by
  intro info member
  obtain ⟨samples, labelled, returned⟩ := bind_eq_ok.mp returned
  obtain ⟨var2vals, read, _⟩ := bind_eq_ok.mp returned
  have reads := perUid_ok_iff.mp ⟨var2vals, read⟩
  by_contra short
  have inside : info.2.length < dataSources.length := Nat.lt_of_not_le short
  have place : (dataSources[info.2.length], info.2.length) ∈ dataSources.zipIdx :=
    mk_mem_zipIdx_iff_getElem?.mpr (List.getElem?_eq_getElem inside)
  obtain ⟨sample, among, labels⟩ := forall₂_left (mapM_succeeded labelled) place
  obtain ⟨uid, _, same⟩ := bind_eq_ok.mp labels
  cases same
  obtain ⟨source, inSource, uid, inUid, has⟩ := exists_groupSamples among
  obtain ⟨values, listed⟩ := reads source inSource uid inUid
  obtain ⟨_, _, value⟩ := forall₂_left (mapM_succeeded listed) member
  obtain ⟨column, items, _⟩ := bind_eq_ok.mp value
  obtain ⟨_, _, found⟩ := forall₂_left (mapM_succeeded items) has
  rw [item, List.getElem?_eq_none (Nat.le_refl _)] at found
  cases found

omit [LinearOrder K] in
theorem aggregate_filled {metrics : BySource (List (String × List (Metric × K)))}
    {source : String × List (String × List (Metric × K))} (inSource : source ∈ aggregate metrics)
    {var : String × List (Metric × K)} (inVar : var ∈ source.2) : var.2 ≠ [] := by
  obtain ⟨group, _, rfl⟩ := mem_map.mp inSource
  obtain ⟨values, grouped, rfl⟩ := mem_map.mp inVar
  obtain ⟨value, member⟩ := exists_mem_of_ne_nil _ (Grouping.collect_nonempty group.2 values grouped)
  obtain ⟨metric, inside, _⟩ := Grouping.exists_group (mem_map_of_mem member)
  exact ne_nil_of_mem (mem_map_of_mem inside)

omit [LinearOrder K] in
theorem metricDict_ok {metrics : BySource (List (String × List (Metric × K)))} {sampleTurns : List (List Nat)}
    (filled : ∀ turns ∈ sampleTurns, turns ≠ []) : ∃ dict, metricDict (aggregate metrics) sampleTurns = .ok dict := by
  have sources : ∃ entries, (aggregate metrics).mapM sourceEntries = .ok entries := by
    apply mapM_ok_iff.mpr
    intro source inSource
    have vars : ∃ entries, source.2.mapM (varEntries source.1
      (if accKey ∈ source.2.map Prod.fst then accKey else rewardKey)) =
        .ok entries := by
      apply mapM_ok_iff.mpr
      intro var inVar
      have named := aggregate_filled inSource inVar
      have largest : (var.2.map (fun metric => size metric.1)).max? ≠ none :=
        fun none => named (map_eq_nil_iff.mp (max?_eq_none_iff.mp none))
      obtain ⟨nMax, most⟩ := orValueError_ok largest
      rw [varEntries, most]
      exact ⟨_, rfl⟩
    obtain ⟨entries, each⟩ := vars
    refine ⟨entries.flatten, ?_⟩
    simp only [sourceEntries, each, ok_bind]
    rfl
  have turns : ∃ entries, turnEntries (K := K) sampleTurns = .ok entries := by
    rw [turnEntries]
    split
    · next some =>
      have counted : sampleTurns.flatten ≠ [] := by
        obtain ⟨turns, member⟩ := exists_mem_of_length_pos some
        obtain ⟨count, inside⟩ := exists_mem_of_ne_nil turns (filled turns member)
        exact ne_nil_of_mem (mem_flatten_of_mem member inside)
      have least : sampleTurns.flatten.min? ≠ none := fun none => counted (min?_eq_none_iff.mp none)
      have most : sampleTurns.flatten.max? ≠ none := fun none => counted (max?_eq_none_iff.mp none)
      obtain ⟨low, isLow⟩ := orValueError_ok least
      obtain ⟨high, isHigh⟩ := orValueError_ok most
      simp only [isLow, isHigh, ok_bind]
      exact ⟨_, rfl⟩
    · exact ⟨[], rfl⟩
  obtain ⟨entries, ofSources⟩ := sources
  obtain ⟨others, ofTurns⟩ := turns
  rw [metricDict, ofSources, ok_bind, ofTurns]
  exact ⟨_, rfl⟩

theorem process_averaged {samples : List (Sample K)} {infos : ExtraInfos K} (distinct : (infos.map Prod.fst).Nodup)
    (aligned : Aligned samples infos) (returned : processValidationMetrics sqrt choice (samples.map Sample.dataSource)
      (samples.map Sample.uid) infos = .ok metrics) :
    ∀ source ∈ groupsOf samples, ∀ uid ∈ source.2, ∀ key ∈ infos.map Prod.fst, Averaged (uid.2.map (valueOf key)) := by
  rw [process_samples sqrt choice distinct aligned] at returned
  obtain ⟨values, each, _⟩ := bind_eq_ok.mp returned
  intro source inSource uid inUid
  exact (uidMetrics_ok_iff sqrt choice uid.2).mp (perUid_ok_iff.mp ⟨values, each⟩ source inSource uid inUid)

theorem process_aggregate {dataSources sampleUids : List String} {infos : ExtraInfos K}
    (returned : processValidationMetrics sqrt choice dataSources sampleUids infos = .ok metrics) :
    ∃ values, metrics = aggregate values := by
  obtain ⟨_, _, returned⟩ := bind_eq_ok.mp returned
  obtain ⟨_, _, returned⟩ := bind_eq_ok.mp returned
  obtain ⟨values, _, returned⟩ := bind_eq_ok.mp returned
  exact ⟨values, (Except.ok.inj returned).symm⟩

omit [Field K] [LinearOrder K] in
theorem averaged_iff {samples : List (Sample K)} {keys : List String}
    (known : ∀ key, key ∈ keys ↔ ∃ sample ∈ samples, key = rewardKey ∨ Has key sample) :
    (∀ source ∈ groupsOf samples, ∀ uid ∈ source.2, ∀ key ∈ keys, Averaged (uid.2.map (valueOf key))) ↔
        Uniform samples := by
  constructor
  · intro averaged sample member key has
    obtain ⟨other, among, has⟩ := has
    obtain ⟨source, inSource, uid, inUid, ofSource, ofUid⟩ := exists_groupsOf member
    have group := averaged source inSource uid inUid key ((known key).mpr ⟨other, among, Or.inr has⟩)
    rw [(mem_groupsOf inSource inUid).2] at group
    simpa only [ofSource, ofUid] using group
  · intro uniform source inSource uid inUid key isKey
    obtain ⟨filled, members⟩ := mem_groupsOf inSource inUid
    by_cases reward : key = rewardKey
    · right
      intro value member
      obtain ⟨sample, _, rfl⟩ := mem_map.mp member
      exact ⟨sample.score, if_pos reward⟩
    · obtain ⟨other, among, has⟩ := (known key).mp isKey
      obtain ⟨sample, member⟩ := exists_mem_of_ne_nil _ filled
      have inGroup := member
      rw [members, mem_filter, decide_eq_true_iff] at inGroup
      obtain ⟨inSamples, ofSource, ofUid⟩ := inGroup
      have group := uniform sample inSamples key ⟨other, among, has.resolve_left reward⟩
      rw [members]
      simpa only [ofSource, ofUid] using group

/-! ### Merging -/

def updated (order : SetOrder) (resultA resultB : Result K) : Except Failure (List (String × K)) :=
  valMetricsUpdate sqrt choice (resultA.dataSources ++ resultB.dataSources).flatten
    (resultA.sampleUids ++ resultB.sampleUids) (mergedInfos order resultA resultB)
      (resultA.sampleTurns ++ resultB.sampleTurns)

/-- The metrics are those of the samples of both results, each from the samples that have its key, under the names of a
single run. -/
def Merges (order : SetOrder) (resultA resultB : Option (Result K)) (batchesA batchesB : List (Batch K)) :
    Prop :=
  ∃ metrics dict,
    metricsOf sqrt choice (allKeys order (resultA.getD (emptyResult K)) (resultB.getD (emptyResult K)))
      (samplesOf batchesA ++ samplesOf batchesB) = .ok metrics ∧
    metricDict metrics ((resultA.getD (emptyResult K)).sampleTurns ++
      (resultB.getD (emptyResult K)).sampleTurns) = .ok dict ∧
    mergeValidationResults sqrt choice order resultA resultB = .ok dict

theorem mergeValidationResults_steps (order : SetOrder) (resultA resultB : Option (Result K)) :
    mergeValidationResults sqrt choice order resultA resultB =
      if (resultA.getD (emptyResult K)).dataSources = [] ∧
        (resultB.getD (emptyResult K)).dataSources = [] then .ok []
      else updated sqrt choice order (resultA.getD (emptyResult K)) (resultB.getD (emptyResult K)) := by
  unfold mergeValidationResults
  split
  · next none =>
    have noA := Option.isNone_iff_eq_none.mp none.1
    have noB := Option.isNone_iff_eq_none.mp none.2
    subst noA noB
    exact (if_pos ⟨rfl, rfl⟩).symm
  · rfl

theorem merged_iff (order : SetOrder) {a b : Result K} {batchesA batchesB : List (Batch K)}
    (besideA : Beside batchesA a) (besideB : Beside batchesB b) :
    (∃ metrics dict, metricsOf sqrt choice (allKeys order a b) (samplesOf batchesA ++ samplesOf batchesB) = .ok metrics ∧
        metricDict metrics (a.sampleTurns ++ b.sampleTurns) = .ok dict ∧ updated sqrt choice order a b = .ok dict) ↔
      Shared (samplesOf batchesA ++ samplesOf batchesB) ∧ Uniform (samplesOf batchesA ++ samplesOf batchesB) := by
  have known := merged_known order besideA besideB
  have distinct : ((mergedInfos order a b).map Prod.fst).Nodup := mergedInfos_keys order ▸ order.distinct _
  have turns : ∀ turns ∈ a.sampleTurns ++ b.sampleTurns, turns ≠ [] := by
    intro turns member
    exact (mem_append.mp member).elim (besideA.turns turns) (besideB.turns turns)
  have sources : (a.dataSources ++ b.dataSources).flatten =
      (samplesOf batchesA ++ samplesOf batchesB).map Sample.dataSource := by
    rw [flatten_append, besideA.sources, besideB.sources, map_append]
  have uids : a.sampleUids ++ b.sampleUids = (samplesOf batchesA ++ samplesOf batchesB).map Sample.uid := by
    rw [besideA.uids, besideB.uids, map_append]
  unfold updated valMetricsUpdate
  rw [sources, uids]
  constructor
  · rintro ⟨_, dict, _, _, returned⟩
    obtain ⟨metrics, computed, _⟩ := bind_eq_ok.mp returned
    have shared : Shared (samplesOf batchesA ++ samplesOf batchesB) := by
      by_contra different
      obtain ⟨info, member, short⟩ := merged_short order besideA besideB different
      have long := process_lengths sqrt choice computed info member
      rw [length_map] at long
      omega
    have aligned := merged_aligned order besideA besideB shared
    exact ⟨shared, (averaged_iff known).mp (process_averaged sqrt choice distinct aligned computed)⟩
  · rintro ⟨shared, uniform⟩
    have aligned := merged_aligned order besideA besideB shared
    obtain ⟨metrics, computed, expected⟩ :=
      (metrics_iff sqrt choice distinct aligned).mpr ((averaged_iff known).mpr uniform)
    obtain ⟨values, rfl⟩ := process_aggregate sqrt choice computed
    have names : ∃ dict, metricDict (aggregate values) (a.sampleTurns ++ b.sampleTurns) = .ok dict :=
      metricDict_ok turns
    obtain ⟨dict, named⟩ := names
    refine ⟨_, dict, mergedInfos_keys order ▸ expected, named, ?_⟩
    rw [computed]
    exact named

/-- Merging is right exactly if the samples of both results have the same keys, and their values can be averaged. -/
theorem mergeValidationResults_iff (order : SetOrder) {resultA resultB : Option (Result K)}
    {batchesA batchesB : List (Batch K)}
    (isA : ResultOf resultA batchesA) (isB : ResultOf resultB batchesB) :
    Merges sqrt choice order resultA resultB batchesA batchesB ↔
      Shared (samplesOf batchesA ++ samplesOf batchesB) ∧
          Uniform (samplesOf batchesA ++ samplesOf batchesB) := by
  have besideA := resultOf_beside isA
  have besideB := resultOf_beside isB
  unfold Merges
  rw [mergeValidationResults_steps]
  generalize resultA.getD (emptyResult K) = a at besideA ⊢
  generalize resultB.getD (emptyResult K) = b at besideB ⊢
  by_cases empty : a.dataSources = [] ∧ b.dataSources = []
  · cases besideA.none empty.1
    cases besideB.none empty.2
    refine iff_of_true ⟨[], [], rfl, ?_, if_pos empty⟩ ⟨?_, ?_⟩
    · rw [besideA.noTurns rfl, besideB.noTurns rfl]
      rfl
    · intro sample member
      cases member
    · intro sample member
      cases member
  · rw [if_neg empty]
    exact merged_iff sqrt choice order besideA besideB


end Metrics

def scored : Batch Rat :=
  { rows := [⟨"a", [1], 2, "math"⟩]
    filled := List.cons_ne_nil _ _
    rewardExtraInfo := [("acc", [.number 1])]
    distinct := List.nodup_singleton _
    columns := List.forall_mem_singleton.mpr rfl
    hasNumTurns := true
    hasDataSource := true }

/-- The reward function of these outputs says nothing but the score. -/
def plain : Batch Rat :=
  { rows := [⟨"b", [0], 2, "math"⟩]
    filled := List.cons_ne_nil _ _
    rewardExtraInfo := []
    distinct := List.nodup_nil
    columns := List.forall_mem_nil _
    hasNumTurns := true
    hasDataSource := true }

def sets : SetOrder := ⟨List.dedup, List.nodup_dedup, fun _ _ => List.mem_dedup⟩

theorem scored_result : ResultOf (some (collect [scored]).result) [scored] := .validated rfl

theorem plain_result : ResultOf (some (collect [plain]).result) [plain] := .validated rfl

theorem merges_scored :
    Merges id firstOnly sets (some (collect [scored]).result) (some (collect [scored]).result) [scored]
        [scored] := by
  have keys : ∀ sample ∈ samplesOf [scored] ++ samplesOf [scored], sample.info = [("acc", .number 1)] :=
    by decide
  apply (mergeValidationResults_iff id firstOnly sets scored_result scored_result).mpr
  constructor
  · intro sample member other among key has
    rw [Has, keys sample member]
    rwa [Has, keys other among] at has
  · intro sample _ key known
    obtain ⟨other, among, has⟩ := known
    rw [Has, keys other among, List.map_cons, List.map_nil, List.mem_singleton] at has
    right
    intro value member
    obtain ⟨sample, inside, rfl⟩ := List.mem_map.mp member
    refine ⟨1, ?_⟩
    rw [valueOf, has, keys sample (List.mem_of_mem_filter inside)]
    rfl

theorem not_merges : ¬ ∀ resultA resultB, ResultOf resultA [scored] → ResultOf resultB [plain] →
    Merges id firstOnly sets resultA resultB [scored] [plain] := by
  intro merges
  obtain ⟨_, _, _, _, returned⟩ := merges _ _ scored_result plain_result
  have raised : mergeValidationResults id firstOnly sets (some (collect [scored]).result)
    (some (collect [plain]).result) =
      .error .indexError := by
    rfl
  rw [raised] at returned
  cases returned

end LLMFusion.MergedValidation
