import LLMFusion.Proofs.FinalSessions
import LLMFusion.Validation

/-! The lists of extra infos that a validation collects. A list is aligned with the samples unless a reward function has a
key `reward` of its own, or outputs without extra fields come after its first entry. -/

namespace LLMFusion.Validation
open SyncTrainer List
open PaddingUtils (Key)

variable {α : Type}

/-! ### Final outputs in order -/

theorem range_rows (rows : List α) : (range rows.length).filterMap (fun i => rows[i]?) = rows := by
  induction rows with
  | nil => rfl
  | cons row rows ih =>
    rw [length_cons, range_succ_eq_map, filterMap_cons_some (List.getElem?_cons_zero), filterMap_map]
    exact congrArg (row :: ·) ih

theorem picked_places {rows : List α} {places : List Nat} (ascending : places.Pairwise (· < ·)) {keep : α → Bool}
    (picked : ∀ i, i ∈ places ↔ ∃ row, rows[i]? = some row ∧ keep row = true) :
    places.filterMap (fun i => rows[i]?) = rows.filter keep := by
  have kept : places = (range rows.length).filter (fun i => (rows[i]?).any keep) := by
    apply List.Pairwise.eq_of_mem_iff ascending (pairwise_lt_range.filter _)
    intro i
    rw [picked, mem_filter, mem_range, Option.any_eq_true]
    constructor
    · rintro ⟨row, read, holds⟩
      exact ⟨(List.getElem?_eq_some_iff.mp read).1, row, read, holds⟩
    · rintro ⟨_, row, read, holds⟩
      exact ⟨row, read, holds⟩
  have whole := congrArg (filter keep) (range_rows rows)
  rw [← whole, kept, filterMap_filter, filter_filterMap]
  apply filterMap_congr
  intro i _
  cases rows[i]? with
  | none => rfl
  | some row => cases test : keep row <;> simp [Option.filter, test]

theorem positions_distinct (rows : List (Key × α)) :
    ((finalSessions (rows.map Prod.fst)).map (fun session => session.2.2)).Nodup := by
  have apart := finalSessions_distinct (rows.map Prod.fst)
  apply List.Nodup.map_on _ (List.Nodup.of_map _ apart)
  intro session member other among same
  obtain ⟨row, _, read, ofSession⟩ := finalSessions_row rows session member
  obtain ⟨row', _, read', ofSession'⟩ := finalSessions_row rows other among
  rw [same, read'] at read
  cases read
  exact inj_on_of_nodup_map apart member among (ofSession.symm.trans ofSession')

variable {rows : List (Key × α)} (distinct : (rows.map Prod.fst).Nodup)
include distinct

theorem mem_positions (i : Nat) :
    i ∈ (finalSessions (rows.map Prod.fst)).map (fun session => session.2.2) ↔ ∃ row, rows[i]? = some row ∧ row ∈ finals rows := by
  constructor
  · intro member
    obtain ⟨session, among, rfl⟩ := List.mem_map.mp member
    obtain ⟨row, final, read, _⟩ := finalSessions_row rows session among
    exact ⟨row, read, final⟩
  · rintro ⟨row, read, final⟩
    have named : sessionOf row.1 ∈ (finalSessions (rows.map Prod.fst)).map Prod.fst := by
      rw [finalSessions_sessions, List.map_map]
      exact List.mem_map.mpr ⟨row, (mem_finals.mp final).1, rfl⟩
    obtain ⟨session, among, same⟩ := List.mem_map.mp named
    obtain ⟨other, isFinal, found, ofSession⟩ := finalSessions_row rows session among
    have here : other = row := finals_unique distinct final isFinal (ofSession.trans same)
    refine List.mem_map.mpr ⟨session, among, ?_⟩
    have inside := (List.getElem?_eq_some_iff.mp read).1
    exact ((List.getElem?_inj inside (List.Nodup.of_map _ distinct)).mp (read.trans (here ▸ found).symm)).symm

theorem sortedSessions_rows :
    ((sortedSessions (rows.map Prod.fst)).map (fun session => session.2.2)).filterMap (fun i => rows[i]?) = finals rows := by
  have same := mergeSort_perm (finalSessions (rows.map Prod.fst)) (fun session other => decide (session.2.2 ≤ other.2.2))
  have placed := same.map (fun session => session.2.2)
  have sorted : (sortedSessions (rows.map Prod.fst)).Pairwise (fun session other => decide (session.2.2 ≤ other.2.2) = true) := by
    apply pairwise_mergeSort
    · intro session other third below above
      simp only [decide_eq_true_eq] at below above ⊢
      exact below.trans above
    · intro session other
      simp only [Bool.or_eq_true, decide_eq_true_eq]
      exact le_total _ _
  have apart : ((sortedSessions (rows.map Prod.fst)).map (fun session => session.2.2)).Nodup :=
    placed.nodup_iff.mpr (positions_distinct rows)
  apply picked_places
  · have weak : ((sortedSessions (rows.map Prod.fst)).map (fun session => session.2.2)).Pairwise (· ≤ ·) := by
      apply pairwise_map.mpr
      exact sorted.imp (fun below => of_decide_eq_true below)
    exact (weak.and apart).imp (fun bounds => lt_of_le_of_ne bounds.1 bounds.2)
  · intro i
    rw [show (i ∈ (sortedSessions (rows.map Prod.fst)).map (fun session => session.2.2)) ↔ _ from placed.mem_iff,
      mem_positions distinct]
    refine exists_congr (fun row => and_congr_right (fun read => ?_))
    rw [mem_finals, decide_eq_true_iff]
    exact and_iff_right (mem_of_getElem? read)

omit distinct

theorem finals_eq_nil : finals rows = [] ↔ rows = [] := by
  constructor
  · intro none
    by_contra filled
    obtain ⟨row, member⟩ := exists_mem_of_ne_nil rows filled
    have named : sessionOf row.1 ∈ (finalSessions (rows.map Prod.fst)).map Prod.fst := by
      rw [finalSessions_sessions, map_map]
      exact mem_map.mpr ⟨row, member, rfl⟩
    obtain ⟨session, among, _⟩ := mem_map.mp named
    obtain ⟨final, isFinal, _⟩ := finalSessions_row rows session among
    rw [none] at isFinal
    cases isFinal
  · rintro rfl
    rfl

/-! ### Extra infos -/

variable {K : Type}

/-- What a validation has of a final output. -/
structure Sample (K : Type) where
  key : Key
  uid : String
  score : K
  groundTruth : Option String
  dataSource : String
  info : List (String × Value K)

/-- What a sample has of a key, or `None`. -/
def valueOf (key : String) (sample : Sample K) : Value K :=
  if key = rewardKey then .number sample.score else (Dictionary.get sample.info key).getD .none

def Has (key : String) (sample : Sample K) : Prop := key ∈ sample.info.map Prod.fst

instance (key : String) (sample : Sample K) : Decidable (Has key sample) :=
  inferInstanceAs (Decidable (key ∈ sample.info.map Prod.fst))

theorem rewardExtraInfo_distinct (extraField : ExtraField K) : (extraField.rewardExtraInfo.map Prod.fst).Nodup := by
  cases extraField with
  | other => exact nodup_nil
  | dict info =>
    cases info with
    | none => exact nodup_nil
    | some info => exact info.distinct

/-- The lists of the keys other than `reward` are aligned with the samples. -/
def Filled (before : List (Sample K)) (infos : ExtraInfos K) : Prop :=
  ∀ key, key ≠ rewardKey →
    Dictionary.get infos key = if (∃ sample ∈ before, Has key sample) then some (before.map (valueOf key)) else none

theorem get_padAbsent (info : List (String × Value K)) (infos : ExtraInfos K) (key : String) :
    Dictionary.get (padAbsent info infos) key = (Dictionary.get infos key).map (fun values =>
      if key ≠ rewardKey ∧ key ∉ info.map Prod.fst then values ++ [.none] else values) := by
  induction infos with
  | nil => rfl
  | cons entry rest ih =>
    rw [padAbsent, map_cons, ← padAbsent, Dictionary.get_cons, Dictionary.get_cons, ih]
    by_cases padded : entry.1 ≠ rewardKey ∧ entry.1 ∉ info.map Prod.fst
    · rw [if_pos padded]
      split
      · next same => rw [Option.map_some, ← same, if_pos padded]
      · rfl
    · rw [if_neg padded]
      split
      · next same => rw [Option.map_some, ← same, if_neg padded]
      · rfl

theorem get_addExtraField (state : ExtraInfos K × Nat) (extraField : ExtraField K) (key : String) :
    Dictionary.get (addExtraField state extraField).1 key =
      (Dictionary.get extraField.rewardExtraInfo key).elim
        ((Dictionary.get state.1 key).map (fun values => if key ≠ rewardKey then values ++ [.none] else values))
        (fun value => some ((Dictionary.get state.1 key).getD (replicate state.2 .none) ++ [value])) := by
  rw [addExtraField, Dictionary.get_merge (rewardExtraInfo_distinct extraField), get_padAbsent]
  cases found : Dictionary.get extraField.rewardExtraInfo key with
  | none =>
    have absent := Dictionary.get_none.mp found
    simp only [Option.elim_none, absent, not_false_eq_true, and_true]
  | some value =>
    have present : key ∈ extraField.rewardExtraInfo.map Prod.fst := by
      by_contra absent
      rw [Dictionary.get_none.mpr absent] at found
      cases found
    simp only [Option.elim_some, present, not_true_eq_false, and_false, if_false, Option.map_id']

variable {before : List (Sample K)}

theorem valueOf_absent {key : String} (other : key ≠ rewardKey)
    (absent : ¬ ∃ sample ∈ before, Has key sample) : before.map (valueOf key) = replicate before.length .none := by
  apply eq_replicate_iff.mpr
  refine ⟨length_map _, ?_⟩
  intro value member
  obtain ⟨sample, inside, rfl⟩ := mem_map.mp member
  have missing : Dictionary.get sample.info key = none := Dictionary.get_none.mpr (fun has => absent ⟨sample, inside, has⟩)
  rw [valueOf, if_neg other, missing]
  rfl

variable {infos : ExtraInfos K}

theorem addExtraField_filled (filled : Filled before infos)
    (sample : Sample K) (extraField : ExtraField K) (same : sample.info = extraField.rewardExtraInfo) :
    Filled (before ++ [sample]) (addExtraField (infos, before.length) extraField).1 := by
  intro key other
  have known : (∃ other ∈ before ++ [sample], Has key other) ↔ (∃ other ∈ before, Has key other) ∨ Has key sample := by
    simp only [mem_append, mem_singleton, or_and_right, exists_or, exists_eq_left]
  rw [get_addExtraField, filled key other, ← same]
  simp only [known]
  cases found : Dictionary.get sample.info key with
  | some value =>
    have has : Has key sample := by
      by_contra absent
      rw [Dictionary.get_none.mpr absent] at found
      cases found
    have here : valueOf key sample = value := by rw [valueOf, if_neg other, found]; rfl
    rw [if_pos (Or.inr has), map_append, map_singleton, here]
    by_cases before' : ∃ other ∈ before, Has key other
    · rw [if_pos before']
      rfl
    · rw [if_neg before', valueOf_absent other before']
      rfl
  | none =>
    have absent : ¬ Has key sample := Dictionary.get_none.mp found
    have here : valueOf key sample = .none := by rw [valueOf, if_neg other, found]; rfl
    simp only [absent, or_false, Option.elim_none, if_pos other, map_append, map_singleton, here]
    split <;> rfl

theorem addExtraFields_filled {extraFields : List (ExtraField K)} {later before : List (Sample K)}
    (filled : Filled before infos) (same : later.map Sample.info = extraFields.map ExtraField.rewardExtraInfo) :
    Filled (before ++ later) (extraFields.foldl addExtraField (infos, before.length)).1 := by
  induction extraFields generalizing later before infos with
  | nil =>
    rw [map_eq_nil_iff.mp same, append_nil]
    exact filled
  | cons extraField extraFields ih =>
    cases later with
    | nil => cases same
    | cons sample later =>
      obtain ⟨first, rest⟩ := cons.inj same
      have step := addExtraField_filled filled sample extraField first
      have next := ih step rest
      rw [append_assoc, singleton_append, length_append, length_singleton] at next
      exact next

variable {values : List (Value K)}

theorem addExtraField_reward (present : Dictionary.get infos rewardKey = some values)
    (nPrior : Nat) (extraField : ExtraField K) : Dictionary.get (addExtraField (infos, nPrior) extraField).1 rewardKey =
      some (values ++ (Dictionary.get extraField.rewardExtraInfo rewardKey).toList) := by
  rw [get_addExtraField, present]
  cases Dictionary.get extraField.rewardExtraInfo rewardKey with
  | none => simp
  | some value => rfl

theorem addExtraFields_reward (present : Dictionary.get infos rewardKey = some values)
    (nPrior : Nat) (extraFields : List (ExtraField K)) :
    Dictionary.get (extraFields.foldl addExtraField (infos, nPrior)).1 rewardKey =
      some (values ++ extraFields.flatMap (fun field => (Dictionary.get field.rewardExtraInfo rewardKey).toList)) := by
  induction extraFields generalizing infos values nPrior with
  | nil => rw [flatMap_nil, append_nil]; exact present
  | cons extraField extraFields ih =>
    rw [foldl_cons, flatMap_cons, ← append_assoc]
    exact ih (addExtraField_reward present nPrior extraField) _

theorem addExtraField_length {key : String} (other : key ≠ rewardKey)
    (present : Dictionary.get infos key = some values) (nPrior : Nat) (extraField : ExtraField K) :
    ∃ longer, Dictionary.get (addExtraField (infos, nPrior) extraField).1 key = some longer ∧ longer.length = values.length + 1 := by
  rw [get_addExtraField, present]
  cases Dictionary.get extraField.rewardExtraInfo key with
  | none =>
    refine ⟨values ++ [.none], ?_, length_append⟩
    rw [Option.elim_none, Option.map_some, if_pos other]
  | some value => exact ⟨values ++ [value], rfl, length_append⟩

theorem addExtraFields_length {key : String} (other : key ≠ rewardKey)
    (present : Dictionary.get infos key = some values) (nPrior : Nat) (extraFields : List (ExtraField K)) :
    ∃ longer, Dictionary.get (extraFields.foldl addExtraField (infos, nPrior)).1 key = some longer ∧
      longer.length = values.length + extraFields.length := by
  induction extraFields generalizing infos values nPrior with
  | nil => exact ⟨values, present, rfl⟩
  | cons extraField extraFields ih =>
    obtain ⟨longer, found, length⟩ := addExtraField_length other present nPrior extraField
    obtain ⟨longest, last, total⟩ := ih found (nPrior + 1)
    refine ⟨longest, last, ?_⟩
    rw [total, length, length_cons]
    omega

/-! ### Batches -/

variable [Field K]

def sampleOf (batch : Batch K) (row : Key × Row K) : Sample K where
  key := row.1
  uid := row.2.uid
  score := row.2.rmScores.sum
  groundTruth := if batch.hasRewardModel then row.2.groundTruth else none
  dataSource := if batch.hasDataSource then row.2.dataSource else "unknown"
  info := if batch.hasExtraFields then row.2.extraField.rewardExtraInfo else []

def samplesOf (batch : Batch K) : List (Sample K) := (finals batch.rows).map (sampleOf batch)

def samples (batches : List (Batch K)) : List (Sample K) := batches.flatMap samplesOf

theorem samples_append (batches : List (Batch K)) (batch : Batch K) :
    samples (batches ++ [batch]) = samples batches ++ samplesOf batch := by
  rw [samples, flatMap_append, flatMap_singleton]
  rfl

def addBatch (batch : Batch K) (infos : ExtraInfos K) : ExtraInfos K :=
  let infos := Dictionary.modify rewardKey (fun values =>
    values.getD [] ++ (samplesOf batch).map (fun sample => .number sample.score)) infos
  if batch.hasExtraFields then addExtraFields infos ((finals batch.rows).map (fun row => row.2.extraField)) else infos

theorem collectBatch_infos (tokenizer : Tokenizer) (state : State K) (batch : Batch K) :
    (collectBatch tokenizer state batch).rewardExtraInfos = addBatch batch state.rewardExtraInfos := by
  simp only [collectBatch, sortedSessions_rows batch.distinct, map_map, addBatch, samplesOf]
  rfl

theorem samplesOf_info (batch : Batch K) : (samplesOf batch).map Sample.info =
    (finals batch.rows).map (fun row => if batch.hasExtraFields then row.2.extraField.rewardExtraInfo else []) := by
  rw [samplesOf, map_map]
  rfl

theorem addBatch_reward (batch : Batch K) (infos : ExtraInfos K) : Dictionary.get (addBatch batch infos) rewardKey =
      some ((Dictionary.get infos rewardKey).getD [] ++ (samplesOf batch).map (fun sample => .number sample.score) ++
        (samplesOf batch).flatMap (fun sample => (Dictionary.get sample.info rewardKey).toList)) := by
  have scored := Dictionary.get_modify rewardKey (fun values : Option (List (Value K)) =>
    values.getD [] ++ (samplesOf batch).map (fun sample => .number sample.score)) infos rewardKey
  rw [if_pos rfl] at scored
  unfold addBatch
  by_cases extra : batch.hasExtraFields = true
  · rw [if_pos extra, addExtraFields, addExtraFields_reward scored, samplesOf, flatMap_map, flatMap_map]
    simp only [sampleOf, extra, if_true]
  · rw [if_neg extra, scored, samplesOf, flatMap_map]
    simp [sampleOf, extra]

theorem addBatch_filled (filled : Filled before infos)
    (prior : ((Dictionary.get infos rewardKey).getD []).length = before.length) {batch : Batch K}
    (tidy : batch.hasExtraFields = true ∨ batch.rows = [] ∨ ∀ sample ∈ before, sample.info = []) :
    Filled (before ++ samplesOf batch) (addBatch batch infos) := by
  have scored := Dictionary.get_modify rewardKey (fun values : Option (List (Value K)) =>
    values.getD [] ++ (samplesOf batch).map (fun sample => .number sample.score)) infos
  have kept : Filled before (Dictionary.modify rewardKey (fun values =>
      values.getD [] ++ (samplesOf batch).map (fun sample => .number sample.score)) infos) := by
    intro key other
    rw [scored, if_neg other]
    exact filled key other
  unfold addBatch
  by_cases extra : batch.hasExtraFields = true
  · rw [if_pos extra, addExtraFields, scored, if_pos rfl]
    have offset : (((Dictionary.get infos rewardKey).getD [] ++
        (samplesOf batch).map (fun sample => Value.number sample.score)).length -
        ((finals batch.rows).map (fun row => row.2.extraField)).length) = before.length := by
      rw [length_append, prior, samplesOf, length_map, length_map, length_map, Nat.add_sub_cancel]
    rw [Option.getD_some, offset]
    apply addExtraFields_filled kept
    rw [samplesOf_info, map_map]
    simp [extra, Function.comp_def]
  · rw [if_neg extra]
    rcases tidy with yes | empty | bare
    · exact absurd yes extra
    · rw [samplesOf, empty, show finals ([] : List (Key × Row K)) = [] from rfl, map_nil, append_nil]
      simpa [samplesOf, empty, show finals ([] : List (Key × Row K)) = [] from rfl] using kept
    · intro key other
      rw [kept key other, if_neg, if_neg]
      · rintro ⟨sample, member, has⟩
        cases mem_append.mp member with
        | inl early =>
          rw [Has, bare sample early] at has
          cases has
        | inr late =>
          obtain ⟨row, _, rfl⟩ := mem_map.mp late
          simp [Has, sampleOf, extra] at has
      · rintro ⟨sample, member, has⟩
        rw [Has, bare sample member] at has
        cases has

theorem addBatch_short {key : String} (other : key ≠ rewardKey)
    (present : Dictionary.get infos key = some values) (batch : Batch K) :
    ∃ longer, Dictionary.get (addBatch batch infos) key = some longer ∧
      longer.length ≤ values.length + (samplesOf batch).length ∧ (batch.hasExtraFields = false → longer = values) := by
  have scored := Dictionary.get_modify rewardKey (fun values : Option (List (Value K)) =>
    values.getD [] ++ (samplesOf batch).map (fun sample => .number sample.score)) infos key
  rw [if_neg other, present] at scored
  unfold addBatch
  by_cases extra : batch.hasExtraFields = true
  · rw [if_pos extra]
    obtain ⟨longer, found, length⟩ := addExtraFields_length other scored _ ((finals batch.rows).map (fun row => row.2.extraField))
    refine ⟨longer, found, ?_, fun none => absurd extra (by simp [none])⟩
    rw [length, samplesOf, length_map, length_map]
  · rw [if_neg extra]
    exact ⟨values, scored, Nat.le_add_right _ _, fun _ => rfl⟩

omit [Field K] in
theorem addExtraField_distinct {state : ExtraInfos K × Nat} (distinct : (state.1.map Prod.fst).Nodup) (extraField : ExtraField K) :
    ((addExtraField state extraField).1.map Prod.fst).Nodup := by
  have padded : (padAbsent extraField.rewardExtraInfo state.1).map Prod.fst = state.1.map Prod.fst := by
    rw [padAbsent, map_map]
    apply map_congr_left
    intro entry _
    rw [Function.comp_apply]
    split <;> rfl
  have apart : ((padAbsent extraField.rewardExtraInfo state.1).map Prod.fst).Nodup := by
    rw [padded]
    exact distinct
  have merged : ((Dictionary.merge (fun values value => values.getD (replicate state.2 .none) ++ [value])
      (padAbsent extraField.rewardExtraInfo state.1) extraField.rewardExtraInfo).map Prod.fst).Nodup :=
    Dictionary.merge_distinct apart _
  exact merged

theorem addBatch_distinct (distinct : (infos.map Prod.fst).Nodup) (batch : Batch K) :
    ((addBatch batch infos).map Prod.fst).Nodup := by
  have scored := Dictionary.modify_distinct distinct rewardKey (fun values : Option (List (Value K)) =>
    values.getD [] ++ (samplesOf batch).map (fun sample => .number sample.score))
  have each : ∀ (extraFields : List (ExtraField K)) (state : ExtraInfos K × Nat), (state.1.map Prod.fst).Nodup →
      ((extraFields.foldl addExtraField state).1.map Prod.fst).Nodup := by
    intro extraFields
    induction extraFields with
    | nil => exact fun _ apart => apart
    | cons extraField extraFields ih => exact fun state apart => ih _ (addExtraField_distinct apart extraField)
  unfold addBatch
  split
  · exact each _ _ scored
  · exact scored

/-! ### Runs -/

theorem collect_append (tokenizer : Tokenizer) (batches : List (Batch K)) (batch : Batch K) :
    collect tokenizer (batches ++ [batch]) = collectBatch tokenizer (collect tokenizer batches) batch := by
  rw [collect, foldl_append]
  rfl

def infosOf (tokenizer : Tokenizer) (batches : List (Batch K)) : ExtraInfos K := (collect tokenizer batches).rewardExtraInfos

theorem infosOf_append (tokenizer : Tokenizer) (batches : List (Batch K)) (batch : Batch K) :
    infosOf tokenizer (batches ++ [batch]) = addBatch batch (infosOf tokenizer batches) := by
  rw [infosOf, collect_append, collectBatch_infos]
  rfl

theorem infosOf_distinct (tokenizer : Tokenizer) (batches : List (Batch K)) :
    ((infosOf tokenizer batches).map Prod.fst).Nodup := by
  induction batches using reverseRecOn with
  | nil => exact nodup_nil
  | append_singleton batches batch ih =>
    rw [infosOf_append]
    exact addBatch_distinct ih batch

/-- No sample has a key `reward` of its own. -/
def NoReward (batches : List (Batch K)) : Prop := ∀ sample ∈ samples batches, ¬ Has rewardKey sample

/-- Where a batch has no extra fields, it has no outputs, or no sample before it has a key. -/
def Tidy (batches : List (Batch K)) : Prop :=
  ∀ i batch, batches[i]? = some batch →
    batch.hasExtraFields = true ∨ batch.rows = [] ∨ ∀ sample ∈ samples (batches.take i), sample.info = []

/-- Every list has an entry for each sample, which is its value or `None`. -/
structure Aligned (samples : List (Sample K)) (infos : ExtraInfos K) : Prop where
  entries : ∀ key values, Dictionary.get infos key = some values → values = samples.map (valueOf key)
  known : ∀ sample ∈ samples, ∀ key, Has key sample → key ∈ infos.map Prod.fst

theorem infosOf_reward_length (tokenizer : Tokenizer) (batches : List (Batch K)) :
    ((Dictionary.get (infosOf tokenizer batches) rewardKey).getD []).length = (samples batches).length +
      ((samples batches).flatMap (fun sample => (Dictionary.get sample.info rewardKey).toList)).length := by
  induction batches using reverseRecOn with
  | nil => rfl
  | append_singleton batches batch ih =>
    rw [infosOf_append, addBatch_reward, Option.getD_some, samples_append, flatMap_append]
    simp only [length_append, length_map, ih]
    omega

variable {batches : List (Batch K)}

theorem infosOf_reward (tokenizer : Tokenizer) (noReward : NoReward batches) :
    (Dictionary.get (infosOf tokenizer batches) rewardKey).getD [] = (samples batches).map (valueOf rewardKey) := by
  induction batches using reverseRecOn with
  | nil => rfl
  | append_singleton batches batch ih =>
    rw [NoReward, samples_append, forall_mem_append] at noReward
    have none : (samplesOf batch).flatMap (fun sample => (Dictionary.get sample.info rewardKey).toList) = [] := by
      apply flatMap_eq_nil_iff.mpr
      intro sample member
      rw [Dictionary.get_none.mpr (noReward.2 sample member)]
      rfl
    have scores : (samplesOf batch).map (fun sample => Value.number sample.score) = (samplesOf batch).map (valueOf rewardKey) := by
      apply map_congr_left
      intro sample _
      rw [valueOf, if_pos rfl]
    rw [infosOf_append, addBatch_reward, Option.getD_some, ih noReward.1, none, append_nil, scores, samples_append,
      map_append]

theorem tidy_append {batch : Batch K} (tidy : Tidy batches)
    (last : batch.hasExtraFields = true ∨ batch.rows = [] ∨ ∀ sample ∈ samples batches, sample.info = []) :
    Tidy (batches ++ [batch]) := by
  intro i other read
  by_cases before : i < batches.length
  · rw [List.getElem?_append_left before] at read
    rw [List.take_append_of_le_length before.le]
    exact tidy i other read
  · have inside := (List.getElem?_eq_some_iff.mp read).1
    rw [List.length_append, List.length_singleton] at inside
    obtain rfl : i = batches.length := by omega
    rw [List.getElem?_concat_length, Option.some.injEq] at read
    rw [← read, List.take_left]
    exact last

def Behind (samples : List (Sample K)) (infos : ExtraInfos K) : Prop :=
  ∃ key values, key ≠ rewardKey ∧ Dictionary.get infos key = some values ∧ values.length < samples.length

theorem behind_append {tokenizer : Tokenizer} (behind : Behind (samples batches) (infosOf tokenizer batches))
    (batch : Batch K) : Behind (samples (batches ++ [batch])) (infosOf tokenizer (batches ++ [batch])) := by
  obtain ⟨key, values, other, present, shorter⟩ := behind
  obtain ⟨longer, found, bound, _⟩ := addBatch_short other present batch
  refine ⟨key, longer, other, ?_, ?_⟩
  · rw [infosOf_append]
    exact found
  · rw [samples_append, length_append]
    omega

theorem filled_or_behind (tokenizer : Tokenizer) (noReward : NoReward batches) :
    (Tidy batches ∧ Filled (samples batches) (infosOf tokenizer batches)) ∨
      (¬ Tidy batches ∧ Behind (samples batches) (infosOf tokenizer batches)) := by
  induction batches using List.reverseRecOn with
  | nil =>
    left
    refine ⟨fun i batch read => ?_, fun key _ => ?_⟩
    · cases read
    · rw [if_neg (fun known => ?_)]
      · rfl
      · obtain ⟨sample, member, _⟩ := known
        cases member
  | append_singleton batches batch ih =>
    have earlier : NoReward batches := fun sample member =>
      noReward sample (samples_append batches batch ▸ List.mem_append_left _ member)
    have untidy : ¬ Tidy batches → ¬ Tidy (batches ++ [batch]) := by
      intro failed tidy
      apply failed
      intro i other read
      have inside := (List.getElem?_eq_some_iff.mp read).1
      have both := tidy i other (by rw [List.getElem?_append_left inside]; exact read)
      rwa [List.take_append_of_le_length inside.le] at both
    cases ih earlier with
    | inr behind => exact Or.inr ⟨untidy behind.1, behind_append behind.2 batch⟩
    | inl filled =>
      have prior := congrArg List.length (infosOf_reward tokenizer earlier)
      rw [List.length_map] at prior
      by_cases last : batch.hasExtraFields = true ∨ batch.rows = [] ∨ ∀ sample ∈ samples batches, sample.info = []
      · left
        rw [samples_append, infosOf_append]
        exact ⟨tidy_append filled.1 last, addBatch_filled filled.2 prior last⟩
      · right
        refine ⟨?_, ?_⟩
        · intro tidy
          have here := tidy batches.length batch List.getElem?_concat_length
          rw [List.take_left] at here
          exact last here
        · obtain ⟨extra, rest⟩ := not_or.mp last
          obtain ⟨some, keys⟩ := not_or.mp rest
          push Not at keys
          obtain ⟨sample, member, info⟩ := keys
          obtain ⟨entry, inside⟩ := List.exists_mem_of_ne_nil _ info
          have has : Has entry.1 sample := List.mem_map_of_mem inside
          have other : entry.1 ≠ rewardKey := fun same => earlier sample member (same ▸ has)
          have present := filled.2 entry.1 other
          rw [if_pos ⟨sample, member, has⟩] at present
          obtain ⟨longer, found, _, same⟩ := addBatch_short other present batch
          rw [same (by simpa using extra)] at found
          refine ⟨entry.1, _, other, by rw [infosOf_append]; exact found, ?_⟩
          have outputs : 0 < (samplesOf batch).length := by
            rw [samplesOf, List.length_map]
            exact List.length_pos_of_ne_nil (fun none => some (finals_eq_nil.mp none))
          rw [samples_append, List.length_append, List.length_map]
          omega

theorem aligned_iff (tokenizer : Tokenizer) (batches : List (Batch K)) :
    Aligned (samples batches) (infosOf tokenizer batches) ↔ NoReward batches ∧ Tidy batches := by
  constructor
  · intro aligned
    have noReward : NoReward batches := by
      have total := infosOf_reward_length tokenizer batches
      have length : ((Dictionary.get (infosOf tokenizer batches) rewardKey).getD []).length = (samples batches).length ∨
          samples batches = [] := by
        cases found : Dictionary.get (infosOf tokenizer batches) rewardKey with
        | some values =>
          left
          rw [aligned.entries rewardKey values found, Option.getD_some, length_map]
        | none =>
          rw [found] at total
          exact Or.inr (eq_nil_of_length_eq_zero (by simp at total; omega))
      intro sample member has
      rcases length with same | empty
      · have no : (samples batches).flatMap (fun sample => (Dictionary.get sample.info rewardKey).toList) = [] :=
          eq_nil_of_length_eq_zero (by omega)
        have missing := flatMap_eq_nil_iff.mp no sample member
        exact Dictionary.get_none.mp (by simpa using missing) has
      · rw [empty] at member
        cases member
    cases filled_or_behind tokenizer noReward with
    | inl filled => exact ⟨noReward, filled.1⟩
    | inr behind =>
      obtain ⟨_, key, values, _, present, shorter⟩ := behind
      have length := congrArg length (aligned.entries key values present)
      rw [length_map] at length
      omega
  · rintro ⟨noReward, tidy⟩
    cases filled_or_behind tokenizer noReward with
    | inr behind => exact absurd tidy behind.1
    | inl filled =>
      constructor
      · intro key values present
        by_cases reward : key = rewardKey
        · have scores := infosOf_reward tokenizer noReward
          rw [reward] at present ⊢
          rwa [present] at scores
        · rw [filled.2 key reward] at present
          split at present
          · exact (Option.some.inj present).symm
          · cases present
      · intro sample member key has
        by_contra absent
        have other : key ≠ rewardKey := fun same => noReward sample member (same ▸ has)
        have present := filled.2 key other
        rw [if_pos ⟨sample, member, has⟩, Dictionary.get_none.mpr absent] at present
        cases present

end LLMFusion.Validation
