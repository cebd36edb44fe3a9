import LLMFusion.Proofs.ValidationLists

/-! The dump of a validation reads the lists at the place of the session of every output. -/

namespace LLMFusion.Validation
open SyncTrainer List
open PaddingUtils (Key)

variable {K : Type} [Field K]

/-! ### Sessions -/

/-- Every prompt of a validation has a `uid` of its own. -/
def Fresh (batches : List (Batch K)) : Prop :=
  batches.Pairwise (fun batch other => ∀ row ∈ batch.rows, ∀ later ∈ other.rows, row.1.uid ≠ later.1.uid)

theorem samplesOf_sessions (batch : Batch K) : (samplesOf batch).map (fun sample => sessionOf sample.key) =
    (sortedSessions (batch.rows.map Prod.fst)).map Prod.fst := by
  rw [samplesOf, map_map, ← sortedSessions_rows batch.distinct, filterMap_map]
  apply filterMap_named
  intro session member
  have recorded := (mergeSort_perm _ _).mem_iff.mp member
  obtain ⟨row, _, read, same⟩ := finalSessions_row batch.rows session recorded
  exact ⟨row, read, same⟩

theorem sortedSessions_distinct (keys : List Key) : ((sortedSessions keys).map Prod.fst).Nodup :=
  ((mergeSort_perm _ _).map Prod.fst).nodup_iff.mpr (finalSessions_distinct keys)

theorem samplesOf_row {batch : Batch K} {sample : Sample K} (member : sample ∈ samplesOf batch) :
    ∃ row ∈ batch.rows, row.1 = sample.key := by
  obtain ⟨row, final, rfl⟩ := mem_map.mp member
  exact ⟨row, (mem_finals.mp final).1, rfl⟩

theorem exists_sample {batch : Batch K} {row : Key × Row K} (member : row ∈ batch.rows) :
    ∃ sample ∈ samplesOf batch, sessionOf sample.key = sessionOf row.1 := by
  have named : sessionOf row.1 ∈ (finalSessions (batch.rows.map Prod.fst)).map Prod.fst := by
    rw [finalSessions_sessions, map_map]
    exact mem_map.mpr ⟨row, member, rfl⟩
  obtain ⟨session, among, same⟩ := mem_map.mp named
  obtain ⟨final, isFinal, _, ofSession⟩ := finalSessions_row batch.rows session among
  exact ⟨sampleOf batch final, mem_map_of_mem isFinal, ofSession.trans same⟩

structure Collected (tokenizer : Tokenizer) (batches : List (Batch K)) (state : State K) : Prop where
  uids : state.sampleUids = (samples batches).map Sample.uid
  gts : state.sampleGts = (samples batches).map Sample.groundTruth
  scores : state.sampleScores = (samples batches).map Sample.score
  sources : state.dataSources = (samples batches).map Sample.dataSource

theorem collected (tokenizer : Tokenizer) (batches : List (Batch K)) : Collected tokenizer batches (collect tokenizer batches) := by
  induction batches using reverseRecOn with
  | nil => exact ⟨rfl, rfl, rfl, rfl⟩
  | append_singleton batches batch ih =>
    have rows := sortedSessions_rows batch.distinct
    have count : ((sortedSessions (batch.rows.map Prod.fst)).map (fun session => session.2.2)).length = (samplesOf batch).length := by
      have lengths := congrArg length (samplesOf_sessions batch)
      rw [length_map, length_map] at lengths
      rw [length_map, lengths]
    rw [collect_append]
    constructor
    · simp only [collectBatch, rows, ih.uids, samples_append, map_append, samplesOf, map_map]
      rfl
    · simp only [collectBatch, rows, ih.gts, samples_append, map_append, count]
      congr 1
      rw [samplesOf, map_map, map_map, length_map]
      cases present : batch.hasRewardModel with
      | true => simp [sampleOf, present, Function.comp_def]
      | false => simp [sampleOf, present, Function.comp_def]
    · simp only [collectBatch, rows, ih.scores, samples_append, map_append, samplesOf, map_map]
      rfl
    · simp only [collectBatch, rows, ih.sources, samples_append, map_append, count]
      congr 1
      rw [samplesOf, map_map, map_map, length_map]
      cases present : batch.hasDataSource with
      | true => simp [sampleOf, present, Function.comp_def]
      | false => simp [sampleOf, present, Function.comp_def]

def sessionPlaces (batch : Batch K) (base : Nat) : List ((String × Nat) × Nat) :=
  (sortedSessions (batch.rows.map Prod.fst)).zipIdx.map (fun session => (session.1.1, base + session.2))

theorem sessionPlaces_sessions (batch : Batch K) (base : Nat) :
    (sessionPlaces batch base).map Prod.fst = (samplesOf batch).map (fun sample => sessionOf sample.key) := by
  have firsts := congrArg (map Prod.fst) (zipIdx_map_fst 0 (sortedSessions (batch.rows.map Prod.fst)))
  rw [map_map] at firsts
  rw [samplesOf_sessions, sessionPlaces, map_map]
  exact firsts

theorem sessionPlaces_distinct (batch : Batch K) (base : Nat) : ((sessionPlaces batch base).map Prod.fst).Nodup := by
  rw [sessionPlaces_sessions, samplesOf_sessions]
  exact sortedSessions_distinct _

theorem mem_sessionPlaces {batch : Batch K} {i : Nat} {sample : Sample K} (read : (samplesOf batch)[i]? = some sample)
    (base : Nat) : (sessionOf sample.key, base + i) ∈ sessionPlaces batch base := by
  have session := congrArg (fun names : List (String × Nat) => names[i]?) (samplesOf_sessions batch)
  simp only [getElem?_map, read, Option.map_some] at session
  obtain ⟨entry, here, named⟩ := Option.map_eq_some_iff.mp session.symm
  exact mem_map.mpr ⟨(entry, i), mk_mem_zipIdx_iff_getElem?.mpr here, by rw [named]⟩

theorem get_sessionToSampleIdx (tokenizer : Tokenizer) (state : State K) (batch : Batch K) (session : String × Nat) :
    Dictionary.get (collectBatch tokenizer state batch).sessionToSampleIdx session =
      (Dictionary.get (sessionPlaces batch state.sampleScores.length) session).elim
        (Dictionary.get state.sessionToSampleIdx session) some := by
  have merged : Dictionary.get (Dictionary.merge (fun _ i => i) state.sessionToSampleIdx
      (sessionPlaces batch state.sampleScores.length)) session = _ :=
    Dictionary.get_merge (sessionPlaces_distinct batch state.sampleScores.length) _ _
  exact merged

variable {batches : List (Batch K)}

theorem collected_places (tokenizer : Tokenizer) (fresh : Fresh batches) :
    ∀ i sample, (samples batches)[i]? = some sample →
      Dictionary.get (collect tokenizer batches).sessionToSampleIdx (sessionOf sample.key) = some i := by
  induction batches using reverseRecOn with
  | nil =>
    intro i sample read
    cases read
  | append_singleton batches batch ih =>
    obtain ⟨earlier, _, apart⟩ := pairwise_append.mp fresh
    have base : (collect tokenizer batches).sampleScores.length = (samples batches).length := by
      rw [(collected tokenizer batches).scores, length_map]
    intro i sample read
    rw [collect_append, get_sessionToSampleIdx, base]
    rw [samples_append] at read
    by_cases before : i < (samples batches).length
    · rw [getElem?_append_left before] at read
      have absent : sessionOf sample.key ∉ (sessionPlaces batch (samples batches).length).map Prod.fst := by
        rw [sessionPlaces_sessions]
        intro found
        obtain ⟨other, member, same⟩ := mem_map.mp found
        obtain ⟨owner, inBatches, own⟩ := mem_flatMap.mp (mem_of_getElem? read)
        obtain ⟨row, inRows, isKey⟩ := samplesOf_row own
        obtain ⟨later, inLater, isLater⟩ := samplesOf_row member
        apply apart owner inBatches batch (mem_singleton_self batch) row inRows later inLater
        rw [isKey, isLater]
        exact (Prod.mk.inj same).1.symm
      rw [Dictionary.get_none.mpr absent, Option.elim_none]
      exact ih earlier i sample read
    · rw [getElem?_append_right (not_lt.mp before)] at read
      have inside := mem_sessionPlaces read (samples batches).length
      rw [Nat.add_sub_cancel' (not_lt.mp before)] at inside
      rw [(Dictionary.mem_iff_get (sessionPlaces_distinct batch _)).mp inside, Option.elim_some]

theorem samples_unique (fresh : Fresh batches) {sample other : Sample K}
    (member : sample ∈ samples batches) (among : other ∈ samples batches) (same : sessionOf sample.key = sessionOf other.key) :
    sample = other := by
  obtain ⟨i, read⟩ := getElem?_of_mem member
  obtain ⟨j, read'⟩ := getElem?_of_mem among
  have here := collected_places ⟨fun _ => "", 0⟩ fresh i sample read
  have there := collected_places ⟨fun _ => "", 0⟩ fresh j other read'
  rw [same, there] at here
  cases here
  exact Option.some.inj (read.symm.trans read')

/-! ### The dump -/

/-- The outputs of a batch, decoded. -/
def outputsOf (tokenizer : Tokenizer) (batch : Batch K) : List (Key × (String × String)) :=
  (batch.rows.map Prod.fst).zip
    (((paddedTo tokenizer.padTokenId (batch.rows.map (fun row => row.2.prompts))).map tokenizer.decode).zip
      ((paddedTo tokenizer.padTokenId (batch.rows.map (fun row => row.2.responses))).map tokenizer.decode))

omit [Field K] in
theorem outputsOf_keys (tokenizer : Tokenizer) (batch : Batch K) :
    (outputsOf tokenizer batch).map Prod.fst = batch.rows.map Prod.fst := by
  rw [outputsOf, map_fst_zip]
  simp [paddedTo]

structure Listed (tokenizer : Tokenizer) (batches : List (Batch K)) (state : State K) : Prop where
  rows : state.dumpAllKeys.zip (state.dumpAllInputs.zip state.dumpAllOutputs) = batches.flatMap (outputsOf tokenizer)
  inputs : state.dumpAllInputs.length = state.dumpAllKeys.length
  outputs : state.dumpAllOutputs.length = state.dumpAllKeys.length

theorem listed (tokenizer : Tokenizer) (batches : List (Batch K)) : Listed tokenizer batches (collect tokenizer batches) := by
  induction batches using reverseRecOn with
  | nil => exact ⟨rfl, rfl, rfl⟩
  | append_singleton batches batch ih =>
    rw [collect_append]
    constructor
    · rw [flatMap_append, flatMap_singleton, ← ih.rows]
      simp only [collectBatch]
      rw [zip_append (by rw [ih.inputs, ih.outputs]), zip_append (by rw [length_zip, ih.inputs, ih.outputs, Nat.min_self])]
      rfl
    · simp [collectBatch, paddedTo, ih.inputs]
    · simp [collectBatch, paddedTo, ih.outputs]

omit [Field K] in
theorem items_read {samples found : List (Sample K)} {indices : List Nat}
    (reads : List.Forall₂ (fun i sample => samples[i]? = some sample) indices found) {α : Type} (field : Sample K → α) :
    indices.mapM (item (samples.map field)) = .ok (found.map field) := by
  induction reads with
  | nil => rfl
  | cons read _ ih =>
    rw [mapM_cons, ih, item, getElem?_map, read]
    rfl

/-- An output has the sample of its session. -/
def Own (batches : List (Batch K)) (key : Key) (sample : Sample K) : Prop :=
  sample ∈ samples batches ∧ sessionOf sample.key = sessionOf key

/-- Every output is dumped with the score, the ground truth and the extra infos of its session. -/
structure Dumped (tokenizer : Tokenizer) (batches : List (Batch K)) (dumped : Dump K) : Prop where
  rows : ∃ rows : List (Key × (String × String)), rows.Perm (batches.flatMap (outputsOf tokenizer)) ∧ dumped.keys = rows.map Prod.fst ∧
    dumped.inputs = rows.map (fun row => row.2.1) ∧ dumped.outputs = rows.map (fun row => row.2.2)
  scores : List.Forall₂ (fun key score => ∀ sample, Own batches key sample → score = sample.score) dumped.keys dumped.scores
  gts : List.Forall₂ (fun key gt => ∀ sample, Own batches key sample → gt = sample.groundTruth) dumped.keys dumped.gts
  infos : ∀ info, (∃ sample ∈ samples batches, Has info sample) → ∃ values,
    Dictionary.get dumped.rewardExtraInfos info = some values ∧
      List.Forall₂ (fun key value => ∀ sample, Own batches key sample →
        value = valueOf info sample ∨ info = uidKey ∧ ¬ Has info sample) dumped.keys values

/-- An extra info `uid` is the key of every output of its session. -/
def Labelled (batches : List (Batch K)) : Prop :=
  ∀ batch ∈ batches, ∀ row ∈ batch.rows, ∀ sample, Own batches row.1 sample → Has uidKey sample →
    valueOf uidKey sample = .text (keyText row.1)

omit [Field K] in
theorem mem_outputs {tokenizer : Tokenizer} {key : Key} :
    key ∈ (batches.flatMap (outputsOf tokenizer)).map Prod.fst ↔ ∃ batch ∈ batches, ∃ row ∈ batch.rows, row.1 = key := by
  rw [map_flatMap, mem_flatMap]
  simp only [outputsOf_keys, mem_map]

theorem own_samples {keys : List Key} {indices : List Nat}
    (related : List.Forall₂ (fun key i => ∃ sample, (samples batches)[i]? = some sample ∧ sessionOf sample.key = sessionOf key)
      keys indices) : ∃ found, List.Forall₂ (Own batches) keys found ∧
      List.Forall₂ (fun i sample => (samples batches)[i]? = some sample) indices found := by
  induction related with
  | nil => exact ⟨[], .nil, .nil⟩
  | cons first _ ih =>
    obtain ⟨sample, read, same⟩ := first
    obtain ⟨found, own, reads⟩ := ih
    exact ⟨sample :: found, .cons ⟨mem_of_getElem? read, same⟩ own, .cons read reads⟩

theorem dump_ok (tokenizer : Tokenizer) (fresh : Fresh batches)
    (aligned : Aligned (samples batches) (infosOf tokenizer batches)) :
    ∃ (rows : List (Key × (String × String))) (found : List (Sample K)), rows.Perm (batches.flatMap (outputsOf tokenizer)) ∧
      List.Forall₂ (Own batches) (rows.map Prod.fst) found ∧
      dump (collect tokenizer batches) = .ok ⟨rows.map (fun row => row.2.1), rows.map (fun row => row.2.2),
        found.map Sample.groundTruth, found.map Sample.score, rows.map Prod.fst,
        Dictionary.modify uidKey (fun _ => (rows.map Prod.fst).map (fun key => .text (keyText key)))
          ((infosOf tokenizer batches).map (fun info => (info.1, found.map (valueOf info.1))))⟩ := by
  have lists := listed tokenizer batches
  have columns := collected tokenizer batches
  have sorted := mergeSort_perm (batches.flatMap (outputsOf tokenizer)) (fun row other => decide (sortKey row.1 ≤ sortKey other.1))
  generalize merged : (batches.flatMap (outputsOf tokenizer)).mergeSort
    (fun row other => decide (sortKey row.1 ≤ sortKey other.1)) = rows at sorted
  have places : ∀ key ∈ rows.map Prod.fst, ∃ i, getKey (collect tokenizer batches).sessionToSampleIdx (key.uid, key.sessionId) = .ok i ∧
      ∃ sample, (samples batches)[i]? = some sample ∧ sessionOf sample.key = sessionOf key := by
    intro key member
    obtain ⟨batch, inside, row, among, rfl⟩ := mem_outputs.mp ((sorted.map Prod.fst).mem_iff.mp member)
    obtain ⟨sample, own, same⟩ := exists_sample among
    obtain ⟨i, read⟩ := getElem?_of_mem (mem_flatMap.mpr ⟨batch, inside, own⟩ : sample ∈ samples batches)
    have found := collected_places tokenizer fresh i sample read
    refine ⟨i, ?_, sample, read, same⟩
    rw [same] at found
    rw [getKey, show ((row.1.uid, row.1.sessionId) : String × Nat) = sessionOf row.1 from rfl, found]
  obtain ⟨indices, located, related⟩ := Fallible.mapM_ok _ _ places
  obtain ⟨found, own, reads⟩ := own_samples related
  refine ⟨rows, found, sorted, own, ?_⟩
  have infos : (collect tokenizer batches).rewardExtraInfos.mapM (fun info => do
      let values ← indices.mapM (item info.2)
      return (info.1, values)) =
      (.ok ((infosOf tokenizer batches).map (fun info => (info.1, found.map (valueOf info.1)))) : Except Failure _) := by
    apply Fallible.mapM_map
    intro info member
    have here := (Dictionary.mem_iff_get (infosOf_distinct tokenizer batches)).mp
      (show (info.1, info.2) ∈ infosOf tokenizer batches from member)
    rw [aligned.entries info.1 info.2 here, items_read reads]
    rfl
  simp only [dump, lists.rows, merged, located, columns.gts, columns.scores, items_read reads, infos, Fallible.ok_bind]
  rfl

theorem forall₂_own (fresh : Fresh batches) {keys : List Key} {found : List (Sample K)}
    (own : List.Forall₂ (Own batches) keys found) {α : Type} {field : Sample K → α} :
    List.Forall₂ (fun key value => ∀ sample, Own batches key sample → value = field sample) keys (found.map field) := by
  induction own with
  | nil => exact .nil
  | cons first _ ih =>
    refine .cons ?_ ih
    intro sample owner
    rw [samples_unique fresh first.1 owner.1 (first.2.trans owner.2.symm)]

theorem dumped_iff (tokenizer : Tokenizer) (fresh : Fresh batches)
    (aligned : Aligned (samples batches) (infosOf tokenizer batches)) :
    (∃ dumped, dump (collect tokenizer batches) = .ok dumped ∧ Dumped tokenizer batches dumped) ↔ Labelled batches := by
  obtain ⟨rows, found, sorted, own, returned⟩ := dump_ok tokenizer fresh aligned
  have distinct : (((infosOf tokenizer batches).map (fun info => (info.1, found.map (valueOf info.1)))).map Prod.fst).Nodup := by
    rw [map_map]
    exact infosOf_distinct tokenizer batches
  have infos := Dictionary.get_modify uidKey (fun _ => (rows.map Prod.fst).map (fun key => Value.text (keyText key)))
    ((infosOf tokenizer batches).map (fun info => (info.1, found.map (valueOf info.1))))
  rw [returned]
  constructor
  · rintro ⟨dumped, same, holds⟩ batch member row inside sample owner has
    cases same
    obtain ⟨values, read, each⟩ := holds.infos uidKey ⟨sample, owner.1, has⟩
    rw [infos, if_pos rfl, Option.some.injEq] at read
    rw [← read] at each
    have listed : row.1 ∈ rows.map Prod.fst := (sorted.map Prod.fst).mem_iff.mpr (mem_outputs.mpr ⟨batch, member, row, inside, rfl⟩)
    cases forall₂_same.mp (forall₂_map_right_iff.mp each) row.1 listed sample owner with
    | inl same => exact same.symm
    | inr absent => exact absurd has absent.2
  · intro labelled
    refine ⟨_, rfl, ⟨rows, sorted, rfl, rfl, rfl⟩, forall₂_own fresh own, forall₂_own fresh own, ?_⟩
    rintro info ⟨sample, member, has⟩
    by_cases isUid : info = uidKey
    · subst isUid
      refine ⟨_, (infos uidKey).trans (if_pos rfl), ?_⟩
      apply forall₂_map_right_iff.mpr
      apply forall₂_same.mpr
      intro key listed other owner
      obtain ⟨batch, inBatches, row, inRows, rfl⟩ := mem_outputs.mp ((sorted.map Prod.fst).mem_iff.mp listed)
      by_cases labels : Has uidKey other
      · exact Or.inl (labelled batch inBatches row inRows other owner labels).symm
      · exact Or.inr ⟨rfl, labels⟩
    · obtain ⟨entry, present, rfl⟩ := mem_map.mp (aligned.known sample member info has)
      refine ⟨found.map (valueOf entry.1), ?_, ?_⟩
      · rw [infos, if_neg isUid]
        exact Dictionary.get_of_mem distinct (mem_map_of_mem present)
      · exact (forall₂_own fresh own).imp (fun _ _ same sample owner => Or.inl (same sample owner))

end LLMFusion.Validation
