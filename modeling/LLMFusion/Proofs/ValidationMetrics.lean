import LLMFusion.Proofs.ValidationDump

/-! The metrics of a validation. A list that holds `None` beside numbers has no mean, so that the metrics of a data source
are those of its samples exactly if the lists of every `uid` hold numbers alone or begin with a text. -/

namespace LLMFusion.Validation
open List hiding mapM_map
open SyncTrainer Fallible
open PaddingUtils (Key)

variable {K : Type}

/-! ### Groups -/

section Groups
variable {α β : Type}

def mapGroups (f : α → β) (groups : BySource α) : BySource β :=
  groups.map (fun source => (source.1, source.2.map (fun uid => (uid.1, f uid.2))))

theorem groupSamples_map (f : α → β) (samples : List (String × (String × α))) :
    groupSamples (samples.map (fun sample => (sample.1, (sample.2.1, f sample.2.2)))) =
      mapGroups (map f) (groupSamples samples) := by
  have outer := Grouping.collect_map (fun entry : String × α => (entry.1, f entry.2)) samples
  rw [groupSamples, outer, groupSamples, mapGroups, map_map, map_map]
  apply map_congr_left
  intro source _
  exact congrArg (source.1, ·) (Grouping.collect_map f source.2)

theorem mem_groupSamples {samples : List (String × (String × α))} {source : String × List (String × List α)}
    {uid : String × List α} (inSource : source ∈ groupSamples samples) (inUid : uid ∈ source.2) :
    uid.2 ≠ [] ∧ uid.2 = Grouping.members (Grouping.members samples source.1) uid.1 := by
  obtain ⟨group, member, rfl⟩ := mem_map.mp inSource
  have members := Grouping.collect_members member
  refine ⟨Grouping.collect_nonempty group.2 uid inUid, ?_⟩
  rw [← members]
  exact Grouping.collect_members inUid

theorem perUid_map {γ : Type} (g : α → β) (f : β → Except Failure γ) (groups : BySource α) :
    perUid f (mapGroups g groups) = perUid (fun group => f (g group)) groups := by
  simp only [perUid, mapGroups, List.mapM_map, Function.comp_def]

theorem perUid_congr {f g : α → Except Failure β} {groups : BySource α}
    (same : ∀ source ∈ groups, ∀ uid ∈ source.2, f uid.2 = g uid.2) : perUid f groups = perUid g groups := by
  apply mapM_congr
  intro source member
  rw [mapM_congr (fun uid inside => by rw [same source member uid inside])]

theorem perUid_ok {f : α → Except Failure β} {groups : BySource α} (result : α → β)
    (each : ∀ source ∈ groups, ∀ uid ∈ source.2, f uid.2 = .ok (result uid.2)) :
    perUid f groups = .ok (mapGroups result groups) := by
  apply mapM_map
  intro source member
  have uids : source.2.mapM (fun uid => do
      let value ← f uid.2
      return (uid.1, value)) = (.ok (source.2.map (fun uid => (uid.1, result uid.2))) : Except Failure _) := by
    apply mapM_map
    intro uid inside
    rw [each source member uid inside]
    rfl
  rw [uids]
  rfl

theorem perUid_ok_iff {f : α → Except Failure β} {groups : BySource α} :
    (∃ result, perUid f groups = .ok result) ↔ ∀ source ∈ groups, ∀ uid ∈ source.2, ∃ value, f uid.2 = .ok value := by
  rw [perUid, mapM_ok_iff]
  refine forall₂_congr (fun source _ => ?_)
  have uids : (∃ values, source.2.mapM (fun uid => do
      let value ← f uid.2
      return (uid.1, value)) = (.ok values : Except Failure _)) ↔ ∀ uid ∈ source.2, ∃ value, f uid.2 = .ok value := by
    rw [mapM_ok_iff]
    refine forall₂_congr (fun uid _ => ?_)
    cases f uid.2 with
    | ok value => exact iff_of_true ⟨(uid.1, value), rfl⟩ ⟨value, rfl⟩
    | error error =>
      constructor
      · intro returned
        cases returned.choose_spec
      · intro returned
        cases returned.choose_spec
  rw [← uids]
  constructor
  · rintro ⟨result, returned⟩
    obtain ⟨values, each, _⟩ := bind_eq_ok.mp returned
    exact ⟨values, each⟩
  · rintro ⟨values, each⟩
    rw [each]
    exact ⟨_, rfl⟩

end Groups

/-! ### Bootstrap samples -/

theorem genNsFrom_positive (nResps size : Nat) (positive : 0 < size) (some : 0 < nResps) :
    ∀ n ∈ genNsFrom nResps size positive, 0 < n := by
  induction size, positive using genNsFrom.induct nResps with
  | case1 size positive more ih =>
    rw [genNsFrom, if_pos more]
    exact forall_mem_cons.mpr ⟨positive, ih⟩
  | case2 size positive last =>
    rw [genNsFrom, if_neg last]
    exact forall_mem_singleton.mpr some

theorem genNs_positive {nResps n : Nat} (member : n ∈ genNs nResps) : 0 < n := by
  unfold genNs at member
  split at member
  · cases member
  · next several => exact genNsFrom_positive nResps 2 _ (by omega) n member

variable [Field K] (sqrt : K → K) (choice : Choice)

omit [Field K] in
theorem items_ok {α : Type} {data : List α} {indices : List Nat} (inside : ∀ i ∈ indices, i < data.length) :
    ∃ sample, indices.mapM (item data) = .ok sample ∧ sample.length = indices.length := by
  have each : ∀ i ∈ indices, ∃ value, item data i = .ok value ∧ True := by
    intro i member
    have below := inside i member
    refine ⟨data[i], ?_, trivial⟩
    rw [item, getElem?_eq_getElem below]
  obtain ⟨sample, returned, related⟩ := mapM_ok (item data) (fun _ _ => True) each
  exact ⟨sample, returned, related.length_eq.symm⟩

theorem bootstrapMetric_ok {α : Type} {data : List α} {n : Nat} (positive : 0 < n) {reduceFn : List α → Except Failure K}
    (defined : ∀ sample, sample ≠ [] → ∃ value, reduceFn sample = .ok value) :
    ∃ result, bootstrapMetric sqrt choice data n reduceFn = .ok result := by
  have each : ∀ indices ∈ choice.indices data.length n, ∃ value,
      (indices.mapM (item data) >>= reduceFn) = .ok value := by
    intro indices member
    obtain ⟨length, inside⟩ := choice.inside data.length n indices member
    obtain ⟨sample, returned, same⟩ := items_ok inside
    rw [returned, ok_bind]
    apply defined
    rintro rfl
    simp only [length_nil] at same
    omega
  obtain ⟨results, returned⟩ := mapM_ok_iff.mpr each
  exact ⟨_, congrArg (· >>= fun results => Except.ok (npMean results, npStd sqrt results)) returned⟩

omit [Field K] in
theorem orValueError_ok {α : Type} {result : Option α} (defined : result ≠ none) : ∃ value, orValueError result = .ok value := by
  obtain ⟨value, rfl⟩ := Option.ne_none_iff_exists'.mp defined
  exact ⟨value, rfl⟩

variable [LinearOrder K]

omit [Field K] in
theorem calcMajVal_ok {data : List (Value K × K)} (filled : data ≠ []) : ∃ value, calcMajVal data = .ok value := by
  apply orValueError_ok
  obtain ⟨entry, member⟩ := exists_mem_of_ne_nil data filled
  cases best : (Grouping.collect data).argmax (fun vote => vote.2.length) with
  | none =>
    have labelled := Grouping.collect_lookup_of_mem (mem_map_of_mem member)
    rw [argmax_eq_none.mp best] at labelled
    cases labelled
  | some vote =>
    have voted := Grouping.collect_nonempty data vote (argmax_mem best)
    rw [Option.bind_some]
    exact fun none => voted (head?_eq_none_iff.mp none)

theorem bootstrapMetrics_ok (values : List K) {predVals : Option (List (Value K))}
    (aligned : ∀ preds ∈ predVals, preds.length = values.length) {n : Nat} (positive : 0 < n) :
    ∃ metrics, bootstrapMetrics sqrt choice values predVals n = .ok metrics := by
  have largest : ∃ result, bootstrapMetric sqrt choice values n (fun sample => orValueError sample.max?) = .ok result :=
    bootstrapMetric_ok sqrt choice positive (fun sample filled =>
      orValueError_ok (fun none => filled (max?_eq_none_iff.mp none)))
  have smallest : ∃ result, bootstrapMetric sqrt choice values n (fun sample => orValueError sample.min?) = .ok result :=
    bootstrapMetric_ok sqrt choice positive (fun sample filled =>
      orValueError_ok (fun none => filled (min?_eq_none_iff.mp none)))
  obtain ⟨best, isBest⟩ := largest
  obtain ⟨worst, isWorst⟩ := smallest
  unfold bootstrapMetrics
  rw [isBest, ok_bind, isWorst, ok_bind]
  cases predVals with
  | none => exact ⟨_, rfl⟩
  | some preds =>
    have same := aligned preds rfl
    have voted : ∃ result, bootstrapMetric sqrt choice (preds.zip values) n calcMajVal = .ok result :=
      bootstrapMetric_ok sqrt choice positive (fun sample filled => calcMajVal_ok filled)
    obtain ⟨maj, isMaj⟩ := voted
    simp only [same, ne_eq, not_true_eq_false, if_false, isMaj]
    exact ⟨_, rfl⟩

/-! ### Variables -/

/-- A list of numbers alone, or one that begins with a text and is skipped. -/
def Averaged (values : List (Value K)) : Prop :=
  (∃ text, values.head? = some (.text text)) ∨ ∀ value ∈ values, ∃ number, value = .number number

omit [LinearOrder K] [Field K] in
theorem asNumbers_ok_iff {values : List (Value K)} :
    (∃ numbers, values.mapM asNumber = .ok numbers) ↔ ∀ value ∈ values, ∃ number, value = .number number := by
  rw [mapM_ok_iff]
  refine forall₂_congr (fun value _ => ?_)
  cases value with
  | number number => exact iff_of_true ⟨number, rfl⟩ ⟨number, rfl⟩
  | none => simp [asNumber]
  | text text => simp [asNumber]

theorem varMetrics_ok_iff {values : List (Value K)} {predVals : Option (List (Value K))}
    (aligned : ∀ preds ∈ predVals, preds.length = values.length) :
    (∃ metrics, varMetrics sqrt choice values predVals = .ok metrics) ↔ Averaged values := by
  have numbers : ∀ first rest, values = first :: rest → (∀ text, first ≠ .text text) →
      ((∃ metrics, varMetrics sqrt choice values predVals = .ok metrics) ↔ Averaged values) := by
    intro first rest split other
    have skipped : ¬ ∃ text, values.head? = some (.text text) := by
      rintro ⟨text, isText⟩
      rw [split] at isText
      exact other text (Option.some.inj isText)
    rw [Averaged, or_iff_right skipped, ← asNumbers_ok_iff]
    have computed : varMetrics sqrt choice values predVals = (values.mapM asNumber >>= fun values =>
        (genNs values.length).mapM (bootstrapMetrics sqrt choice values predVals) >>= fun sizes =>
        .ok (some ((.mean values.length, npMean values) ::
          (if values.length > 1 then [(.std values.length, npStd sqrt values)] else []) ++ sizes.flatten))) := by
      rw [split]
      cases first with
      | text text => exact absurd rfl (other text)
      | none => rfl
      | number number => rfl
    rw [computed]
    constructor
    · rintro ⟨metrics, returned⟩
      obtain ⟨numbers, each, _⟩ := bind_eq_ok.mp returned
      exact ⟨numbers, each⟩
    · rintro ⟨numbers, each⟩
      have length := (mapM_succeeded each).length_eq
      have sizes : ∀ n ∈ genNs numbers.length, ∃ metrics, bootstrapMetrics sqrt choice numbers predVals n = .ok metrics :=
        fun n member => bootstrapMetrics_ok sqrt choice numbers (fun preds isPreds => (aligned preds isPreds).trans length)
          (genNs_positive member)
      obtain ⟨metrics, returned⟩ := mapM_ok_iff.mpr sizes
      rw [each, ok_bind, returned]
      exact ⟨_, rfl⟩
  cases values with
  | nil => exact iff_of_true ⟨none, rfl⟩ (Or.inr (by simp))
  | cons first rest =>
    cases first with
    | text text => exact iff_of_true ⟨none, rfl⟩ (Or.inl ⟨text, rfl⟩)
    | none => exact numbers .none rest rfl (by simp)
    | number number => exact numbers (.number number) rest rfl (by simp)

/-! ### Samples -/

omit [Field K] [LinearOrder K] in
def groupsOf (samples : List (Sample K)) : BySource (List (Sample K)) :=
  groupSamples (samples.map (fun sample => (sample.dataSource, (sample.uid, sample))))

omit [Field K] [LinearOrder K] in
/-- The samples that have a key. -/
def having (key : String) (group : List (Sample K)) : List (Sample K) :=
  group.filter (fun sample => key = rewardKey ∨ Has key sample)

/-- The metrics of a `uid`, each from the samples that have its key. -/
def sampleMetrics (keys : List String) (group : List (Sample K)) : Except Failure (List (String × List (Metric × K))) := do
  let metrics ← keys.mapM (fun key => do
    let metric ← varMetrics sqrt choice ((having key group).map (valueOf key))
      (if ∃ sample ∈ group, Has predKey sample then some ((having key group).map (valueOf predKey)) else none)
    return (key, metric))
  return metrics.filterMap (fun var => var.2.map (fun metric => (var.1, metric)))

/-- The metrics of the data sources, each from the samples of its data source that have its key. -/
def metricsOf (keys : List String) (samples : List (Sample K)) :
    Except Failure (List (String × List (String × List (Metric × K)))) := do
  let metrics ← perUid (sampleMetrics sqrt choice keys) (groupsOf samples)
  return aggregate metrics

omit [Field K] [LinearOrder K] in
theorem mem_groupsOf {samples : List (Sample K)} {source : String × List (String × List (Sample K))}
    {uid : String × List (Sample K)} (inSource : source ∈ groupsOf samples) (inUid : uid ∈ source.2) :
    uid.2 ≠ [] ∧ uid.2 = samples.filter (fun sample => sample.dataSource = source.1 ∧ sample.uid = uid.1) := by
  obtain ⟨filled, members⟩ := mem_groupSamples inSource inUid
  refine ⟨filled, ?_⟩
  rw [members, Grouping.members_label, Grouping.members_label, filter_filter, map_id'']
  · apply filter_congr
    intro sample _
    simp [and_comm]
  · exact fun _ => rfl

omit [Field K] [LinearOrder K] in
theorem exists_groupsOf {samples : List (Sample K)} {sample : Sample K} (member : sample ∈ samples) :
    ∃ source ∈ groupsOf samples, ∃ uid ∈ source.2, source.1 = sample.dataSource ∧ uid.1 = sample.uid := by
  have inside : (sample.dataSource, (sample.uid, sample)) ∈ samples.map (fun sample => (sample.dataSource, (sample.uid, sample))) :=
    mem_map_of_mem member
  obtain ⟨group, grouped, named⟩ := Grouping.exists_group (mem_map_of_mem inside)
  have own : (sample.uid, sample) ∈ group.2 := by
    rw [Grouping.collect_members grouped, named]
    exact Grouping.mem_members.mpr inside
  obtain ⟨uid, inUid, ofUid⟩ := Grouping.exists_group (mem_map_of_mem own)
  exact ⟨(group.1, Grouping.collect group.2), mem_map_of_mem grouped, uid, inUid, named, ofUid⟩

theorem process_samples {samples : List (Sample K)} {infos : ExtraInfos K} (distinct : (infos.map Prod.fst).Nodup)
    (aligned : Aligned samples infos) :
    processValidationMetrics sqrt choice (samples.map Sample.dataSource) (samples.map Sample.uid) infos =
      (perUid (fun group => uidMetrics sqrt choice (infos.map (fun info => (info.1, group.map (valueOf info.1)))))
        (groupsOf samples) >>= fun metrics => .ok (aggregate metrics)) := by
  have entries : (samples.map Sample.dataSource).zipIdx.mapM (fun entry => do
      let uid ← item (samples.map Sample.uid) entry.2
      return (entry.1, (uid, entry.2))) =
      (.ok (samples.zipIdx.map (fun place => (place.1.dataSource, (place.1.uid, place.2)))) : Except Failure _) := by
    rw [zipIdx_map, List.mapM_map]
    apply mapM_map
    intro place member
    have read := mk_mem_zipIdx_iff_getElem?.mp (show (place.1, place.2) ∈ samples.zipIdx from member)
    have uid : item (samples.map Sample.uid) place.2 = .ok place.1.uid := by
      rw [item, getElem?_map, read]
      rfl
    exact congrArg (· >>= fun uid => Except.ok (place.1.dataSource, (uid, place.2))) uid
  have places := groupSamples_map Prod.snd (samples.zipIdx.map (fun place => (place.1.dataSource, (place.1.uid, place))))
  have owners := groupSamples_map Prod.fst (samples.zipIdx.map (fun place => (place.1.dataSource, (place.1.uid, place))))
  simp only [map_map, Function.comp_def] at places owners
  have firsts : samples.zipIdx.map (fun place => (place.1.dataSource, (place.1.uid, place.1))) =
      samples.map (fun sample => (sample.dataSource, (sample.uid, sample))) := by
    have whole := congrArg (map (fun sample => (sample.dataSource, (sample.uid, sample)))) (zipIdx_map_fst 0 samples)
    rwa [map_map] at whole
  rw [firsts] at owners
  have values : perUid (fun group => infos.mapM (fun info => do
      let values ← (group.map Prod.snd).mapM (item info.2)
      return (info.1, values)))
      (groupSamples (samples.zipIdx.map (fun place => (place.1.dataSource, (place.1.uid, place))))) =
      .ok (mapGroups (fun group => infos.map (fun info => (info.1, (group.map Prod.fst).map (valueOf info.1))))
        (groupSamples (samples.zipIdx.map (fun place => (place.1.dataSource, (place.1.uid, place)))))) := by
    apply perUid_ok
    intro source inSource uid inUid
    apply mapM_map
    intro info member
    have here := aligned.entries info.1 info.2 (Dictionary.get_of_mem distinct member)
    have reads : List.Forall₂ (fun i sample => samples[i]? = some sample) (uid.2.map Prod.snd) (uid.2.map Prod.fst) := by
      rw [forall₂_map_left_iff, forall₂_map_right_iff]
      apply forall₂_same.mpr
      intro place inside
      rw [(mem_groupSamples inSource inUid).2, Grouping.members_label, Grouping.members_label, map_id'] at inside
      exact mk_mem_zipIdx_iff_getElem?.mp (mem_of_mem_filter (mem_of_mem_filter inside))
    rw [here, items_read reads]
    rfl
  rw [processValidationMetrics, entries, ok_bind, places, perUid_map, values, ok_bind, perUid_map,
    groupsOf, owners, perUid_map]
  rfl

omit [Field K] [LinearOrder K] in
theorem get_columns {infos : ExtraInfos K} (column : String → List (Value K)) (key : String) :
    Dictionary.get (infos.map (fun info => (info.1, column info.1))) key =
      if key ∈ infos.map Prod.fst then some (column key) else none := by
  induction infos with
  | nil => rfl
  | cons info infos ih =>
    rw [map_cons, Dictionary.get_cons, ih]
    by_cases here : info.1 = key
    · subst here
      simp
    · have different : key ≠ info.1 := fun same => here same.symm
      rw [if_neg here]
      simp only [map_cons, mem_cons, different, false_or]

omit [Field K] [LinearOrder K] in
theorem has_of_valueOf {key : String} (other : key ≠ rewardKey) {sample : Sample K} (given : valueOf key sample ≠ .none) :
    Has key sample := by
  by_contra absent
  apply given
  rw [valueOf, if_neg other, Dictionary.get_none.mpr absent]
  rfl

omit [Field K] [LinearOrder K] in
theorem having_all {key : String} {group : List (Sample K)}
    (numbers : ∀ value ∈ group.map (valueOf key), ∃ number, value = .number number) : having key group = group := by
  apply filter_eq_self.mpr
  intro sample member
  rw [decide_eq_true_iff]
  by_cases reward : key = rewardKey
  · exact Or.inl reward
  · obtain ⟨number, isNumber⟩ := numbers _ (mem_map_of_mem member)
    exact Or.inr (has_of_valueOf reward (by simp [isNumber]))

omit [Field K] [LinearOrder K] in
theorem having_text {key text : String} {group : List (Sample K)}
    (first : (group.map (valueOf key)).head? = some (.text text)) :
    ((having key group).map (valueOf key)).head? = some (.text text) := by
  cases group with
  | nil => cases first
  | cons sample group =>
    have isText : valueOf key sample = .text text := Option.some.inj first
    have kept : key = rewardKey ∨ Has key sample := by
      by_cases reward : key = rewardKey
      · exact Or.inl reward
      · exact Or.inr (has_of_valueOf reward (by simp [isText]))
    simp only [having, filter_cons, kept, decide_true, if_true]
    exact first

theorem varMetrics_text {values : List (Value K)} {text : String} (first : values.head? = some (.text text))
    (predVals : Option (List (Value K))) : varMetrics sqrt choice values predVals = .ok none := by
  cases values with
  | nil => rfl
  | cons value rest =>
    cases first
    rfl

theorem uidMetrics_samples {infos : ExtraInfos K} {group : List (Sample K)} (filled : group ≠ [])
    (known : ∀ sample ∈ group, Has predKey sample → predKey ∈ infos.map Prod.fst)
    (averaged : ∀ key ∈ infos.map Prod.fst, Averaged (group.map (valueOf key))) :
    uidMetrics sqrt choice (infos.map (fun info => (info.1, group.map (valueOf info.1)))) =
      sampleMetrics sqrt choice (infos.map Prod.fst) group := by
  have voted : predKey ∈ infos.map Prod.fst ↔ ∃ sample ∈ group, Has predKey sample := by
    constructor
    · intro inside
      obtain ⟨sample, rest, rfl⟩ := exists_cons_of_ne_nil filled
      refine ⟨sample, mem_cons_self, has_of_valueOf (by decide) ?_⟩
      rcases averaged predKey inside with ⟨text, first⟩ | numbers
      · have isText : valueOf predKey sample = .text text := Option.some.inj first
        simp [isText]
      · obtain ⟨number, isNumber⟩ := numbers _ (mem_map_of_mem mem_cons_self)
        simp [isNumber]
    · rintro ⟨sample, member, has⟩
      exact known sample member has
  unfold uidMetrics sampleMetrics
  rw [List.mapM_map, List.mapM_map]
  congr 1
  apply mapM_congr
  intro info member
  have same : varMetrics sqrt choice (group.map (valueOf info.1))
      (Dictionary.get (infos.map (fun info => (info.1, group.map (valueOf info.1)))) predKey) =
      varMetrics sqrt choice ((having info.1 group).map (valueOf info.1))
        (if ∃ sample ∈ group, Has predKey sample then some ((having info.1 group).map (valueOf predKey)) else none) := by
    rcases averaged info.1 (mem_map_of_mem member) with ⟨text, first⟩ | numbers
    · rw [varMetrics_text sqrt choice first, varMetrics_text sqrt choice (having_text first)]
    · rw [having_all numbers, get_columns (fun key => group.map (valueOf key))]
      simp only [voted]
  simp only [Function.comp_apply, same]

theorem uidMetrics_ok_iff {infos : ExtraInfos K} (group : List (Sample K)) :
    (∃ metrics, uidMetrics sqrt choice (infos.map (fun info => (info.1, group.map (valueOf info.1)))) = .ok metrics) ↔
      ∀ key ∈ infos.map Prod.fst, Averaged (group.map (valueOf key)) := by
  have each : ∀ key, (∃ metrics, varMetrics sqrt choice (group.map (valueOf key))
      (Dictionary.get (infos.map (fun info => (info.1, group.map (valueOf info.1)))) predKey) = .ok metrics) ↔
      Averaged (group.map (valueOf key)) := by
    intro key
    apply varMetrics_ok_iff
    intro preds present
    rw [get_columns (fun key => group.map (valueOf key))] at present
    split at present
    · cases present
      rw [length_map, length_map]
    · cases present
  have loop : (∃ metrics, uidMetrics sqrt choice (infos.map (fun info => (info.1, group.map (valueOf info.1)))) = .ok metrics) ↔
      ∃ metrics, infos.mapM (fun info => do
        let metric ← varMetrics sqrt choice (group.map (valueOf info.1))
          (Dictionary.get (infos.map (fun info => (info.1, group.map (valueOf info.1)))) predKey)
        return (info.1, metric)) = (.ok metrics : Except Failure _) := by
    unfold uidMetrics
    rw [List.mapM_map]
    constructor
    · rintro ⟨metrics, returned⟩
      obtain ⟨values, each, _⟩ := bind_eq_ok.mp returned
      exact ⟨values, each⟩
    · rintro ⟨values, each⟩
      exact ⟨_, congrArg (· >>= _) each⟩
  rw [loop, mapM_ok_iff, forall_mem_map]
  refine forall₂_congr (fun info _ => ?_)
  rw [← each]
  constructor
  · rintro ⟨value, returned⟩
    obtain ⟨metric, here, _⟩ := bind_eq_ok.mp returned
    exact ⟨metric, here⟩
  · rintro ⟨metric, here⟩
    rw [here]
    exact ⟨_, rfl⟩

theorem metrics_iff {samples : List (Sample K)} {infos : ExtraInfos K} (distinct : (infos.map Prod.fst).Nodup)
    (aligned : Aligned samples infos) :
    (∃ metrics, processValidationMetrics sqrt choice (samples.map Sample.dataSource) (samples.map Sample.uid) infos =
        .ok metrics ∧ metricsOf sqrt choice (infos.map Prod.fst) samples = .ok metrics) ↔
      ∀ source ∈ groupsOf samples, ∀ uid ∈ source.2, ∀ key ∈ infos.map Prod.fst, Averaged (uid.2.map (valueOf key)) := by
  rw [process_samples sqrt choice distinct aligned]
  have defined : (∃ metrics, perUid (fun group => uidMetrics sqrt choice
      (infos.map (fun info => (info.1, group.map (valueOf info.1))))) (groupsOf samples) = .ok metrics) ↔
      ∀ source ∈ groupsOf samples, ∀ uid ∈ source.2, ∀ key ∈ infos.map Prod.fst, Averaged (uid.2.map (valueOf key)) := by
    rw [perUid_ok_iff]
    simp only [uidMetrics_ok_iff]
  rw [← defined]
  constructor
  · rintro ⟨metrics, returned, _⟩
    obtain ⟨values, each, _⟩ := bind_eq_ok.mp returned
    exact ⟨values, each⟩
  · rintro ⟨values, returned⟩
    have averaged := defined.mp ⟨values, returned⟩
    have same : perUid (fun group => uidMetrics sqrt choice (infos.map (fun info => (info.1, group.map (valueOf info.1)))))
        (groupsOf samples) = perUid (sampleMetrics sqrt choice (infos.map Prod.fst)) (groupsOf samples) := by
      apply perUid_congr
      intro source inSource uid inUid
      obtain ⟨filled, members⟩ := mem_groupsOf inSource inUid
      apply uidMetrics_samples sqrt choice filled
      · intro sample member has
        rw [members] at member
        exact aligned.known sample (mem_of_mem_filter member) predKey has
      · exact averaged source inSource uid inUid
    refine ⟨aggregate values, ?_, ?_⟩
    · rw [returned]
      rfl
    · rw [metricsOf, ← same, returned]
      rfl

/-! ### Validation -/

/-- The lists have an entry for each sample, the dump has what every output has, and the metrics are those of the samples
that have their keys. -/
def Validates (tokenizer : Tokenizer) (validationDataDir : Bool) (batches : List (Batch K)) : Prop :=
  ∃ outcome, validate sqrt choice tokenizer validationDataDir batches = .ok outcome ∧
    Aligned (samples batches) outcome.state.rewardExtraInfos ∧
    (validationDataDir = true → ∃ dumped, outcome.dumped = some dumped ∧ Dumped tokenizer batches dumped) ∧
    metricsOf sqrt choice (outcome.state.rewardExtraInfos.map Prod.fst) (samples batches) = .ok outcome.metrics

omit [Field K] [LinearOrder K] in
/-- Of every key that some sample has, the samples of a data source and a `uid` have numbers alone, or the first of them
has a text. -/
def Uniform (samples : List (Sample K)) : Prop :=
  ∀ sample ∈ samples, ∀ key, (∃ other ∈ samples, Has key other) →
    Averaged ((samples.filter (fun other => other.dataSource = sample.dataSource ∧ other.uid = sample.uid)).map (valueOf key))

omit [LinearOrder K] in
theorem infosOf_keys (tokenizer : Tokenizer) {batches : List (Batch K)} (noReward : NoReward batches) (tidy : Tidy batches)
    {key : String} (member : key ∈ (infosOf tokenizer batches).map Prod.fst) :
    key = rewardKey ∨ ∃ sample ∈ samples batches, Has key sample := by
  by_cases reward : key = rewardKey
  · exact Or.inl reward
  · right
    cases filled_or_behind tokenizer noReward with
    | inr behind => exact absurd tidy behind.1
    | inl filled =>
      by_contra unknown
      have absent := filled.2 key reward
      rw [if_neg unknown] at absent
      exact Dictionary.get_none.mp absent member

omit [LinearOrder K] in
theorem uniform_iff (tokenizer : Tokenizer) {batches : List (Batch K)} (noReward : NoReward batches) (tidy : Tidy batches) :
    (∀ source ∈ groupsOf (samples batches), ∀ uid ∈ source.2, ∀ key ∈ (infosOf tokenizer batches).map Prod.fst,
      Averaged (uid.2.map (valueOf key))) ↔ Uniform (samples batches) := by
  have aligned := (aligned_iff tokenizer batches).mpr ⟨noReward, tidy⟩
  constructor
  · intro averaged sample member key known
    obtain ⟨other, among, has⟩ := known
    obtain ⟨source, inSource, uid, inUid, ofSource, ofUid⟩ := exists_groupsOf member
    have group := averaged source inSource uid inUid key (aligned.known other among key has)
    rw [(mem_groupsOf inSource inUid).2] at group
    simpa only [ofSource, ofUid] using group
  · intro uniform source inSource uid inUid key isKey
    obtain ⟨filled, members⟩ := mem_groupsOf inSource inUid
    cases infosOf_keys tokenizer noReward tidy isKey with
    | inl reward =>
      right
      intro value member
      obtain ⟨sample, _, rfl⟩ := mem_map.mp member
      exact ⟨sample.score, if_pos reward⟩
    | inr known =>
      obtain ⟨sample, member⟩ := exists_mem_of_ne_nil _ filled
      have inGroup := member
      rw [members, mem_filter, decide_eq_true_iff] at inGroup
      obtain ⟨inSamples, ofSource, ofUid⟩ := inGroup
      have group := uniform sample inSamples key known
      rw [members]
      simpa only [ofSource, ofUid] using group

theorem validate_steps (tokenizer : Tokenizer) (validationDataDir : Bool) (batches : List (Batch K)) :
    validate sqrt choice tokenizer validationDataDir batches =
      (maybeDump validationDataDir (collect tokenizer batches) >>= fun dumped =>
        processValidationMetrics sqrt choice (collect tokenizer batches).dataSources (collect tokenizer batches).sampleUids
          (collect tokenizer batches).rewardExtraInfos >>= fun metrics =>
        .ok ⟨collect tokenizer batches, dumped, metrics⟩) := rfl

theorem validates_parts (tokenizer : Tokenizer) (validationDataDir : Bool) (batches : List (Batch K)) :
    Validates sqrt choice tokenizer validationDataDir batches ↔ Aligned (samples batches) (infosOf tokenizer batches) ∧
      (validationDataDir = true → ∃ dumped, dump (collect tokenizer batches) = .ok dumped ∧ Dumped tokenizer batches dumped) ∧
      ∃ metrics, processValidationMetrics sqrt choice ((samples batches).map Sample.dataSource)
          ((samples batches).map Sample.uid) (infosOf tokenizer batches) = .ok metrics ∧
        metricsOf sqrt choice ((infosOf tokenizer batches).map Prod.fst) (samples batches) = .ok metrics := by
  have columns := collected tokenizer batches
  constructor
  · rintro ⟨outcome, returned, aligned, dumped, metrics⟩
    rw [validate_steps] at returned
    obtain ⟨written, isWritten, returned⟩ := bind_eq_ok.mp returned
    obtain ⟨computed, isComputed, returned⟩ := bind_eq_ok.mp returned
    cases returned
    rw [columns.sources, columns.uids] at isComputed
    refine ⟨aligned, ?_, computed, isComputed, metrics⟩
    intro wanted
    obtain ⟨dumped, isDumped, holds⟩ := dumped wanted
    cases isDumped
    rw [maybeDump, if_pos wanted] at isWritten
    obtain ⟨found, returned, same⟩ := map_eq_ok.mp isWritten
    exact ⟨found, returned, (Option.some.inj same).symm ▸ holds⟩
  · rintro ⟨aligned, dumped, metrics, isComputed, isExpected⟩
    rw [← columns.sources, ← columns.uids] at isComputed
    cases validationDataDir with
    | false =>
      refine ⟨⟨collect tokenizer batches, none, metrics⟩, ?_, aligned, fun wanted => absurd wanted (by decide), isExpected⟩
      rw [validate_steps, maybeDump, if_neg (by decide), ok_bind]
      exact congrArg (· >>= fun metrics => Except.ok (Outcome.mk (collect tokenizer batches) none metrics)) isComputed
    | true =>
      obtain ⟨dumped, returned, holds⟩ := dumped rfl
      refine ⟨⟨collect tokenizer batches, some dumped, metrics⟩, ?_, aligned, fun _ => ⟨dumped, rfl, holds⟩, isExpected⟩
      rw [validate_steps, maybeDump, if_pos rfl, returned]
      exact congrArg (· >>= fun metrics => Except.ok (Outcome.mk (collect tokenizer batches) (some dumped) metrics)) isComputed

theorem uniform_of_validates {tokenizer : Tokenizer} {validationDataDir : Bool} {batches : List (Batch K)}
    (validates : Validates sqrt choice tokenizer validationDataDir batches) : Uniform (samples batches) := by
  obtain ⟨aligned, _, metrics⟩ := (validates_parts sqrt choice tokenizer validationDataDir batches).mp validates
  obtain ⟨noReward, tidy⟩ := (aligned_iff tokenizer batches).mp aligned
  exact (uniform_iff tokenizer noReward tidy).mp
    ((metrics_iff sqrt choice (infosOf_distinct tokenizer batches) aligned).mp metrics)

/-- A validation does what it is for exactly if no sample has a key `reward`, no list is left behind, no extra info `uid`
is dumped, and no list of a `uid` holds `None` beside numbers. -/
theorem validates_iff (tokenizer : Tokenizer) (validationDataDir : Bool) {batches : List (Batch K)} (fresh : Fresh batches) :
    Validates sqrt choice tokenizer validationDataDir batches ↔
      NoReward batches ∧ Tidy batches ∧ (validationDataDir = true → Labelled batches) ∧ Uniform (samples batches) := by
  rw [validates_parts]
  constructor
  · rintro ⟨aligned, dumped, metrics⟩
    obtain ⟨noReward, tidy⟩ := (aligned_iff tokenizer batches).mp aligned
    refine ⟨noReward, tidy, fun wanted => (dumped_iff tokenizer fresh aligned).mp (dumped wanted), ?_⟩
    exact (uniform_iff tokenizer noReward tidy).mp
      ((metrics_iff sqrt choice (infosOf_distinct tokenizer batches) aligned).mp metrics)
  · rintro ⟨noReward, tidy, labelled, uniform⟩
    have aligned := (aligned_iff tokenizer batches).mpr ⟨noReward, tidy⟩
    refine ⟨aligned, fun wanted => (dumped_iff tokenizer fresh aligned).mpr (labelled wanted), ?_⟩
    exact (metrics_iff sqrt choice (infosOf_distinct tokenizer batches) aligned).mpr
      ((uniform_iff tokenizer noReward tidy).mpr uniform)

/-! ### Two data sources -/

/-- Every sample is the first one. -/
def firstIndices (size subsetSize : Nat) : List (List Nat) := if size = 0 then [] else [List.replicate subsetSize 0]

theorem firstIndices_inside : ∀ size subsetSize, ∀ sample ∈ firstIndices size subsetSize,
    sample.length = subsetSize ∧ ∀ i ∈ sample, i < size := by
  intro size subsetSize sample member
  unfold firstIndices at member
  split at member
  · cases member
  · cases mem_singleton.mp member
    refine ⟨length_replicate, fun i inside => ?_⟩
    rw [eq_of_mem_replicate inside]
    omega

def firstOnly : Choice := ⟨firstIndices, firstIndices_inside⟩

def byteTokenizer : Tokenizer := ⟨fun _ => "", 0⟩

def single (key : String) : Info ℚ := ⟨[(key, .number 1)], List.nodup_singleton key⟩

def outputFrom (uid dataSource key : String) : Key × Row ℚ :=
  (⟨uid, 0, 0⟩, ⟨[], [], uid, [], 0, none, dataSource, .dict (some (single key))⟩)

theorem outputs_distinct (key other : String) :
    ([outputFrom "a" "math" key, outputFrom "b" "code" other].map Prod.fst).Nodup := by
  have apart : (⟨"a", 0, 0⟩ : Key) ≠ ⟨"b", 0, 0⟩ := by decide
  exact nodup_cons.mpr ⟨fun inside => apart (mem_singleton.mp inside), nodup_singleton _⟩

/-- A sample of each of two data sources. -/
def twoSources (key other : String) : Batch ℚ :=
  ⟨[outputFrom "a" "math" key, outputFrom "b" "code" other], outputs_distinct key other, true, true, true⟩

def sampleFrom (uid dataSource key : String) : Sample ℚ := ⟨⟨uid, 0, 0⟩, uid, 0, none, dataSource, [(key, .number 1)]⟩

theorem twoSources_samples (key other : String) :
    samples [twoSources key other] = [sampleFrom "a" "math" key, sampleFrom "b" "code" other] := by
  have final : finals (twoSources key other).rows = (twoSources key other).rows := by
    apply filter_eq_self.mpr
    intro row member
    rw [decide_eq_true_iff]
    intro later among _
    simp only [twoSources, mem_cons, not_mem_nil, or_false] at member among
    rcases member with rfl | rfl <;> rcases among with rfl | rfl <;> exact le_refl 0
  rw [samples, flatMap_singleton, samplesOf, final]
  rfl

/-- Both data sources have the same key. -/
theorem validates_same : Validates (fun x : ℚ => x) firstOnly byteTokenizer true [twoSources "acc" "acc"] := by
  apply (validates_iff _ _ _ _ (List.pairwise_singleton _ _)).mpr
  have given : ∀ sample ∈ samples [twoSources "acc" "acc"], sample.info = [("acc", .number 1)] := by
    rw [twoSources_samples]
    simp [sampleFrom]
  have others : ∀ sample ∈ samples [twoSources "acc" "acc"], ∀ key, Has key sample → key = "acc" := by
    intro sample member key has
    rw [Has, given sample member] at has
    simpa using has
  refine ⟨?_, ?_, ?_, ?_⟩
  · intro sample member has
    exact absurd (others sample member _ has) (by decide)
  · intro i batch read
    rw [List.getElem?_singleton] at read
    split at read
    · cases read
      exact Or.inl rfl
    · cases read
  · intro _ batch _ row _ sample own has
    exact absurd (others sample own.1 _ has) (by decide)
  · intro sample _ key known
    obtain ⟨other, among, has⟩ := known
    cases others other among key has
    right
    intro value member
    obtain ⟨other, inside, rfl⟩ := List.mem_map.mp member
    refine ⟨1, ?_⟩
    rw [valueOf, if_neg (by decide), given other (List.mem_of_mem_filter inside)]
    rfl

/-- The data sources have a key each. -/
theorem not_validates : ¬ Validates (fun x : ℚ => x) firstOnly byteTokenizer false [twoSources "acc" "pass_rate"] := by
  intro validates
  have uniform := uniform_of_validates _ _ validates
  rw [twoSources_samples] at uniform
  have missing := uniform (sampleFrom "b" "code" "pass_rate") (by simp) "acc"
    ⟨sampleFrom "a" "math" "acc", List.mem_cons_self, List.mem_singleton_self _⟩
  have values : ([sampleFrom "a" "math" "acc", sampleFrom "b" "code" "pass_rate"].filter (fun other =>
      other.dataSource = "code" ∧ other.uid = "b")).map (valueOf "acc") = [.none] := by decide
  rcases missing with ⟨text, first⟩ | numbers
  · rw [show (sampleFrom "b" "code" "pass_rate").dataSource = "code" from rfl,
      show (sampleFrom "b" "code" "pass_rate").uid = "b" from rfl, values] at first
    cases first
  · obtain ⟨number, isNumber⟩ := numbers .none (values ▸ List.mem_singleton_self _)
    cases isNumber

end LLMFusion.Validation
