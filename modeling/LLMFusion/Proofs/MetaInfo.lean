import LLMFusion.Proofs.Protocol

/-! Merging the `meta_info` of the pieces of a batch, which all have the same one. It merges
in any number of copies when it does in two. -/

namespace LLMFusion.Protocol
open Fallible List

/-! ### Lists of dictionaries -/

section Dictionaries
variable {α : Type}

theorem appendAt_keys {output next : List (String × List α)} {entry : String × α}
    (returned : appendAt output entry = .ok next) : next.map Prod.fst = output.map Prod.fst := by
  induction output generalizing next with
  | nil => cases returned
  | cons column columns ih =>
    rw [appendAt] at returned
    split at returned
    · cases returned
      rfl
    · obtain ⟨rest, appended, rfl⟩ := map_eq_ok.mp returned
      rw [map_cons, map_cons, ih appended]

theorem appendAt_succeeds {output : List (String × List α)} {entry : String × α} :
    (∃ next, appendAt output entry = .ok next) ↔ entry.1 ∈ output.map Prod.fst := by
  induction output with
  | nil => simp [appendAt]
  | cons column columns ih =>
    rw [appendAt, map_cons, mem_cons]
    split
    · rename_i same
      exact iff_of_true ⟨_, rfl⟩ (Or.inl same.symm)
    · rename_i different
      rw [or_iff_right (fun same => different same.symm), ← ih]
      constructor
      · rintro ⟨next, returned⟩
        obtain ⟨rest, appended, _⟩ := map_eq_ok.mp returned
        exact ⟨rest, appended⟩
      · rintro ⟨rest, appended⟩
        exact ⟨column :: rest, map_eq_ok.mpr ⟨rest, appended, rfl⟩⟩

theorem listOfDict_succeeds {dicts : List (List (String × α))} : (∃ lists, listOfDictToDictOfList dicts = .ok lists) ↔
      ∀ dict ∈ dicts, ∀ entry ∈ dict, entry.1 ∈ (dicts.headD []).map Prod.fst := by
  cases dicts with
  | nil => simp [listOfDictToDictOfList]
  | cons first rest =>
    have keys : ∀ {output next : List (String × List α)} {dict : List (String × α)},
        dict.foldlM appendAt output = .ok next → next.map Prod.fst = output.map Prod.fst :=
      fun returned => foldlM_keeps (map Prod.fst) (fun _ _ _ => appendAt_keys) returned
    have inner : ∀ (output : List (String × List α)) (dict : List (String × α)),
        (∃ next, dict.foldlM appendAt output = .ok next) ↔ ∀ entry ∈ dict, entry.1 ∈ output.map Prod.fst :=
      fun output dict => foldlM_succeeds (map Prod.fst)
        (fun keys (entry : String × α) => entry.1 ∈ keys) (fun _ _ => appendAt_succeeds) (fun _ _ _ => appendAt_keys)
    have outer : ∀ (dicts : List (List (String × α))) (output : List (String × List α)),
        (∃ lists, dicts.foldlM (fun output data => data.foldlM appendAt output) output = .ok lists) ↔
          ∀ dict ∈ dicts, ∀ entry ∈ dict, entry.1 ∈ output.map Prod.fst :=
      fun dicts output => foldlM_succeeds (map Prod.fst)
        (fun keys (dict : List (String × α)) => ∀ entry ∈ dict, entry.1 ∈ keys) inner (fun _ _ _ => keys)
    rw [listOfDictToDictOfList, outer, map_map]
    rfl

end Dictionaries

/-! ### Entries -/

section Merging
variable {μ : Type} [Value μ]

def entryMetrics (entry : String × μ) : List μ :=
  if entry.1 = "metrics" then if Value.isNone entry.2 then [] else (Value.asList entry.2).getD [entry.2] else []

def mergeValue (metaInfo : List (String × μ)) (entry : String × μ) : Except Failure (List (String × μ)) :=
  if entry.1 = "metrics" then .ok metaInfo
  else match metaInfo.lookup entry.1 with
    | some value => if value == entry.2 then .ok metaInfo else .error (.conflictingMeta entry.1)
    | none => .ok (metaInfo ++ [entry])

theorem mergeEntry_eq (merged : Merged μ) (entry : String × μ) : mergeEntry merged entry =
      (mergeValue merged.metaInfo entry).map (fun metaInfo => ⟨metaInfo, merged.allMetrics ++ entryMetrics entry⟩) := by
  rw [mergeEntry, mergeValue, entryMetrics]
  by_cases metrics : entry.1 = "metrics"
  · simp only [metrics, ite_true, Except.map]
    by_cases isNone : Value.isNone entry.2 = true
    · simp [isNone]
    · cases items : Value.asList entry.2 <;> simp [isNone]
  · simp only [metrics, ite_false, append_nil]
    cases found : merged.metaInfo.lookup entry.1 with
    | none => rfl
    | some value =>
      cases same : value == entry.2
      · simp only [same, Bool.false_eq_true, ite_false]
        rfl
      · simp only [same, ite_true]
        rfl

theorem mergeEntries_eq (entries : List (String × μ)) (merged : Merged μ) : entries.foldlM mergeEntry merged =
      (entries.foldlM mergeValue merged.metaInfo).map (fun metaInfo =>
        ⟨metaInfo, merged.allMetrics ++ entries.flatMap entryMetrics⟩) := by
  induction entries generalizing merged with
  | nil =>
    simp only [flatMap_nil, append_nil]
    rfl
  | cons entry entries ih =>
    rw [foldlM_cons, foldlM_cons, mergeEntry_eq]
    cases mergeValue merged.metaInfo entry with
    | error error => rfl
    | ok metaInfo =>
      have rest := ih ⟨metaInfo, merged.allMetrics ++ entryMetrics entry⟩
      rwa [append_assoc, ← flatMap_cons] at rest

def MetricsMerge (metrics : List μ) : Prop :=
  ∀ item ∈ metrics, ∃ dict, Value.asDict item = some dict ∧
    ∀ entry ∈ dict, entry.1 ∈ ((metrics.head?.bind Value.asDict).getD []).map Prod.fst

theorem requireDict_eq_ok {item : μ} {dict : List (String × μ)} :
    requireDict item = .ok dict ↔ Value.asDict item = some dict := by
  rw [requireDict]
  cases Value.asDict item <;> simp

theorem metrics_succeed {metrics : List μ} :
    (∃ dicts, metrics.mapM requireDict = .ok dicts ∧ ∃ lists, listOfDictToDictOfList dicts = .ok lists) ↔
      MetricsMerge metrics := by
  have first : ∀ {dicts}, List.Forall₂ (fun item dict => requireDict item = .ok dict) metrics dicts →
      (metrics.head?.bind Value.asDict).getD [] = dicts.headD [] := by
    intro dicts each
    cases each with
    | nil => rfl
    | cons head _ => simp [requireDict_eq_ok.mp head]
  constructor
  · rintro ⟨dicts, read, listed⟩
    have each := mapM_succeeded read
    intro item member
    obtain ⟨dict, isDict, isRead⟩ := forall₂_left each member
    rw [first each]
    exact ⟨dict, requireDict_eq_ok.mp isRead, listOfDict_succeeds.mp listed dict isDict⟩
  · intro merge
    obtain ⟨dicts, read, related⟩ := mapM_ok requireDict (fun item dict => requireDict item = .ok dict ∧
        ∀ entry ∈ dict, entry.1 ∈ ((metrics.head?.bind Value.asDict).getD []).map Prod.fst) (by
      intro item member
      obtain ⟨dict, isDict, keys⟩ := merge item member
      have read := requireDict_eq_ok.mpr isDict
      exact ⟨dict, read, read, keys⟩)
    have each := mapM_succeeded read
    refine ⟨dicts, read, listOfDict_succeeds.mpr ?_⟩
    intro dict isDict
    obtain ⟨item, _, _, keys⟩ := forall₂_right related isDict
    rwa [first each] at keys

theorem mergeMetaInfo_succeeds {metaInfos : List (List (String × μ))} : (∃ merged, mergeMetaInfo metaInfos = .ok merged) ↔
      (∃ metaInfo, metaInfos.flatten.foldlM mergeValue [] = .ok metaInfo) ∧
        MetricsMerge (metaInfos.flatten.flatMap entryMetrics) := by
  rw [mergeMetaInfo, mergeEntries_eq, ← metrics_succeed]
  cases metaInfos.flatten.foldlM mergeValue [] with
  | error error => simp [Except.map]
  | ok metaInfo =>
    cases isMetrics : metaInfos.flatten.flatMap entryMetrics with
    | nil =>
      apply iff_of_true
      · exact ⟨metaInfo, rfl⟩
      · exact ⟨⟨metaInfo, rfl⟩, [], rfl, [], rfl⟩
    | cons item items =>
      simp only [Except.map, ok_bind, nil_append, isEmpty_cons, Bool.false_eq_true, ite_false]
      constructor
      · rintro ⟨merged, returned⟩
        obtain ⟨dicts, read, returned⟩ := bind_eq_ok.mp returned
        obtain ⟨lists, listed, _⟩ := bind_eq_ok.mp returned
        exact ⟨⟨metaInfo, rfl⟩, dicts, read, lists, listed⟩
      · rintro ⟨_, dicts, read, lists, listed⟩
        rw [read, ok_bind, listed]
        exact ⟨_, rfl⟩

/-! ### Copies -/

def Known (metaInfo : List (String × μ)) (entry : String × μ) : Prop :=
  entry.1 ≠ "metrics" → (metaInfo.lookup entry.1).isSome

theorem mergeValue_known {metaInfo next : List (String × μ)} {entry : String × μ} (known : Known metaInfo entry)
    (returned : mergeValue metaInfo entry = .ok next) : next = metaInfo := by
  rw [mergeValue] at returned
  by_cases metrics : entry.1 = "metrics"
  · rw [if_pos metrics] at returned
    cases returned
    rfl
  · obtain ⟨value, found⟩ := Option.isSome_iff_exists.mp (known metrics)
    rw [if_neg metrics, found] at returned
    cases same : value == entry.2
    · simp [same] at returned
    · simpa [same] using returned.symm

theorem mergeValue_keeps {metaInfo next : List (String × μ)} {entry other : String × μ} (known : Known metaInfo other)
    (returned : mergeValue metaInfo entry = .ok next) : Known next other := by
  by_cases here : Known metaInfo entry
  · rwa [mergeValue_known here returned]
  · rw [Known, Classical.not_imp] at here
    rw [mergeValue, if_neg here.1, Option.not_isSome_iff_eq_none.mp here.2] at returned
    cases returned
    intro name
    rw [lookup_append]
    simp [known name]

theorem mergeValue_adds {metaInfo next : List (String × μ)} {entry : String × μ}
    (returned : mergeValue metaInfo entry = .ok next) : Known next entry := by
  by_cases here : Known metaInfo entry
  · exact mergeValue_keeps here returned
  · rw [Known, Classical.not_imp] at here
    rw [mergeValue, if_neg here.1, Option.not_isSome_iff_eq_none.mp here.2] at returned
    cases returned
    intro _
    rw [lookup_append]
    simp

variable {entries metaInfo next : List (String × μ)}

theorem mergeValues_known (known : ∀ entry ∈ entries, Known metaInfo entry)
    (returned : entries.foldlM mergeValue metaInfo = .ok next) : next = metaInfo := by
  induction entries with
  | nil =>
    cases returned
    rfl
  | cons entry entries ih =>
    rw [foldlM_cons] at returned
    obtain ⟨middle, first, rest⟩ := bind_eq_ok.mp returned
    obtain rfl := mergeValue_known (known entry mem_cons_self) first
    exact ih (fun other member => known other (mem_cons_of_mem _ member)) rest

theorem mergeValues_keeps {other : String × μ} (known : Known metaInfo other)
    (returned : entries.foldlM mergeValue metaInfo = .ok next) : Known next other := by
  induction entries generalizing metaInfo with
  | nil =>
    cases returned
    exact known
  | cons entry entries ih =>
    rw [foldlM_cons] at returned
    obtain ⟨middle, first, rest⟩ := bind_eq_ok.mp returned
    exact ih (mergeValue_keeps known first) rest

theorem mergeValues_adds
    (returned : entries.foldlM mergeValue metaInfo = .ok next) : ∀ entry ∈ entries, Known next entry := by
  induction entries generalizing metaInfo with
  | nil => simp
  | cons entry entries ih =>
    rw [foldlM_cons] at returned
    obtain ⟨middle, first, rest⟩ := bind_eq_ok.mp returned
    intro other member
    rcases mem_cons.mp member with rfl | later
    · exact mergeValues_keeps (mergeValue_adds first) rest
    · exact ih rest other later

theorem mergeValues_copies {entries : List (String × μ)} (copies : Nat) :
    (∃ metaInfo, (replicate (copies + 2) entries).flatten.foldlM mergeValue [] = .ok metaInfo) ↔
      ∃ metaInfo, (replicate 2 entries).flatten.foldlM mergeValue [] = .ok metaInfo := by
  have parts : (replicate (copies + 2) entries).flatten =
      (replicate 2 entries).flatten ++ (replicate copies entries).flatten := by
    rw [Nat.add_comm, replicate_add, flatten_append]
  rw [parts, foldlM_append]
  constructor
  · rintro ⟨metaInfo, returned⟩
    obtain ⟨middle, first, _⟩ := bind_eq_ok.mp returned
    exact ⟨middle, first⟩
  · rintro ⟨metaInfo, returned⟩
    have second : entries.foldlM mergeValue metaInfo = .ok metaInfo := by
      have twice : (replicate 2 entries).flatten = entries ++ entries := by simp
      have again := returned
      rw [twice, foldlM_append] at again
      obtain ⟨middle, first, again⟩ := bind_eq_ok.mp again
      obtain rfl := mergeValues_known (mergeValues_adds first) again
      exact again
    refine ⟨metaInfo, ?_⟩
    rw [returned, ok_bind]
    clear returned parts
    induction copies with
    | zero => rfl
    | succ copies ih => rw [replicate_succ, flatten_cons, foldlM_append, second, ok_bind, ih]

theorem metricsMerge_copies {entries : List (String × μ)} (copies : Nat) :
    MetricsMerge ((replicate (copies + 1) entries).flatten.flatMap entryMetrics) ↔
      MetricsMerge (entries.flatMap entryMetrics) := by
  have members : ∀ item, item ∈ (replicate (copies + 1) entries).flatten.flatMap entryMetrics ↔
      item ∈ entries.flatMap entryMetrics := by
    intro item
    simp [mem_flatMap, mem_flatten, mem_replicate]
  have first : ((replicate (copies + 1) entries).flatten.flatMap entryMetrics).head? =
      (entries.flatMap entryMetrics).head? := by
    cases isMetrics : entries.flatMap entryMetrics with
    | nil =>
      rw [isMetrics] at members
      rw [eq_nil_iff_forall_not_mem.mpr (fun item member => not_mem_nil ((members item).mp member))]
    | cons item items =>
      rw [replicate_succ, flatten_cons, flatMap_append, isMetrics]
      rfl
  simp only [MetricsMerge, members, first]

theorem mergeMetaInfo_copies {metaInfo : List (String × μ)} {copies : Nat} (some : 0 < copies) :
    (∃ merged, mergeMetaInfo (replicate copies metaInfo) = .ok merged) ↔
      ∃ merged, mergeMetaInfo (replicate (min 2 copies) metaInfo) = .ok merged := by
  cases copies with
  | zero => cases some
  | succ copies =>
    cases copies with
    | zero => rfl
    | succ copies =>
      rw [Nat.min_eq_left (Nat.le_add_left 2 copies), mergeMetaInfo_succeeds, mergeMetaInfo_succeeds,
        mergeValues_copies copies, metricsMerge_copies (copies + 1), metricsMerge_copies 1]

theorem mergeMetaInfo_fewer {metaInfo : List (String × μ)} {fewer copies : Nat} (some : 0 < fewer) (less : fewer ≤ copies)
    (merges : ∃ merged, mergeMetaInfo (replicate copies metaInfo) = .ok merged) :
    ∃ merged, mergeMetaInfo (replicate fewer metaInfo) = .ok merged := by
  obtain ⟨fewer, rfl⟩ := Nat.exists_eq_succ_of_ne_zero (Nat.ne_of_gt some)
  obtain ⟨others, rfl⟩ := Nat.exists_eq_add_of_le less
  obtain ⟨⟨merged, returned⟩, metrics⟩ := mergeMetaInfo_succeeds.mp merges
  rw [replicate_add, flatten_append, foldlM_append] at returned
  obtain ⟨middle, first, _⟩ := bind_eq_ok.mp returned
  rw [Nat.succ_add, metricsMerge_copies (fewer + others)] at metrics
  exact mergeMetaInfo_succeeds.mpr ⟨⟨middle, first⟩, (metricsMerge_copies fewer).mpr metrics⟩

end Merging

end LLMFusion.Protocol
