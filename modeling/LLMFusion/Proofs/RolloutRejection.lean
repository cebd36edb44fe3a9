import LLMFusion.RolloutCorrHelper
import LLMFusion.Lib.Fallible

/-! What the rejection mask of several options is made of. Every option decides about a token by a
statistic of its own, which no other option changes; so the options commute, and each of them only
takes tokens away. -/

namespace LLMFusion.RolloutCorrHelper
open List hiding Vector
open TorchFunctional CoreAlgos Groupwise Fallible

section Loop
variable {K : Type} [Field K] [LinearOrder K] (py : Functions K)

def decisive (option : RsOption) (row : List (K × Bool)) (token : K × Bool) : K :=
  let values := row.map (fun entry => (tokenStat py entry.1 option.estimator, entry.2))
  match option.aggregation with
  | .token => tokenStat py token.1 option.estimator
  | .sum => maskedSum values
  | .mean => maskedMean values
  | .max => ((values.filter Prod.snd).map Prod.fst).max?.getD 0

theorem decisive_sequence {option : RsOption} (sequence : option.level = .sequence) (row : List (K × Bool))
    (token other : K × Bool) : decisive py option row token = decisive py option row other := by
  cases option <;> first | rfl | cases sequence

theorem zipWith_map_self {α β γ : Type} (f : β → α → γ) (g : α → β) (items : List α) :
    zipWith f (items.map g) items = items.map (fun item => f (g item) item) := by
  rw [zipWith_map_left, zipWith_self]

theorem sequenceMax_eq {values : List (K × Bool)} {most : K} (returned : sequenceMax values = .ok most) :
    most = ((values.filter Prod.snd).map Prod.fst).max?.getD 0 := by
  rw [sequenceMax] at returned
  split at returned
  · cases returned
  · cases returned
    rfl

theorem perTokenStat_eq {option : RsOption} {rows : List (List (K × Bool))} {seqStats : Option (List K)}
    (returned : sequenceStats py option rows = .ok seqStats) : perTokenStat py option rows seqStats =
      rows.map (fun row => row.map (fun token => (decisive py option row token, token.2))) := by
  unfold sequenceStats at returned
  unfold decisive
  cases aggregated : option.aggregation with
  | token =>
    rw [aggregated] at returned
    cases returned
    rfl
  | sum =>
    rw [aggregated] at returned
    cases returned
    rw [perTokenStat, map_map, zipWith_map_self]
    rfl
  | mean =>
    rw [aggregated] at returned
    cases returned
    rw [perTokenStat, map_map, zipWith_map_self]
    rfl
  | max =>
    rw [aggregated] at returned
    obtain ⟨stats, found, rfl⟩ := map_eq_ok.mp returned
    have each := mapM_succeeded found
    have stats_eq : stats = rows.map (fun row =>
        (((row.map (fun entry => (tokenStat py entry.1 option.estimator, entry.2))).filter Prod.snd).map Prod.fst).max?.getD 0) := by
      rw [forall₂_map_left_iff] at each
      clear found returned
      induction each with
      | nil => rfl
      | cons first _ ih => rw [map_cons, ← ih, ← sequenceMax_eq first]
    rw [stats_eq, perTokenStat, zipWith_map_self]

def accepts (entry : RsOption × Thresholds K) (row : List (K × Bool)) (token : K × Bool) : Bool :=
  match boundsOf py entry.1 entry.2 with
  | .ok bounds => bounds.keep (decisive py entry.1 row token)
  | .error _ => false

def acceptedMask (entry : RsOption × Thresholds K) (rows : List (List (K × Bool))) : List (List Bool) :=
  rows.map (fun row => row.map (accepts py entry row))

theorem accepts_eq {entry : RsOption × Thresholds K} {bounds : Bounds K} (bounded : boundsOf py entry.1 entry.2 = .ok bounds)
    (row : List (K × Bool)) : accepts py entry row = fun token => bounds.keep (decisive py entry.1 row token) := by
  funext token
  simp only [accepts, bounded]

def optionMetrics (rows : List (List (K × Bool))) (entry : RsOption × Thresholds K) : Except Failure (Metrics K) := do
  let next ← applyOption py rows ⟨[], []⟩ entry
  return next.metrics

theorem applyOption_eq (rows : List (List (K × Bool))) (state : RejectionState K) (entry : RsOption × Thresholds K) :
    applyOption py rows state entry = (optionMetrics py rows entry).map (fun metrics =>
      ⟨meet state.combinedMask (acceptedMask py entry rows), state.metrics ++ metrics⟩) := by
  unfold optionMetrics applyOption
  cases bounded : boundsOf py entry.1 entry.2 with
  | error failure => rfl
  | ok bounds =>
    simp only [ok_bind]
    cases found : sequenceStats py entry.1 rows with
    | error failure => rfl
    | ok seqStats =>
      simp only [ok_bind, perTokenStat_eq py found]
      cases computeRsMetrics py.sqrt entry.1.name
          (rows.map (fun row => row.map (fun token => (decisive py entry.1 row token, token.2)))) entry.1.level seqStats
          bounds.upper (bounds.lower.getD 0) (entry.1.estimator == .k1) with
      | error failure => rfl
      | ok metrics =>
        have mask : acceptedMask py entry rows = (rows.map (fun row => row.map (fun token =>
            (decisive py entry.1 row token, token.2)))).map (map (fun token => bounds.keep token.1)) := by
          simp only [acceptedMask, accepts_eq py bounded, map_map, Function.comp_def]
        simp only [ok_bind, mask]
        simp only [pure, Except.pure, ok_bind, Except.map, nil_append, append_assoc]

theorem foldlM_applyOption (rows : List (List (K × Bool))) (entries : List (RsOption × Thresholds K))
    (state : RejectionState K) :
    entries.foldlM (applyOption py rows) state = (entries.mapM (optionMetrics py rows)).map (fun metrics =>
      ⟨entries.foldl (fun mask entry => meet mask (acceptedMask py entry rows)) state.combinedMask,
        state.metrics ++ metrics.flatten⟩) := by
  induction entries generalizing state with
  | nil =>
    rw [mapM_nil, foldlM_nil]
    simp only [pure, Except.pure, Except.map, foldl_nil, flatten_nil, append_nil]
  | cons entry entries ih =>
    rw [foldlM_cons, mapM_cons, applyOption_eq]
    cases optionMetrics py rows entry with
    | error failure => rfl
    | ok metrics =>
      simp only [Except.map, ok_bind]
      rw [ih]
      cases entries.mapM (optionMetrics py rows) with
      | error failure => rfl
      | ok others =>
        simp only [Except.map, ok_bind, pure, Except.pure, foldl_cons, flatten_cons, append_assoc]

/-- What is left of the response mask when every one of the conditions has to hold. -/
def leaves (rows : List (List (K × Bool))) (conditions : List (List (K × Bool) → K × Bool → Bool)) : List (List Bool) :=
  rows.map (fun row => row.map (fun token => token.2 && conditions.all (fun condition => condition row token)))

omit [Field K] [LinearOrder K] in
theorem meet_map (rows : List (List (K × Bool))) (f g : List (K × Bool) → K × Bool → Bool) :
    meet (rows.map (fun row => row.map (f row))) (rows.map (fun row => row.map (g row))) =
      rows.map (fun row => row.map (fun token => f row token && g row token)) := by
  unfold meet
  rw [zipWith_map, zipWith_self]
  apply map_congr_left
  intro row _
  rw [zipWith_map, zipWith_self]

omit [Field K] [LinearOrder K] in
theorem meet_fold (rows : List (List (K × Bool))) (base : List (K × Bool) → K × Bool → Bool)
    (conditions : List (List (K × Bool) → K × Bool → Bool)) :
    conditions.foldl (fun mask condition => meet mask (rows.map (fun row => row.map (condition row))))
        (rows.map (fun row => row.map (base row))) =
      rows.map (fun row => row.map (fun token => base row token && conditions.all (fun condition => condition row token))) := by
  induction conditions generalizing base with
  | nil => simp only [foldl_nil, all_nil, Bool.and_true]
  | cons condition conditions ih =>
    rw [foldl_cons, meet_map, ih]
    simp only [all_cons, Bool.and_assoc]

theorem meet_accepted (rows : List (List (K × Bool))) (entries : List (RsOption × Thresholds K)) :
    meet (rows.map (map Prod.snd)) (entries.foldl (fun mask entry => meet mask (acceptedMask py entry rows))
        ((rows.map (map Prod.snd)).map (map (fun _ => true)))) = leaves rows (entries.map (accepts py)) := by
  have start : (rows.map (map Prod.snd)).map (map (fun _ => true)) =
      rows.map (fun row => row.map (fun _ => true)) := by
    simp only [map_map, Function.comp_def]
  have folded := meet_fold rows (fun _ _ => true) (entries.map (accepts py))
  rw [foldl_map] at folded
  rw [start]
  calc meet (rows.map (map Prod.snd)) (entries.foldl (fun mask entry => meet mask (acceptedMask py entry rows))
          (rows.map (fun row => row.map (fun _ => true))))
      = meet (rows.map (fun row => row.map (fun token => token.2))) (rows.map (fun row => row.map (fun token =>
          true && (entries.map (accepts py)).all (fun condition => condition row token)))) := congrArg (meet _) folded
    _ = leaves rows (entries.map (accepts py)) := by
        rw [meet_map]
        simp only [Bool.true_and]
        rfl

end Loop

/-! ### Calls -/

section Calls
variable {K : Type} [Field K] [LinearOrder K] (py : Functions K)

/-- The options that a call asks for, each with its own threshold. -/
def requested (rolloutRs : String) (spec : ThresholdSpec K) : Except Failure (List (RsOption × String)) := do
  let options ← normalizedOptions rolloutRs
  let specs ← rawSpecs py options.length spec
  return options.zip specs

/-- The threshold of one option as that of a call. -/
def ownSpec : ThresholdSpec K → String → ThresholdSpec K
  | .text _, piece => .text piece
  | spec, _ => spec

def admits (pair : RsOption × String) (row : List (K × Bool)) (token : K × Bool) : Bool :=
  match optionThresholds py pair.1 pair.2 with
  | .ok thresholds => accepts py (pair.1, thresholds) row token
  | .error _ => false

def pairMetrics (rows : List (List (K × Bool))) (pair : RsOption × String) : Except Failure (Metrics K) := do
  let thresholds ← optionThresholds py pair.1 pair.2
  optionMetrics py rows (pair.1, thresholds)

def readEntry (pair : RsOption × String) : Except Failure (RsOption × Thresholds K) := do
  let thresholds ← optionThresholds py pair.1 pair.2
  return (pair.1, thresholds)

variable {pair : RsOption × String}

theorem readEntry_ok {entry : RsOption × Thresholds K} (read : readEntry py pair = .ok entry) :
    optionThresholds py pair.1 pair.2 = .ok entry.2 ∧ entry.1 = pair.1 := by
  obtain ⟨thresholds, parsed, returned⟩ := bind_eq_ok.mp read
  cases returned
  exact ⟨parsed, rfl⟩

theorem accepts_admits {entry : RsOption × Thresholds K} (read : readEntry py pair = .ok entry) :
    accepts py entry = admits py pair := by
  obtain ⟨parsed, same⟩ := readEntry_ok py read
  funext row token
  rw [admits, parsed, ← same]

theorem pairMetrics_read {rows : List (List (K × Bool))} {entry : RsOption × Thresholds K}
    (read : readEntry py pair = .ok entry) : pairMetrics py rows pair = optionMetrics py rows entry := by
  obtain ⟨parsed, same⟩ := readEntry_ok py read
  rw [pairMetrics, parsed, ok_bind, ← same]

variable {width : Nat} {batch : List (Vector (K × Bool) width)} {rolloutRs : String} {spec : ThresholdSpec K}
  {pairs : List (RsOption × String)}

theorem accepts_map {entries : List (RsOption × Thresholds K)} (read : pairs.mapM (readEntry py) = .ok entries) :
    entries.map (accepts py) = pairs.map (admits py) := by
  have each := mapM_succeeded read
  clear read
  induction each with
  | nil => rfl
  | cons first _ ih => rw [map_cons, map_cons, accepts_admits py first, ih]

omit [Field K] [LinearOrder K] in
theorem rawSpecs_given {options : Nat} {specs : List String} (raw : rawSpecs py options spec = .ok specs) : ¬ spec.isNone := by
  cases spec with
  | absent => cases raw
  | boolean _ => exact Bool.false_ne_true
  | number _ => exact Bool.false_ne_true
  | text _ => exact Bool.false_ne_true

theorem parse_eq {options : List RsOption} {specs : List String} (raw : rawSpecs py options.length spec = .ok specs) :
    parseRolloutRsThresholds py options spec = (options.zip specs).mapM (readEntry py) := by
  rw [parseRolloutRsThresholds, raw]
  rfl

section
variable (asked : requested py rolloutRs spec = .ok pairs)
include asked

theorem compute_eq (nonempty : batch.map Vector.toList ≠ []) :
    (computeRolloutRejectionMask py batch rolloutRs spec).map Prod.fst = (do
      let entries ← pairs.mapM (readEntry py)
      let _ ← entries.mapM (optionMetrics py (batch.map Vector.toList))
      return leaves (batch.map Vector.toList) (entries.map (accepts py))) := by
  obtain ⟨options, normalized, asked⟩ := bind_eq_ok.mp asked
  obtain ⟨specs, raw, asked⟩ := bind_eq_ok.mp asked
  cases asked
  have given := rawSpecs_given py raw
  unfold computeRolloutRejectionMask
  simp only [if_neg given, if_neg nonempty, normalized, ok_bind, parse_eq py raw, foldlM_applyOption]
  cases (options.zip specs).mapM (readEntry py) with
  | error failure => rfl
  | ok entries =>
    simp only [ok_bind]
    cases entries.mapM (optionMetrics py (batch.map Vector.toList)) with
    | error failure => rfl
    | ok metrics => exact congrArg Except.ok (meet_accepted py _ entries)

theorem compute_empty (empty : batch.map Vector.toList = []) :
    computeRolloutRejectionMask py batch rolloutRs spec = .ok ([], []) := by
  obtain ⟨options, normalized, asked⟩ := bind_eq_ok.mp asked
  obtain ⟨specs, raw, asked⟩ := bind_eq_ok.mp asked
  have given := rawSpecs_given py raw
  unfold computeRolloutRejectionMask
  simp only [if_neg given, empty]
  rfl

theorem compute_mask {mask : List (List Bool)} {metrics : Metrics K}
    (returned : computeRolloutRejectionMask py batch rolloutRs spec = .ok (mask, metrics)) :
    mask = leaves (batch.map Vector.toList) (pairs.map (admits py)) := by
  by_cases empty : batch.map Vector.toList = []
  · rw [compute_empty py asked empty] at returned
    cases returned
    rw [empty]
    rfl
  · have mapped := compute_eq py asked empty
    rw [returned] at mapped
    obtain ⟨entries, read, mapped⟩ := bind_eq_ok.mp mapped.symm
    obtain ⟨_, _, mapped⟩ := bind_eq_ok.mp mapped
    cases mapped
    exact congrArg (leaves _) (accepts_map py read)

theorem compute_returns : (∃ result, computeRolloutRejectionMask py batch rolloutRs spec = .ok result) ↔
      batch.map Vector.toList = [] ∨ ∀ pair ∈ pairs, ∃ metrics, pairMetrics py (batch.map Vector.toList) pair = .ok metrics := by
  by_cases empty : batch.map Vector.toList = []
  · exact iff_of_true ⟨_, compute_empty py asked empty⟩ (.inl empty)
  · rw [or_iff_right empty]
    have mapped := compute_eq py asked empty
    constructor
    · rintro ⟨result, returned⟩ pair member
      rw [returned] at mapped
      obtain ⟨entries, read, mapped⟩ := bind_eq_ok.mp mapped.symm
      obtain ⟨metrics, applied, _⟩ := bind_eq_ok.mp mapped
      obtain ⟨entry, inside, read⟩ := forall₂_left (mapM_succeeded read) member
      obtain ⟨metric, _, applied⟩ := forall₂_left (mapM_succeeded applied) inside
      exact ⟨metric, (pairMetrics_read py read).trans applied⟩
    · intro works
      obtain ⟨entries, read, related⟩ := mapM_ok (readEntry py) (fun pair entry => readEntry py pair = .ok entry)
        (fun pair member => by
          obtain ⟨metrics, works⟩ := works pair member
          obtain ⟨thresholds, parsed, _⟩ := bind_eq_ok.mp works
          have entry : readEntry py pair = .ok (pair.1, thresholds) := by
            rw [readEntry, parsed]
            rfl
          exact ⟨_, entry, entry⟩)
      have succeeds : ∀ entry ∈ entries, ∃ metrics, optionMetrics py (batch.map Vector.toList) entry = .ok metrics ∧ True := by
        intro entry inside
        obtain ⟨pair, member, read⟩ := forall₂_right related inside
        obtain ⟨metrics, works⟩ := works pair member
        exact ⟨metrics, (pairMetrics_read py read).symm.trans works, trivial⟩
      obtain ⟨metrics, applied, _⟩ := mapM_ok _ (fun _ _ => True) succeeds
      rw [read, ok_bind, applied] at mapped
      obtain ⟨result, returned, _⟩ := map_eq_ok.mp mapped
      exact ⟨result, returned⟩

end

/-! ### An option alone -/

theorem splitCommas_piece {text piece : String} (member : piece ∈ splitCommas text) : splitCommas piece = [piece] := by
  obtain ⟨mapped, kept⟩ := mem_filter.mp member
  obtain ⟨part, split, rfl⟩ := mem_map.mp mapped
  have absent : ',' ∉ Splitting.trim isSpace part :=
    fun inside => Splitting.splitOn_free split (Splitting.trim_subset _ _ inside)
  rw [splitCommas, String.toList_ofList, Splitting.splitOn_single absent, map_singleton, Splitting.trim_trim]
  apply filter_eq_self.mpr
  exact fun other same => mem_singleton.mp same ▸ kept

theorem normalizedOptions_name (option : RsOption) : normalizedOptions option.name = .ok [option] := by
  cases option <;> rfl

omit [Field K] [LinearOrder K] in
theorem rawSpecs_alone {options : Nat} {specs : List String} (raw : rawSpecs py options spec = .ok specs) {piece : String}
    (member : piece ∈ specs) : rawSpecs py 1 (ownSpec spec piece) = .ok [piece] := by
  cases spec with
  | absent => cases raw
  | boolean value =>
    cases raw
    rw [eq_of_mem_replicate member]
    rfl
  | number value =>
    cases raw
    rw [eq_of_mem_replicate member]
    rfl
  | text text =>
    have inside : piece ∈ splitCommas text := by
      simp only [rawSpecs, ok_bind] at raw
      split at raw
      · cases raw
      · next only found =>
        cases raw
        rw [eq_of_mem_replicate member, found]
        exact mem_singleton_self _
      · split at raw
        · cases raw
          exact member
        · cases raw
    simp only [ownSpec, rawSpecs, ok_bind, splitCommas_piece inside]
    rfl

omit [Field K] [LinearOrder K] in
theorem requested_alone (asked : requested py rolloutRs spec = .ok pairs) (member : pair ∈ pairs) :
    requested py pair.1.name (ownSpec spec pair.2) = .ok [pair] := by
  obtain ⟨options, normalized, asked⟩ := bind_eq_ok.mp asked
  obtain ⟨specs, raw, asked⟩ := bind_eq_ok.mp asked
  cases asked
  rw [requested, normalizedOptions_name, ok_bind, length_singleton, rawSpecs_alone py raw (of_mem_zip member).2]
  rfl

end Calls

/-! ### Calls that return -/

section Returns
variable {K : Type} [Field K] [LinearOrder K]

omit [Field K] in
theorem largest_returns {values : List K} (nonempty : values ≠ []) : ∃ most, largest values = .ok most := by
  cases found : values.max? with
  | none => exact absurd (max?_eq_none_iff.mp found) nonempty
  | some most => exact ⟨most, by rw [largest, found]⟩

omit [Field K] in
theorem smallest_returns {values : List K} (nonempty : values ≠ []) : ∃ least, smallest values = .ok least := by
  cases found : values.min? with
  | none => exact absurd (min?_eq_none_iff.mp found) nonempty
  | some least => exact ⟨least, by rw [smallest, found]⟩

omit [Field K] [LinearOrder K] in
theorem validValues_ne_nil {rows : List (List (K × Bool))} (valid : rows.any (fun row => row.any Prod.snd) = true) :
    validValues rows ≠ [] := by
  obtain ⟨row, member, valid⟩ := any_eq_true.mp valid
  obtain ⟨token, inside, valid⟩ := any_eq_true.mp valid
  have kept : token.1 ∈ validValues rows :=
    mem_map_of_mem (mem_filter.mpr ⟨mem_flatten.mpr ⟨row, member, inside⟩, valid⟩)
  exact ne_nil_of_mem kept

theorem computeRsMetrics_returns (sqrt : K → K) (optionName : String) {rsStatistic : List (List (K × Bool))} (level : Level)
    (perSequenceValues : Option (List K)) (upper lower : K) (applyLowerThreshold : Bool)
    (valid : rsStatistic.any (fun row => row.any Prod.snd) = true) :
    ∃ metrics, computeRsMetrics sqrt optionName rsStatistic level perSequenceValues upper lower applyLowerThreshold =
      .ok metrics := by
  unfold computeRsMetrics
  simp only [valid, not_true_eq_false, if_false]
  generalize Masking.select (seqValidMask rsStatistic) (perSequenceValues.getD (rsStatistic.map maskedMean)) = values
  have chosen : (if level = .sequence ∧ values ≠ [] then values else validValues rsStatistic) ≠ [] := by
    split
    · next some => exact some.2
    · exact validValues_ne_nil valid
  obtain ⟨most, found⟩ := largest_returns chosen
  obtain ⟨least, found'⟩ := smallest_returns chosen
  simp only [found, found', ok_bind]
  by_cases none : values = []
  · exact ⟨_, if_pos none⟩
  · obtain ⟨seqMost, found⟩ := largest_returns none
    obtain ⟨seqLeast, found'⟩ := smallest_returns none
    obtain ⟨deviation, found''⟩ := largest_returns (show values.map (fun value => |value - 0|) ≠ [] by simpa using none)
    simp only [if_neg none, found, found', found'', ok_bind]
    exact ⟨_, rfl⟩

theorem sequenceStats_returns (py : Functions K) (option : RsOption) {rows : List (List (K × Bool))}
    (filled : ∀ row ∈ rows, row ≠ []) : ∃ seqStats, sequenceStats py option rows = .ok seqStats := by
  unfold sequenceStats
  cases option.aggregation with
  | token => exact ⟨_, rfl⟩
  | sum => exact ⟨_, rfl⟩
  | mean => exact ⟨_, rfl⟩
  | max =>
    have succeeds : ∀ values ∈ rows.map (map (fun entry => (tokenStat py entry.1 option.estimator, entry.2))),
        ∃ most, sequenceMax values = .ok most ∧ True := by
      intro values member
      obtain ⟨row, inside, rfl⟩ := mem_map.mp member
      exact ⟨_, if_neg (fun empty => filled row inside (map_eq_nil_iff.mp empty)), trivial⟩
    obtain ⟨stats, found, _⟩ := mapM_ok _ (fun _ _ => True) succeeds
    exact ⟨some stats, by simp only [found, Except.map]⟩

theorem pairMetrics_returns (py : Functions K) {pair : RsOption × String} {thresholds : Thresholds K}
    (parsed : optionThresholds py pair.1 pair.2 = .ok thresholds) {bounds : Bounds K}
    (bounded : boundsOf py pair.1 thresholds = .ok bounds) {rows : List (List (K × Bool))} (filled : ∀ row ∈ rows, row ≠ [])
    (valid : rows.any (fun row => row.any Prod.snd) = true) : ∃ metrics, pairMetrics py rows pair = .ok metrics := by
  obtain ⟨seqStats, found⟩ := sequenceStats_returns py pair.1 filled
  have same : (perTokenStat py pair.1 rows seqStats).any (fun row => row.any Prod.snd) = true := by
    rw [perTokenStat_eq py found]
    simpa only [any_map, Function.comp_def] using valid
  obtain ⟨metrics, returned⟩ := computeRsMetrics_returns py.sqrt pair.1.name pair.1.level seqStats bounds.upper
    (bounds.lower.getD 0) (pair.1.estimator == .k1) same
  simp only [pairMetrics, parsed, optionMetrics, applyOption, bounded, found, returned, ok_bind]
  exact ⟨_, rfl⟩

end Returns

/-! ### Independence of the options -/

/-- Every place that the first mask keeps is kept by the second. -/
def Below (mask other : List (List Bool)) : Prop := List.Forall₂ (List.Forall₂ (fun kept kept' => kept = true → kept' = true)) mask other

/-- Each sequence keeps all of its valid tokens or none. -/
def AllOrNone {K : Type} (rows : List (List (K × Bool))) (mask : List (List Bool)) : Prop :=
  List.Forall₂ (fun row kept => kept = row.map Prod.snd ∨ kept = row.map (fun _ => false)) rows mask

section Independence
variable {K : Type}

variable {conditions others : List (List (K × Bool) → K × Bool → Bool)}

theorem leaves_below {rows : List (List (K × Bool))}
    (fewer : others ⊆ conditions) : Below (leaves rows conditions) (leaves rows others) := by
  unfold Below leaves
  rw [forall₂_map_left_iff, forall₂_map_right_iff, forall₂_same]
  intro row _
  rw [forall₂_map_left_iff, forall₂_map_right_iff, forall₂_same]
  intro token _ kept
  rw [Bool.and_eq_true, all_eq_true] at kept ⊢
  exact ⟨kept.1, fun condition member => kept.2 condition (fewer member)⟩

theorem leaves_nil (rows : List (List (K × Bool))) : leaves rows [] = rows.map (map Prod.snd) := by
  unfold leaves
  simp only [all_nil, Bool.and_true]

theorem leaves_perm {rows : List (List (K × Bool))}
    (reordered : conditions.Perm others) : leaves rows conditions = leaves rows others := by
  unfold leaves
  have same : ∀ row token, (conditions.all (fun condition => condition row token)) =
      others.all (fun condition => condition row token) := by
    intro row token
    rw [Bool.eq_iff_iff, all_eq_true, all_eq_true]
    exact ⟨fun holds condition member => holds condition (reordered.mem_iff.mpr member),
      fun holds condition member => holds condition (reordered.mem_iff.mp member)⟩
  simp only [same]

theorem leaves_meet (rows : List (List (K × Bool))) (conditions : List (List (K × Bool) → K × Bool → Bool)) :
    leaves rows conditions =
      (conditions.map (fun condition => leaves rows [condition])).foldl meet (rows.map (map Prod.snd)) := by
  have alone : ∀ condition : List (K × Bool) → K × Bool → Bool, leaves rows [condition] =
      rows.map (fun row => row.map (fun token => token.2 && condition row token)) := by
    intro condition
    unfold leaves
    simp only [all_cons, all_nil, Bool.and_true]
  have folded := meet_fold rows (fun _ token => token.2)
    (conditions.map (fun condition row token => token.2 && condition row token))
  rw [foldl_map] at folded
  rw [foldl_map]
  simp only [alone]
  refine Eq.trans ?_ folded.symm
  unfold leaves
  apply map_congr_left
  intro row _
  apply map_congr_left
  intro token _
  simp only [all_map, Function.comp_def]
  cases token.2 with
  | true => simp only [Bool.true_and]
  | false => rfl

end Independence

section Mask
variable {K : Type} [Field K] [LinearOrder K] (py : Functions K) {width : Nat} {batch : List (Vector (K × Bool) width)}
  {rolloutRs : String} {spec : ThresholdSpec K} {pairs : List (RsOption × String)}

theorem compute_alone (asked : requested py rolloutRs spec = .ok pairs) {result : List (List Bool) × Metrics K}
    (returned : computeRolloutRejectionMask py batch rolloutRs spec = .ok result) {pair : RsOption × String}
    (member : pair ∈ pairs) : ∃ metrics, computeRolloutRejectionMask py batch pair.1.name (ownSpec spec pair.2) =
      .ok (leaves (batch.map Vector.toList) [admits py pair], metrics) := by
  have alone := requested_alone py asked member
  have works : batch.map Vector.toList = [] ∨
      ∀ other ∈ [pair], ∃ metrics, pairMetrics py (batch.map Vector.toList) other = .ok metrics := by
    refine ((compute_returns py asked).mp ⟨result, returned⟩).imp_right (fun each other same => ?_)
    rw [mem_singleton.mp same]
    exact each pair member
  obtain ⟨⟨mask, metrics⟩, found⟩ := (compute_returns py alone).mpr works
  refine ⟨metrics, ?_⟩
  rw [found, compute_mask py alone found]
  rfl

theorem admits_sequence {pair : RsOption × String} (sequence : pair.1.level = .sequence) (row : List (K × Bool))
    (token other : K × Bool) : admits py pair row token = admits py pair row other := by
  simp only [admits, accepts, decisive_sequence py sequence row token other]

theorem leaves_sequence {pair : RsOption × String} (sequence : pair.1.level = .sequence) (rows : List (List (K × Bool))) :
    AllOrNone rows (leaves rows [admits py pair]) := by
  unfold AllOrNone leaves
  rw [forall₂_map_right_iff, forall₂_same]
  intro row _
  cases row with
  | nil => exact .inl rfl
  | cons first rest =>
    simp only [all_cons, all_nil, Bool.and_true, admits_sequence py sequence (first :: rest) _ first]
    cases admits py pair (first :: rest) first with
    | true =>
      left
      simp only [Bool.and_true]
    | false =>
      right
      simp only [Bool.and_false]

/-- The mask of several options is the response mask without what each option alone rejects. So no token
is added, more options add none, the order of the options is irrelevant, and an option of sequences
keeps whole sequences. -/
theorem rejectionMask_meet (asked : requested py rolloutRs spec = .ok pairs) {mask : List (List Bool)} {metrics : Metrics K}
    (returned : computeRolloutRejectionMask py batch rolloutRs spec = .ok (mask, metrics)) :
    (∃ masks, List.Forall₂ (fun pair own => ∃ metrics,
        computeRolloutRejectionMask py batch pair.1.name (ownSpec spec pair.2) = .ok (own, metrics)) pairs masks ∧
      mask = masks.foldl meet (batch.map (fun row => row.toList.map Prod.snd))) ∧
    Below mask (batch.map (fun row => row.toList.map Prod.snd)) ∧
    (∀ rolloutRs' spec' pairs' mask' metrics', requested py rolloutRs' spec' = .ok pairs' → pairs ⊆ pairs' →
      computeRolloutRejectionMask py batch rolloutRs' spec' = .ok (mask', metrics') → Below mask' mask) ∧
    (∀ rolloutRs' spec' pairs', requested py rolloutRs' spec' = .ok pairs' → pairs.Perm pairs' →
      ∃ metrics', computeRolloutRejectionMask py batch rolloutRs' spec' = .ok (mask, metrics')) ∧
    ∀ pair ∈ pairs, pair.1.level = .sequence → ∀ own metrics,
      computeRolloutRejectionMask py batch pair.1.name (ownSpec spec pair.2) = .ok (own, metrics) →
      AllOrNone (batch.map Vector.toList) own := by
  have closed := compute_mask py asked returned
  have response : batch.map (fun row => row.toList.map Prod.snd) = (batch.map Vector.toList).map (List.map Prod.snd) := by
    rw [List.map_map]
    rfl
  rw [response]
  refine ⟨⟨pairs.map (fun pair => leaves (batch.map Vector.toList) [admits py pair]), ?_, ?_⟩, ?_, ?_, ?_, ?_⟩
  · rw [List.forall₂_map_right_iff, List.forall₂_same]
    exact fun pair member => compute_alone py asked returned member
  · rw [closed, leaves_meet]
    simp only [List.map_map, Function.comp_def]
  · rw [closed, ← leaves_nil]
    exact leaves_below (List.nil_subset _)
  · intro rolloutRs' spec' pairs' mask' metrics' asked' more returned'
    rw [closed, compute_mask py asked' returned']
    exact leaves_below (List.map_subset _ more)
  · intro rolloutRs' spec' pairs' asked' reordered
    have works := (compute_returns py asked).mp ⟨_, returned⟩
    obtain ⟨⟨mask', metrics'⟩, returned'⟩ := (compute_returns py asked').mpr
      (works.imp_right (fun each pair member => each pair (reordered.mem_iff.mpr member)))
    refine ⟨metrics', ?_⟩
    rw [returned', compute_mask py asked' returned', closed, leaves_perm (reordered.map _)]
  · intro pair member sequence own metrics alone
    rw [compute_mask py (requested_alone py asked member) alone]
    exact leaves_sequence py sequence _

end Mask

/-- The functions at zero and one. -/
def atZero : Functions ℚ where
  exp _ := 1
  log _ := 0
  sigmoid _ := 1 / 2
  sqrt _ := 0
  float text := if text = "1" then some 1 else none
  str _ := "1"

theorem rejectionMask_meet_zero : ∃ result,
    computeRolloutRejectionMask atZero [⟨#[(0, true)], rfl⟩] "token_k1, seq_sum_k2" (.text "1") = .ok result ∧
      Below result.1 [[true]] := by
  have runs : (computeRolloutRejectionMask atZero [⟨#[(0, true)], rfl⟩] "token_k1, seq_sum_k2" (.text "1")).isOk = true := by
    decide +kernel
  have asked : requested atZero "token_k1, seq_sum_k2" (.text "1") = .ok [(.tokenK1, "1"), (.seqSumK2, "1")] := rfl
  cases found : computeRolloutRejectionMask atZero [⟨#[(0, true)], rfl⟩] "token_k1, seq_sum_k2" (.text "1") with
  | error failure =>
    rw [found] at runs
    cases runs
  | ok result => exact ⟨result, rfl, (rejectionMask_meet atZero asked found).2.1⟩

end LLMFusion.RolloutCorrHelper
