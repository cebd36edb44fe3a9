import LLMFusion.WriteGenerations
import LLMFusion.Lib.Fallible

/-! When the files of a step have every sample. A name is made safe in a way that can make two names the
same, and then the file of the first one is lost. -/

namespace LLMFusion.WriteGenerations
open List
open ToolParser (Text)

variable {ν : Type} {python : Python ν}

structure Sample (ν : Type) where
  input : ν
  output : ν
  gts : ν
  score : ν
  dataSource : ν

/-- The columns of samples that have their data source. -/
def Generations.ofSamples (samples : List (Sample ν)) : Generations ν where
  inputs := samples.map Sample.input
  outputs := samples.map Sample.output
  gts := samples.map Sample.gts
  scores := samples.map Sample.score
  dataSources := some (samples.map Sample.dataSource)

def own : List (Text × (Sample ν → ν)) :=
  [(dataSourceKey, Sample.dataSource), (inputKey, Sample.input), (outputKey, Sample.output), (scoreKey, Sample.score)]

/-- The files have each sample once, with what is its own. -/
structure EachOnce (samples : List (Sample ν)) (files : List (Text × List (Line ν))) : Prop where
  once : ((files.flatMap Prod.snd).map Line.sample).Perm (List.range samples.length)
  own : ∀ line ∈ files.flatMap Prod.snd, ∀ sample, samples[line.sample]? = some sample →
    ∀ column ∈ own, Dictionary.get line.entry column.1 = some (column.2 sample)

/-- Different names of data sources stay different. -/
def Apart (python : Python ν) (samples : List (Sample ν)) : Prop :=
  ∀ first ∈ samples, ∀ second ∈ samples,
    sanitizeDataSource python (python.str first.dataSource) = sanitizeDataSource python (python.str second.dataSource) →
      python.str first.dataSource = python.str second.dataSource

/-- No extra column takes the place of another one, unless it has the same values. -/
def Unshadowed (samples : List (Sample ν)) (extraInfos : ExtraInfos ν) : Prop :=
  ∀ info ∈ extraInfos.entries, info.2.length = samples.length → ∀ column ∈ own, info.1 = column.1 →
    info.2 = samples.map column.2

section Columns
variable {samples : List (Sample ν)} {extraInfos : ExtraInfos ν} {globalSteps : ν}

def columnsOf (samples : List (Sample ν)) (globalSteps : ν) : List (Text × List ν) :=
  [(inputKey, samples.map Sample.input), (outputKey, samples.map Sample.output), (gtsKey, samples.map Sample.gts),
    (scoreKey, samples.map Sample.score), (stepKey, List.replicate samples.length globalSteps),
    (dataSourceKey, samples.map Sample.dataSource)]

theorem baseData_eq : baseData (.ofSamples samples) extraInfos globalSteps =
    Dictionary.merge (fun _ values => values) (columnsOf samples globalSteps)
      (extraInfos.entries.filter (fun info => info.2.length = samples.length)) := by
  simp only [baseData, Generations.ofSamples, length_map, columnsOf, cons_append, nil_append]

variable {column : Text × (Sample ν → ν)}

theorem get_own (member : column ∈ own) :
    Dictionary.get (columnsOf samples globalSteps) column.1 = some (samples.map column.2) := by
  simp only [own, mem_cons, not_mem_nil, or_false] at member
  rcases member with rfl | rfl | rfl | rfl
  · rfl
  · rfl
  · rfl
  · rfl

theorem own_ne_gts (member : column ∈ own) : column.1 ≠ gtsKey := by
  simp only [own, mem_cons, not_mem_nil, or_false] at member
  have keys : dataSourceKey ≠ gtsKey ∧ inputKey ≠ gtsKey ∧ outputKey ≠ gtsKey ∧ scoreKey ≠ gtsKey := by decide
  rcases member with rfl | rfl | rfl | rfl
  · exact keys.1
  · exact keys.2.1
  · exact keys.2.2.1
  · exact keys.2.2.2

theorem get_baseData (member : column ∈ own) :
    Dictionary.get (baseData (.ofSamples samples) extraInfos globalSteps) column.1 =
      some ((Dictionary.get (extraInfos.entries.filter (fun info => info.2.length = samples.length)) column.1).getD
        (samples.map column.2)) := by
  have distinct : ((extraInfos.entries.filter (fun info => info.2.length = samples.length)).map Prod.fst).Nodup :=
    extraInfos.distinct.sublist (filter_sublist.map Prod.fst)
  rw [baseData_eq, Dictionary.get_merge distinct, get_own member]
  cases Dictionary.get (extraInfos.entries.filter (fun info => info.2.length = samples.length)) column.1 <;> rfl

theorem baseData_length {column : Text × List ν} (member : column ∈ baseData (.ofSamples samples) extraInfos globalSteps) :
    column.2.length = samples.length := by
  rw [baseData_eq] at member
  have each : ∀ column ∈ Dictionary.merge (fun _ values => values) (columnsOf samples globalSteps)
      (extraInfos.entries.filter (fun info => info.2.length = samples.length)), column.2.length = samples.length := by
    apply Dictionary.merge_forall
    · intro entry inside
      simp only [columnsOf, mem_cons, not_mem_nil, or_false] at inside
      rcases inside with rfl | rfl | rfl | rfl | rfl | rfl
      all_goals simp
    · intro info inside
      simpa using (mem_filter.mp inside).2
  exact each column member

theorem dataSource_own : (dataSourceKey, Sample.dataSource) ∈ (own : List (Text × (Sample ν → ν))) :=
  mem_cons_self

theorem get_dataSource : Dictionary.get (baseData (.ofSamples samples) extraInfos globalSteps) dataSourceKey =
    some ((Dictionary.get (extraInfos.entries.filter (fun info => info.2.length = samples.length)) dataSourceKey).getD
      (samples.map Sample.dataSource)) :=
  get_baseData dataSource_own

end Columns

section Rows
variable {columns : List (Text × List ν)} {count : Nat}

def entryOf (columns : List (Text × List ν)) (i : Nat) : List (Text × ν) :=
  columns.filterMap (fun column => (column.2[i]?).map (fun value => (column.1, value)))

theorem get_entryOf {i : Nat} (whole : ∀ column ∈ columns, i < column.2.length) (key : Text) :
    Dictionary.get (entryOf columns i) key = (Dictionary.get columns key).bind (fun values => values[i]?) := by
  induction columns with
  | nil => rfl
  | cons column columns ih =>
    have inside := whole column mem_cons_self
    have first : (column.2[i]?).map (fun value => (column.1, value)) = some (column.1, column.2[i]) := by
      rw [getElem?_eq_getElem inside]
      rfl
    have taken : entryOf (column :: columns) i = (column.1, column.2[i]) :: entryOf columns i := filterMap_cons_some first
    rw [taken, Dictionary.get_cons, Dictionary.get_cons]
    split
    · exact (getElem?_eq_getElem inside).symm
    · exact ih (fun other member => whole other (mem_cons_of_mem _ member))

def lineOf (columns : List (Text × List ν)) (omitKeys : List Text) (i : Nat) : Line ν :=
  ⟨i, entryOf (Dictionary.erase columns omitKeys) i⟩

theorem erase_length (whole : ∀ column ∈ columns, column.2.length = count) (omitKeys : List Text) {i : Nat} (inside : i < count) :
    ∀ column ∈ Dictionary.erase columns omitKeys, i < column.2.length := by
  intro column member
  rw [whole column (mem_filter.mp member).1]
  exact inside

theorem writeRow_eq (whole : ∀ column ∈ columns, column.2.length = count) (omitKeys : List Text) {i : Nat} (inside : i < count) :
    writeRow columns omitKeys i = some (lineOf columns omitKeys i) := by
  have returns : ∀ column ∈ Dictionary.erase columns omitKeys,
      ((column.2[i]?).map (fun value => (column.1, value))).isSome := by
    intro column member
    rw [getElem?_eq_getElem (erase_length whole omitKeys inside column member)]
    rfl
  rw [writeRow, Fallible.mapM_filterMap returns]
  rfl

theorem get_lineOf (whole : ∀ column ∈ columns, column.2.length = count) {omitKeys : List Text} {i : Nat} (inside : i < count)
    {key : Text} (kept : key ∉ omitKeys) :
    Dictionary.get (lineOf columns omitKeys i).entry key = (Dictionary.get columns key).bind (fun values => values[i]?) := by
  rw [lineOf, get_entryOf (erase_length whole omitKeys inside), Dictionary.get_erase, if_neg kept]

variable (python)

def omitKeys (dataSource : Text) : List Text := if isCodeDataSource python dataSource then [gtsKey] else []

def written (columns : List (Text × List ν)) (group : Text × List Nat) : Text × List (Line ν) :=
  (fileName (sanitizeDataSource python group.1), group.2.map (lineOf columns (omitKeys python group.1)))

variable {python}

theorem not_mem_omitKeys {dataSource key : Text} (other : key ≠ gtsKey) : key ∉ omitKeys python dataSource := by
  rw [omitKeys]
  split
  · simpa using other
  · exact not_mem_nil

theorem writeFiles_eq (whole : ∀ column ∈ columns, column.2.length = count) {groups : List (Text × List Nat)}
    (inside : ∀ group ∈ groups, ∀ i ∈ group.2, i < count) (files : List (Text × List (Line ν))) :
    groups.foldlM (writeFile python columns) files =
      some (Dictionary.merge (fun _ rows => rows) files (groups.map (written python columns))) := by
  induction groups generalizing files with
  | nil => rfl
  | cons group groups ih =>
    have rows : group.2.mapM (writeRow columns (omitKeys python group.1)) =
        some (group.2.map (lineOf columns (omitKeys python group.1))) :=
      Fallible.mapM_some _ (fun i member => writeRow_eq whole _ (inside group mem_cons_self i member))
    have first : writeFile python columns files group =
        some (Dictionary.modify (written python columns group).1 (fun _ => (written python columns group).2) files) := by
      rw [omitKeys] at rows
      rw [writeFile, rows]
      rfl
    rw [foldlM_cons, first, map_cons]
    exact ih (fun other member => inside other (mem_cons_of_mem _ member)) _

end Rows

section Groups
variable {dataSources : List ν} {group : Text × List Nat}

theorem mem_indicesBySource (member : group ∈ indicesBySource python dataSources) {i : Nat} (inside : i ∈ group.2) :
    ∃ dataSource, dataSources[i]? = some dataSource ∧ group.1 = python.str dataSource := by
  rw [Grouping.collect_members member, Grouping.mem_members] at inside
  obtain ⟨source, listed, same⟩ := mem_map.mp inside
  obtain ⟨name, index⟩ := Prod.mk.inj same
  exact ⟨source.1, index ▸ mem_zipIdx_iff_getElem?.mp listed, name.symm⟩

theorem indicesBySource_perm : ((indicesBySource python dataSources).flatMap Prod.snd).Perm (range dataSources.length) := by
  refine (Grouping.collect_perm _).trans ?_
  have indices : (dataSources.zipIdx.map (fun source => (python.str source.1, source.2))).map Prod.snd = range dataSources.length := by
    rw [map_map, range_eq_range', ← zipIdx_map_snd 0 dataSources]
    rfl
  rw [indices]

theorem indicesBySource_lt (member : group ∈ indicesBySource python dataSources) {i : Nat} (inside : i ∈ group.2) :
    i < dataSources.length :=
  mem_range.mp (indicesBySource_perm.subset (mem_flatMap.mpr ⟨group, member, inside⟩))

end Groups

section Files
variable {samples : List (Sample ν)} {extraInfos : ExtraInfos ν} {globalSteps : ν}

def sources (samples : List (Sample ν)) (extraInfos : ExtraInfos ν) : List ν :=
  (Dictionary.get (extraInfos.entries.filter (fun info => info.2.length = samples.length)) dataSourceKey).getD
    (samples.map Sample.dataSource)

def filesOf (python : Python ν) (samples : List (Sample ν)) (extraInfos : ExtraInfos ν) (globalSteps : ν) :
    List (Text × List (Line ν)) :=
  Dictionary.merge (fun _ rows => rows) [] ((indicesBySource python (sources samples extraInfos)).map
    (written python (baseData (.ofSamples samples) extraInfos globalSteps)))

theorem sources_length (globalSteps : ν) : (sources samples extraInfos).length = samples.length := by
  have named : Dictionary.get (baseData (.ofSamples samples) extraInfos globalSteps) dataSourceKey =
      some (sources samples extraInfos) := get_dataSource
  exact baseData_length (Dictionary.get_some_mem named)

theorem writeGenerations_eq : writeGenerations python (.ofSamples samples) extraInfos globalSteps =
    some (filesOf python samples extraInfos globalSteps) := by
  have named : Dictionary.get (baseData (.ofSamples samples) extraInfos globalSteps) dataSourceKey =
      some (sources samples extraInfos) := get_dataSource
  have inside : ∀ group ∈ indicesBySource python (sources samples extraInfos), ∀ i ∈ group.2, i < samples.length := by
    intro group member i within
    exact (indicesBySource_lt member within).trans_eq (sources_length globalSteps)
  have unfolded : writeGenerations python (.ofSamples samples) extraInfos globalSteps =
      (Dictionary.get (baseData (.ofSamples samples) extraInfos globalSteps) dataSourceKey).bind (fun dataSources =>
        (indicesBySource python dataSources).foldlM
          (writeFile python (baseData (.ofSamples samples) extraInfos globalSteps)) []) := rfl
  rw [unfolded, named, Option.bind_some, writeFiles_eq (fun column member => baseData_length member) inside, filesOf]

theorem filesOf_origin {file : Text × List (Line ν)} (member : file ∈ filesOf python samples extraInfos globalSteps) :
    ∃ group ∈ indicesBySource python (sources samples extraInfos),
      file = written python (baseData (.ofSamples samples) extraInfos globalSteps) group := by
  apply Dictionary.merge_forall (fun _ inside => (not_mem_nil inside).elim) ?_ file member
  intro entry inside
  obtain ⟨group, listed, rfl⟩ := mem_map.mp inside
  exact ⟨group, listed, rfl⟩

theorem line_origin {line : Line ν} (member : line ∈ (filesOf python samples extraInfos globalSteps).flatMap Prod.snd) :
    ∃ group ∈ indicesBySource python (sources samples extraInfos), ∃ i ∈ group.2,
      written python (baseData (.ofSamples samples) extraInfos globalSteps) group ∈ filesOf python samples extraInfos globalSteps ∧
        line = lineOf (baseData (.ofSamples samples) extraInfos globalSteps) (omitKeys python group.1) i := by
  obtain ⟨file, listed, inside⟩ := mem_flatMap.mp member
  obtain ⟨group, grouped, rfl⟩ := filesOf_origin listed
  obtain ⟨i, within, rfl⟩ := mem_map.mp inside
  exact ⟨group, grouped, i, within, listed, rfl⟩

theorem get_line {group : Text × List Nat} (grouped : group ∈ indicesBySource python (sources samples extraInfos)) {i : Nat}
    (within : i ∈ group.2) {column : Text × (Sample ν → ν)} (known : column ∈ own) :
    Dictionary.get (lineOf (baseData (.ofSamples samples) extraInfos globalSteps) (omitKeys python group.1) i).entry column.1 =
      (Dictionary.get (baseData (.ofSamples samples) extraInfos globalSteps) column.1).bind (fun values => values[i]?) :=
  get_lineOf (fun _ member => baseData_length member) ((indicesBySource_lt grouped within).trans_eq (sources_length globalSteps))
    (not_mem_omitKeys (own_ne_gts known))

theorem Unshadowed.get (unshadowed : Unshadowed samples extraInfos) {column : Text × (Sample ν → ν)} (known : column ∈ own) :
    (Dictionary.get (extraInfos.entries.filter (fun info => info.2.length = samples.length)) column.1).getD
      (samples.map column.2) = samples.map column.2 := by
  cases found : Dictionary.get (extraInfos.entries.filter (fun info => info.2.length = samples.length)) column.1 with
  | none => rfl
  | some values =>
    have listed := mem_filter.mp (Dictionary.get_some_mem found)
    exact unshadowed _ listed.1 (of_decide_eq_true listed.2) column known rfl

theorem Unshadowed.sources (unshadowed : Unshadowed samples extraInfos) :
    sources samples extraInfos = samples.map Sample.dataSource :=
  unshadowed.get dataSource_own

theorem Unshadowed.group (unshadowed : Unshadowed samples extraInfos) {group : Text × List Nat}
    (grouped : group ∈ indicesBySource python (WriteGenerations.sources samples extraInfos)) {i : Nat} (within : i ∈ group.2) :
    ∃ sample, samples[i]? = some sample ∧ group.1 = python.str sample.dataSource := by
  obtain ⟨dataSource, named, same⟩ := mem_indicesBySource grouped within
  rw [unshadowed.sources, getElem?_map] at named
  obtain ⟨sample, found, rfl⟩ := Option.map_eq_some_iff.mp named
  exact ⟨sample, found, same⟩

theorem eachOnce_of_apart (apart : Apart python samples) (unshadowed : Unshadowed samples extraInfos) :
    EachOnce samples (filesOf python samples extraInfos globalSteps) := by
  have distinct : (((indicesBySource python (sources samples extraInfos)).map
      (written python (baseData (.ofSamples samples) extraInfos globalSteps))).map Prod.fst).Nodup := by
    rw [map_map]
    have names : (indicesBySource python (sources samples extraInfos)).Nodup := (Grouping.collect_keys_nodup _).of_map
    apply names.map_on
    intro first grouped second grouped' same
    have stems := append_cancel_right same
    have filled : ∀ group ∈ indicesBySource python (sources samples extraInfos), ∃ i, i ∈ group.2 :=
      fun group member => exists_mem_of_ne_nil _ (Grouping.collect_nonempty _ group member)
    obtain ⟨i, within⟩ := filled first grouped
    obtain ⟨j, within'⟩ := filled second grouped'
    obtain ⟨sample, found, name⟩ := unshadowed.group grouped within
    obtain ⟨other, found', name'⟩ := unshadowed.group grouped' within'
    rw [name, name'] at stems
    have equal := apart sample (mem_of_getElem? found) other (mem_of_getElem? found') stems
    apply inj_on_of_nodup_map (Grouping.collect_keys_nodup _) grouped grouped'
    rw [name, name', equal]
  have listed : filesOf python samples extraInfos globalSteps = (indicesBySource python (sources samples extraInfos)).map
      (written python (baseData (.ofSamples samples) extraInfos globalSteps)) := by
    rw [filesOf, Dictionary.merge_append (by simpa using distinct), nil_append]
  refine ⟨?_, ?_⟩
  · have indices : ((filesOf python samples extraInfos globalSteps).flatMap Prod.snd).map Line.sample =
        (indicesBySource python (sources samples extraInfos)).flatMap Prod.snd := by
      rw [listed, flatMap_map, map_flatMap]
      apply flatMap_congr
      intro group _
      exact (map_map ..).trans (map_id' group.2)
    rw [indices, ← sources_length globalSteps]
    exact indicesBySource_perm
  · intro line member sample found column known
    obtain ⟨group, grouped, i, within, _, rfl⟩ := line_origin member
    have here : samples[i]? = some sample := found
    rw [get_line grouped within known, get_baseData known, unshadowed.get known, Option.bind_some, getElem?_map, here]
    rfl

section
variable (each : EachOnce samples (filesOf python samples extraInfos globalSteps))
include each

theorem EachOnce.line {i : Nat} (inside : i < samples.length) :
    ∃ group ∈ indicesBySource python (sources samples extraInfos), i ∈ group.2 ∧
      written python (baseData (.ofSamples samples) extraInfos globalSteps) group ∈ filesOf python samples extraInfos globalSteps ∧
        lineOf (baseData (.ofSamples samples) extraInfos globalSteps) (omitKeys python group.1) i ∈
          (filesOf python samples extraInfos globalSteps).flatMap Prod.snd := by
  obtain ⟨line, member, same⟩ := mem_map.mp (each.once.symm.subset (mem_range.mpr inside))
  obtain ⟨group, grouped, j, within, listed, rfl⟩ := line_origin member
  have equal : j = i := same
  subst equal
  exact ⟨group, grouped, within, listed, member⟩

theorem EachOnce.unshadowed : Unshadowed samples extraInfos := by
  intro info member length column known named
  have distinct : ((extraInfos.entries.filter (fun info => info.2.length = samples.length)).map Prod.fst).Nodup :=
    extraInfos.distinct.sublist (filter_sublist.map Prod.fst)
  have found : Dictionary.get (extraInfos.entries.filter (fun info => info.2.length = samples.length)) column.1 = some info.2 :=
    (Dictionary.mem_iff_get distinct).mp (named ▸ mem_filter.mpr ⟨member, decide_eq_true length⟩)
  apply ext_getElem?
  intro i
  by_cases inside : i < samples.length
  · obtain ⟨group, grouped, within, _, listed⟩ := each.line inside
    have same := each.own _ listed samples[i] (getElem?_eq_getElem inside) column known
    rw [get_line grouped within known, get_baseData known, found, Option.getD_some, Option.bind_some] at same
    rw [same, getElem?_map, getElem?_eq_getElem inside]
    rfl
  · rw [getElem?_eq_none (by omega), getElem?_eq_none (by rw [length_map]; omega)]

theorem EachOnce.apart : Apart python samples := by
  intro first member second member' same
  obtain ⟨i, inside, rfl⟩ := mem_iff_getElem.mp member
  obtain ⟨j, inside', rfl⟩ := mem_iff_getElem.mp member'
  obtain ⟨group, grouped, within, listed, _⟩ := each.line inside
  obtain ⟨group', grouped', within', listed', _⟩ := each.line inside'
  obtain ⟨sample, found, name⟩ := each.unshadowed.group grouped within
  obtain ⟨sample', found', name'⟩ := each.unshadowed.group grouped' within'
  rw [getElem?_eq_getElem inside] at found
  rw [getElem?_eq_getElem inside'] at found'
  cases found
  cases found'
  have none : (([] : List (Text × List (Line ν))).map Prod.fst).Nodup := nodup_nil
  have files : ((filesOf python samples extraInfos globalSteps).map Prod.fst).Nodup := Dictionary.merge_distinct none _
  have names : (written python (baseData (.ofSamples samples) extraInfos globalSteps) group).1 =
      (written python (baseData (.ofSamples samples) extraInfos globalSteps) group').1 := by
    rw [written, written, name, name', same]
  have one := inj_on_of_nodup_map files listed listed' names
  have indices : group.2 = group'.2 := by
    have lines := congrArg (fun file => file.2.map Line.sample) one
    simp only [written, map_map] at lines
    exact (map_id' _).symm.trans (lines.trans (map_id' _))
  obtain ⟨sample, found, name''⟩ := each.unshadowed.group grouped' (indices ▸ within)
  rw [getElem?_eq_getElem inside] at found
  cases found
  exact name''.symm.trans name'

end

end Files

/-- The files have every sample exactly when the names stay apart and no extra column takes the place
of what the sample is known by. -/
theorem writeGenerations_iff (python : Python ν) (samples : List (Sample ν)) (extraInfos : ExtraInfos ν) (globalSteps : ν) :
    (∃ files, writeGenerations python (.ofSamples samples) extraInfos globalSteps = some files ∧ EachOnce samples files) ↔
      Apart python samples ∧ Unshadowed samples extraInfos := by
  rw [writeGenerations_eq]
  constructor
  · rintro ⟨files, same, each⟩
    cases same
    exact ⟨each.apart, each.unshadowed⟩
  · rintro ⟨apart, unshadowed⟩
    exact ⟨_, rfl, eachOnce_of_apart apart unshadowed⟩

/-- ASCII, for objects that are texts. -/
def ascii : Python Text := ⟨Char.isAlphanum, List.map Char.toLower, id⟩

/-- Samples of the data sources `a/b` and `a_b`. -/
def slashed : List (Sample Text) :=
  [⟨"1".toList, "2".toList, "3".toList, "4".toList, "a/b".toList⟩, ⟨"5".toList, "6".toList, "7".toList, "8".toList, "a_b".toList⟩]

/-- The second file takes the place of the first one. -/
theorem writeGenerations_slashed :
    ∃ files, writeGenerations ascii (.ofSamples slashed) ⟨[], List.nodup_nil⟩ "1".toList = some files ∧ ¬ EachOnce slashed files := by
  refine ⟨_, writeGenerations_eq, ?_⟩
  intro each
  exact absurd each.once.length_eq (by decide +kernel)

end LLMFusion.WriteGenerations
