import LLMFusion.PadToDivisor
import LLMFusion.Proofs.AutoPadding
import LLMFusion.Proofs.ChunkConcat

/-! Padding to a divisor cycles through the rows, and taking the padding off again restores them. The `meta_info`
goes through `concat` in between, which only keeps it where every value equals itself and there are no metrics. -/

namespace LLMFusion.Protocol
open Slices Dispatch Fallible List

variable {τ ν μ : Type}

/-! ### Cycling through a list -/

section Cycles
variable {α : Type}

theorem flatten_replicate_getElem? (items : List α) (count : Nat) {j : Nat} (inside : j < count * items.length) :
    (replicate count items).flatten[j]? = items[j % items.length]? := by
  induction count generalizing j with
  | zero =>
    rw [Nat.zero_mul] at inside
    cases inside
  | succ count ih =>
    rw [Nat.succ_mul] at inside
    rw [replicate_succ, flatten_cons]
    by_cases first : j < items.length
    · rw [getElem?_append_left first, Nat.mod_eq_of_lt first]
    · have later : items.length ≤ j := Nat.le_of_not_lt first
      rw [getElem?_append_right later, ih (by omega), ← Nat.mod_eq_sub_mod later]

def cycled (α : Type) (rows : Nat) : ColumnMap α (fun length => min rows (rows * length)) where
  apply items := (List.replicate rows items).flatten.take rows
  length items := by simp

theorem cycled_getElem? {items : List α} (some : 0 < items.length) {rows j : Nat} (inside : j < rows) :
    ((cycled α rows).apply items)[j]? = items[j % items.length]? := by
  have enough : rows ≤ rows * items.length := Nat.le_mul_of_pos_right rows some
  show ((replicate rows items).flatten.take rows)[j]? = _
  rw [getElem?_take_of_lt inside, flatten_replicate_getElem? items rows (Nat.lt_of_lt_of_le inside enough)]

theorem slice_cycled {items : List α} {length rows round size : Nat} (isLength : items.length = length) (some : 0 < length)
    (short : size ≤ length) (inside : round * length + size ≤ rows) :
    slice ((cycled α rows).apply items) (round * length) (round * length + size) = slice items 0 size := by
  subst isLength
  apply ext_getElem?
  intro j
  rw [slice_getElem?, slice_getElem?, Nat.zero_add]
  by_cases within : j < size
  · rw [if_pos (by omega), if_pos within, cycled_getElem? some (by omega), Nat.mul_comm, Nat.mul_add_mod,
      Nat.mod_eq_of_lt (by omega)]
  · rw [if_neg (by omega), if_neg within]

end Cycles

/-! ### What the loop takes -/

theorem takeSizes_sum {length : Nat} (some : 0 < length) {fuel remainingPad : Nat} (enough : remainingPad ≤ fuel) :
    (takeSizes length fuel remainingPad).sum = remainingPad := by
  induction fuel generalizing remainingPad with
  | zero => exact (Nat.le_zero.mp enough).symm
  | succ fuel ih =>
    rw [takeSizes]
    split
    · next positive =>
      have step : 0 < min remainingPad length := Nat.lt_min.mpr ⟨positive, some⟩
      rw [sum_cons, ih (by omega)]
      omega
    · next none => exact (Nat.eq_zero_of_not_pos none).symm

theorem takeSizes_bounds {length rows : Nat} (some : 0 < length) {fuel remainingPad : Nat} (enough : remainingPad ≤ fuel) (round : Nat)
    (inside : round * length + remainingPad ≤ rows) : List.Forall₂ (fun takeSize bound => takeSize ≤ length ∧
        ∃ round, bound = (round * length, round * length + takeSize) ∧ round * length + takeSize ≤ rows)
      (takeSizes length fuel remainingPad) (boundsFrom (round * length) (takeSizes length fuel remainingPad)) := by
  induction fuel generalizing remainingPad round with
  | zero => exact .nil
  | succ fuel ih =>
    rw [takeSizes]
    split
    · next positive =>
      refine .cons ⟨Nat.min_le_right _ _, round, rfl, by omega⟩ ?_
      rcases Nat.le_total length remainingPad with whole | last
      · rw [Nat.min_eq_right whole, ← Nat.succ_mul]
        refine ih (by omega) (round + 1) ?_
        rw [Nat.succ_mul]
        omega
      · -- nothing is left behind a shorter piece
        have ended : takeSizes length fuel (remainingPad - min remainingPad length) = [] := by
          rw [Nat.min_eq_left last, Nat.sub_self]
          cases fuel <;> rfl
        rw [ended]
        exact .nil
    · exact .nil

theorem takeSizes_some {length remainingPad : Nat} (positive : 0 < remainingPad) :
    takeSizes length remainingPad remainingPad ≠ [] := by
  obtain ⟨fuel, rfl⟩ := Nat.exists_eq_succ_of_ne_zero (Nat.ne_of_gt positive)
  rw [takeSizes, if_pos positive]
  exact cons_ne_nil _ _

/-! ### The `meta_info` -/

/-- What Python's values are: a dictionary is not a list or `None` and has its entries, and no list has itself in it. -/
class LawfulValue (μ : Type) [Value μ] : Prop where
  ofDict_asList : ∀ entries : List (String × μ), Value.asList (Value.ofDict entries) = none
  ofDict_isNone : ∀ entries : List (String × μ), Value.isNone (Value.ofDict entries) = false
  ofDict_asDict : ∀ entries : List (String × μ), Value.asDict (Value.ofDict entries) = some entries
  founded : ∃ size : μ → Nat, ∀ items : List μ, ∀ item ∈ items, size item < size (Value.ofList items)

/-- Every value equals itself, and there are no metrics but an empty dictionary. -/
def MetaSurvives [Value μ] (metaInfo : List (String × μ)) : Prop :=
  (∀ entry ∈ metaInfo, entry.1 ≠ "metrics" → (entry.2 == entry.2) = true) ∧
    (metaInfo.lookup "metrics" = none ∨ metaInfo.lookup "metrics" = some (Value.ofDict []))

/-- Dictionaries are equal in any order. -/
def SameMeta (first second : List (String × μ)) : Prop := ∀ key, first.lookup key = second.lookup key

section Merging
variable [Value μ]

theorem mergeValues_first {metaInfo acc : List (String × μ)} (distinct : (metaInfo.map Prod.fst).Nodup)
    (new : ∀ entry ∈ metaInfo, acc.lookup entry.1 = none) :
    metaInfo.foldlM mergeValue acc = .ok (acc ++ metaInfo.filter (fun entry => decide (entry.1 ≠ "metrics"))) := by
  induction metaInfo generalizing acc with
  | nil =>
    rw [filter_nil, append_nil]
    rfl
  | cons entry rest ih =>
    obtain ⟨different, distinct⟩ := nodup_cons.mp distinct
    rw [foldlM_cons, mergeValue]
    by_cases metrics : entry.1 = "metrics"
    · rw [if_pos metrics, ok_bind, filter_cons_of_neg (by simpa using metrics)]
      exact ih distinct (fun other member => new other (mem_cons_of_mem _ member))
    · rw [if_neg metrics, new entry mem_cons_self, ok_bind, filter_cons_of_pos (by simpa using metrics),
        ih distinct ?_, append_assoc]
      · rfl
      · intro other member
        have apart : other.1 ≠ entry.1 := fun same => different (same ▸ mem_map_of_mem member)
        rw [lookup_append, new other (mem_cons_of_mem _ member), Option.none_or, lookup_cons, beq_eq_false_iff_ne.mpr apart]
        rfl

theorem mergeValues_again {metaInfo acc : List (String × μ)}
    (known : ∀ entry ∈ metaInfo, entry.1 ≠ "metrics" → acc.lookup entry.1 = some entry.2) :
    (∃ next, metaInfo.foldlM mergeValue acc = .ok next) ↔ ∀ entry ∈ metaInfo, entry.1 ≠ "metrics" → (entry.2 == entry.2) = true := by
  induction metaInfo with
  | nil => exact iff_of_true ⟨acc, rfl⟩ nofun
  | cons entry rest ih =>
    have later := ih (fun other member => known other (mem_cons_of_mem _ member))
    rw [foldlM_cons, mergeValue, forall_mem_cons, ← later]
    by_cases metrics : entry.1 = "metrics"
    · rw [if_pos metrics, ok_bind, and_iff_right (fun other => absurd metrics other)]
    · rw [if_neg metrics, known entry mem_cons_self metrics]
      cases same : entry.2 == entry.2 with
      | true => simp [metrics, same]
      | false => simp [metrics, same]

omit [Value μ] in
theorem lookup_filter_metrics (metaInfo : List (String × μ)) (key : String) :
    (metaInfo.filter (fun entry => decide (entry.1 ≠ "metrics"))).lookup key = if key = "metrics" then none else metaInfo.lookup key := by
  induction metaInfo with
  | nil => simp
  | cons entry rest ih =>
    by_cases metrics : entry.1 = "metrics"
    · rw [filter_cons_of_neg (by simpa using metrics), ih, lookup_cons, metrics]
      by_cases here : key = "metrics"
      · rw [if_pos here, if_pos here]
      · rw [if_neg here, if_neg here, beq_eq_false_iff_ne.mpr here]
    · rw [filter_cons_of_pos (by simpa using metrics), lookup_cons, lookup_cons, ih]
      by_cases same : key = entry.1
      · rw [same, beq_self_eq_true]
        exact (if_neg metrics).symm
      · rw [beq_eq_false_iff_ne.mpr same]

variable {metaInfo : List (String × μ)}

theorem flatMap_entryMetrics (distinct : (metaInfo.map Prod.fst).Nodup) :
    metaInfo.flatMap entryMetrics = (metaInfo.lookup "metrics").elim [] (fun value => entryMetrics ("metrics", value)) := by
  induction metaInfo with
  | nil => rfl
  | cons entry rest ih =>
    obtain ⟨different, distinct⟩ := nodup_cons.mp distinct
    rw [flatMap_cons, ih distinct, lookup_cons]
    by_cases metrics : entry.1 = "metrics"
    · have others : rest.lookup "metrics" = none := by
        cases found : rest.lookup "metrics" with
        | none => rfl
        | some value => exact absurd (mem_map_of_mem (lookup_mem found)) (metrics ▸ different)
      obtain ⟨key, value⟩ := entry
      obtain rfl : key = "metrics" := metrics
      rw [others, beq_self_eq_true]
      exact append_nil _
    · rw [entryMetrics, if_neg metrics, beq_eq_false_iff_ne.mpr (fun same => metrics same.symm)]
      rfl

omit [Value μ] in
theorem lookup_insert_metrics (value : μ) (metaInfo : List (String × μ)) (key : String) :
    (Indexing.insert "metrics" value metaInfo).lookup key = if key = "metrics" then some value else metaInfo.lookup key := by
  induction metaInfo with
  | nil =>
    rw [Indexing.insert, lookup_cons]
    by_cases here : key = "metrics"
    · rw [if_pos here, here, beq_self_eq_true]
    · rw [if_neg here, beq_eq_false_iff_ne.mpr here]
  | cons entry rest ih =>
    rw [Indexing.insert]
    by_cases metrics : entry.1 = "metrics"
    · rw [if_pos metrics, lookup_cons, lookup_cons, metrics]
      by_cases here : key = "metrics"
      · rw [if_pos here, here, beq_self_eq_true]
      · rw [if_neg here, beq_eq_false_iff_ne.mpr here]
    · rw [if_neg metrics, lookup_cons, lookup_cons, ih]
      by_cases same : key = entry.1
      · rw [same, beq_self_eq_true]
        exact (if_neg metrics).symm
      · rw [beq_eq_false_iff_ne.mpr same]

theorem flatMap_copies {α β : Type} (f : α → List β) (items : List α) (copies : Nat) :
    (replicate copies items).flatten.flatMap f = (replicate copies (items.flatMap f)).flatten := by
  induction copies with
  | zero => rfl
  | succ copies ih => rw [replicate_succ, replicate_succ, flatten_cons, flatten_cons, flatMap_append, ih]

theorem mergeValues_same (distinct : (metaInfo.map Prod.fst).Nodup) (copies : Nat) :
    ((∃ merged, (replicate (copies + 2) metaInfo).flatten.foldlM mergeValue [] = .ok merged) ↔
      ∀ entry ∈ metaInfo, entry.1 ≠ "metrics" → (entry.2 == entry.2) = true) ∧
    ∀ merged, (replicate (copies + 2) metaInfo).flatten.foldlM mergeValue [] = .ok merged →
      merged = metaInfo.filter (fun entry => decide (entry.1 ≠ "metrics")) := by
  have first : metaInfo.foldlM mergeValue [] = _ := mergeValues_first distinct (fun _ _ => rfl)
  rw [nil_append] at first
  have known : ∀ entry ∈ metaInfo, entry.1 ≠ "metrics" →
      (metaInfo.filter (fun entry => decide (entry.1 ≠ "metrics"))).lookup entry.1 = some entry.2 := by
    intro entry member other
    rw [lookup_filter_metrics, if_neg other]
    exact lookup_of_mem distinct member
  constructor
  · have twice : (replicate 2 metaInfo).flatten = metaInfo ++ metaInfo := by simp
    rw [mergeValues_copies, twice, foldlM_append, first, ok_bind]
    exact mergeValues_again known
  · intro merged returned
    rw [replicate_succ, flatten_cons, foldlM_append, first, ok_bind] at returned
    apply mergeValues_known ?_ returned
    intro entry member other
    obtain ⟨copy, isCopy, inside⟩ := mem_flatten.mp member
    rw [(mem_replicate.mp isCopy).2] at inside
    rw [known entry inside other]
    rfl

omit [Value μ] in
theorem listOfDict_head {first : String × μ} {rest : List (String × μ)} {dicts : List (List (String × μ))} {lists : List (String × List μ)}
    (listed : listOfDictToDictOfList ((first :: rest) :: dicts) = .ok lists) :
    ∃ items others, lists = (first.1, items) :: others ∧ first.2 ∈ items := by
  have kept : ∀ (output : List (String × List μ)) (entry : String × μ) next,
      (∃ items others, output = (first.1, items) :: others ∧ first.2 ∈ items) → appendAt output entry = .ok next →
        ∃ items others, next = (first.1, items) :: others ∧ first.2 ∈ items := by
    intro output entry next has appended
    obtain ⟨items, others, rfl, member⟩ := has
    rw [appendAt] at appended
    split at appended
    · cases appended
      exact ⟨_, _, rfl, mem_append_left _ member⟩
    · obtain ⟨rest, -, rfl⟩ := map_eq_ok.mp appended
      exact ⟨items, rest, rfl, member⟩
  have head : appendAt ((first :: rest).map (fun entry => (entry.1, []))) first = .ok ((first.1, [first.2]) :: rest.map (fun entry => (entry.1, []))) := by
    rw [map_cons, appendAt, if_pos rfl]
    rfl
  rw [listOfDictToDictOfList, foldlM_cons, foldlM_cons, head, ok_bind] at listed
  obtain ⟨output, once, listed⟩ := bind_eq_ok.mp listed
  have started := foldlM_preserves _ kept ⟨[first.2], _, rfl, mem_singleton_self _⟩ once
  exact foldlM_preserves _ (fun _ _ _ has appended => foldlM_preserves _ kept has appended) started listed

variable [LawfulValue μ]

theorem mergeMetaInfo_same (distinct : (metaInfo.map Prod.fst).Nodup) (copies : Nat) :
    (∃ merged, mergeMetaInfo (replicate (copies + 2) metaInfo) = .ok merged ∧ SameMeta merged metaInfo) ↔ MetaSurvives metaInfo := by
  obtain ⟨values, kept⟩ := mergeValues_same distinct copies
  have allMetrics : (replicate (copies + 2) metaInfo).flatten.flatMap entryMetrics = (replicate (copies + 2)
      ((metaInfo.lookup "metrics").elim [] (fun value => entryMetrics ("metrics", value)))).flatten := by
    rw [flatMap_copies, flatMap_entryMetrics distinct]
  constructor
  · rintro ⟨merged, returned, same⟩
    have succeeds := mergeMetaInfo_succeeds.mp ⟨merged, returned⟩
    refine ⟨values.mp succeeds.1, ?_⟩
    obtain ⟨⟨out, outed⟩, -⟩ := succeeds
    have isOut := kept out outed
    cases found : metaInfo.lookup "metrics" with
    | none => exact Or.inl rfl
    | some value =>
      refine Or.inr (congrArg some ?_)
      rw [mergeMetaInfo, mergeEntries_eq, outed] at returned
      simp only [Except.map, ok_bind, nil_append, allMetrics, found, Option.elim_some] at returned
      split at returned
      · -- without metrics the key is dropped
        cases returned
        have dropped := same "metrics"
        rw [isOut, lookup_filter_metrics, if_pos rfl, found] at dropped
        cases dropped
      · obtain ⟨dicts, read, returned⟩ := bind_eq_ok.mp returned
        obtain ⟨lists, listed, returned⟩ := bind_eq_ok.mp returned
        cases returned
        have isDict := same "metrics"
        rw [lookup_insert_metrics, if_pos rfl, found] at isDict
        cases isDict
        have single : entryMetrics ("metrics", Value.ofDict (lists.map (fun entry => (entry.1, Value.ofList entry.2)))) =
            [(Value.ofDict (lists.map (fun entry => (entry.1, Value.ofList entry.2))) : μ)] := by
          rw [entryMetrics, if_pos rfl, LawfulValue.ofDict_isNone, LawfulValue.ofDict_asList]
          rfl
        rw [single, replicate_succ, flatten_cons, singleton_append] at read
        cases mapM_succeeded read with
        | cons first _ =>
          cases (LawfulValue.ofDict_asDict _).symm.trans (requireDict_eq_ok.mp first)
          cases lists with
          | nil => rfl
          | cons column columns =>
            -- a list would have itself in it
            obtain ⟨key, column⟩ := column
            obtain ⟨items, others, isHead, member⟩ := listOfDict_head listed
            cases isHead
            obtain ⟨size, founded⟩ : ∃ size : μ → Nat, ∀ items : List μ, ∀ item ∈ items, size item < size (Value.ofList items) :=
              LawfulValue.founded
            exact absurd (founded column _ member) (Nat.lt_irrefl _)
  · rintro ⟨equal, metrics⟩
    obtain ⟨out, outed⟩ := values.mpr equal
    have isOut := kept out outed
    subst isOut
    rw [mergeMetaInfo, mergeEntries_eq, outed]
    simp only [Except.map, ok_bind, nil_append, allMetrics]
    cases metrics with
    | inl none =>
      rw [none, Option.elim_none, show (replicate (copies + 2) ([] : List μ)).flatten = [] by simp]
      refine ⟨_, rfl, ?_⟩
      intro key
      rw [lookup_filter_metrics]
      split
      · next here => rw [here, none]
      · rfl
    | inr empty =>
      have single : entryMetrics ("metrics", (Value.ofDict [] : μ)) = [Value.ofDict []] := by
        rw [entryMetrics, if_pos rfl, LawfulValue.ofDict_isNone, LawfulValue.ofDict_asList]
        rfl
      have read : (replicate (copies + 2) (Value.ofDict [] : μ)).mapM requireDict = .ok (replicate (copies + 2) []) := by
        rw [mapM_map (fun _ => []) ?_, map_replicate]
        intro item member
        rw [(mem_replicate.mp member).2]
        exact requireDict_eq_ok.mpr (LawfulValue.ofDict_asDict [])
      have listed : listOfDictToDictOfList (replicate (copies + 2) ([] : List (String × μ))) = .ok [] := by
        rw [replicate_succ, listOfDictToDictOfList]
        generalize isDicts : [] :: replicate (copies + 1) ([] : List (String × μ)) = dicts
        have blank : ∀ dict ∈ dicts, dict = [] := by
          rw [← isDicts]
          intro dict member
          cases mem_cons.mp member with
          | inl here => exact here
          | inr later => exact (mem_replicate.mp later).2
        clear isDicts
        induction dicts with
        | nil => rfl
        | cons dict dicts ih =>
          rw [foldlM_cons, blank dict mem_cons_self]
          exact ih (fun other member => blank other (mem_cons_of_mem _ member))
      have copies' : (replicate (copies + 2) [(Value.ofDict [] : μ)]).flatten = replicate (copies + 2) (Value.ofDict []) := by
        simp
      rw [empty, Option.elim_some, single, copies', read, ok_bind, listed]
      refine ⟨_, rfl, ?_⟩
      intro key
      rw [map_nil, lookup_insert_metrics, lookup_filter_metrics]
      split
      · next here => rw [here, empty]
      · rfl

end Merging

/-! ### Padding and taking it off -/

/-- Every row of the columns is the one of the same place in its round. -/
def Cycles {α : Type} (rows length : Nat) (columns padded : List (String × List α)) : Prop :=
  List.Forall₂ (fun column column' => column'.1 = column.1 ∧ ∀ j < rows, column'.2[j]? = column.2[j % length]?) columns padded

/-- The padded batch has the least multiple of the divisor as its length, in every column, and cycles through the rows.
Without the padding it is the batch again. -/
def DataProto.PadsAndRestores [Value μ] (data : DataProto τ ν μ) (sizeDivisor : Nat) : Prop :=
  ∃ padded padSize restored, padDataprotoToDivisor data sizeDivisor = .ok (padded, padSize) ∧
    IsLeast {length | sizeDivisor ∣ length ∧ data.len ≤ length} padded.len ∧ HasRows padded.len padded ∧
    (padded.batch = none ↔ data.batch = none) ∧
    (∀ table table', data.batch = some table → padded.batch = some table' →
      Cycles padded.len data.len table.columns table'.columns) ∧
    Cycles padded.len data.len data.nonTensorBatch padded.nonTensorBatch ∧
    unpadDataproto padded padSize = .ok restored ∧ SameColumns restored data ∧ SameMeta restored.metaInfo data.metaInfo

section Pads
variable {data : DataProto τ ν μ}

theorem cycles_mapColumns {α : Type} {rows length : Nat} (some : 0 < length) {columns : List (String × List α)}
    (lengths : ∀ column ∈ columns, column.2.length = length) :
    Cycles rows length columns (mapColumns (cycled α rows).apply columns) := by
  rw [Cycles, mapColumns, forall₂_map_right_iff, forall₂_same]
  intro column member
  refine ⟨rfl, ?_⟩
  intro j inside
  have isLength := lengths column member
  rw [cycled_getElem? (isLength ▸ some) inside, isLength]

theorem cycles_self {α : Type} {length : Nat} (columns : List (String × List α)) : Cycles length length columns columns := by
  rw [Cycles, forall₂_same]
  intro column _
  refine ⟨rfl, ?_⟩
  intro j inside
  rw [Nat.mod_eq_of_lt inside]

theorem padded_isLeast {length sizeDivisor : Nat} (positive : 0 < sizeDivisor) (rest : length % sizeDivisor ≠ 0) :
    IsLeast {multiple | sizeDivisor ∣ multiple ∧ length ≤ multiple} (length + (sizeDivisor - length % sizeDivisor)) := by
  have quotient := Nat.div_add_mod length sizeDivisor
  have below := Nat.mod_lt length positive
  have next : length + (sizeDivisor - length % sizeDivisor) = sizeDivisor * (length / sizeDivisor + 1) := by
    rw [Nat.mul_succ]
    omega
  refine ⟨⟨⟨_, next⟩, Nat.le_add_right _ _⟩, ?_⟩
  rintro multiple ⟨⟨count, rfl⟩, enough⟩
  rw [next]
  apply Nat.mul_le_mul_left
  by_contra fewer
  have most := Nat.mul_le_mul_left sizeDivisor (Nat.le_of_lt_succ (Nat.lt_of_not_le fewer))
  omega

theorem between_cycled (some : 0 < data.len) (hasRows : HasRows data.len data) {rows round size : Nat} (short : size ≤ data.len)
    (inside : round * data.len + size ≤ rows) : SameColumns (data.between 0 size)
      ((onColumns (cycled τ rows) (cycled ν rows) data).between (round * data.len) (round * data.len + size)) := by
  constructor
  · show data.batch.map _ = (data.batch.map _).map _
    rw [Option.map_map]
    apply Option.map_congr
    intro table isTable
    have isRows := hasRows.tensors table isTable
    apply TensorDict.ext
    · show min size table.batchSize - 0 = min (round * data.len + size) (min rows (rows * table.batchSize)) - round * data.len
      have enough : rows ≤ rows * table.batchSize := Nat.le_mul_of_pos_right rows (isRows ▸ some)
      omega
    · show mapColumns (slice · 0 size) table.columns = mapColumns (slice · (round * data.len) (round * data.len + size))
        (mapColumns (cycled τ rows).apply table.columns)
      rw [mapColumns, mapColumns, mapColumns, map_map]
      apply map_congr_left
      intro column member
      exact Prod.ext rfl (slice_cycled ((table.regular column member).trans isRows) some short inside).symm
  · show mapColumns (slice · 0 size) data.nonTensorBatch = mapColumns (slice · (round * data.len) (round * data.len + size))
      (mapColumns (cycled ν rows).apply data.nonTensorBatch)
    rw [mapColumns, mapColumns, mapColumns, map_map]
    apply map_congr_left
    intro column member
    exact Prod.ext rfl (slice_cycled (hasRows.others column member) some short inside).symm

theorem between_whole (hasRows : HasRows data.len data) : SameColumns (data.between 0 data.len) data := by
  constructor
  · show data.batch.map (fun table => table.slice 0 data.len) = data.batch
    cases isBatch : data.batch with
    | none => rfl
    | some table =>
      have isRows := hasRows.tensors table isBatch
      refine congrArg some (TensorDict.ext ?_ ?_)
      · show min data.len table.batchSize - 0 = table.batchSize
        omega
      · refine mapColumns_self.mpr ?_
        intro column member
        exact slice_full _ _ (Nat.le_of_eq ((table.regular column member).trans isRows))
  · refine mapColumns_self.mpr ?_
    intro column member
    exact slice_full _ _ (Nat.le_of_eq (hasRows.others column member))

variable {first second : DataProto τ ν μ}

theorem between_same (same : SameColumns first second) (start stop : Nat) :
    SameColumns (first.between start stop) (second.between start stop) := by
  constructor
  · show first.batch.map (fun table => table.slice start stop) = second.batch.map (fun table => table.slice start stop)
    rw [same.1]
  · show mapColumns (slice · start stop) first.nonTensorBatch = mapColumns (slice · start stop) second.nonTensorBatch
    rw [same.2]

def DataProto.padCopies (data : DataProto τ ν μ) (padSize : Nat) : Nat := (takeSizes data.len padSize padSize).length + 1

variable [Value μ]

theorem pad_concat {sizeDivisor : Nat} (positive : 0 < sizeDivisor) (rest : data.len % sizeDivisor ≠ 0) (padded : DataProto τ ν μ) (padSize : Nat) :
    padDataprotoToDivisor data sizeDivisor = .ok (padded, padSize) ↔ padSize = sizeDivisor - data.len % sizeDivisor ∧
      DataProto.concat (data :: (takeSizes data.len padSize padSize).map (fun takeSize => data.between 0 takeSize)) = .ok padded := by
  have slices (padSize : Nat) : (takeSizes data.len padSize padSize).mapM (fun takeSize => data.slice 0 takeSize) =
      .ok ((takeSizes data.len padSize padSize).map (fun takeSize => data.between 0 takeSize)) :=
    mapM_map _ (fun takeSize _ => DataProto.make_self (data.between 0 takeSize))
  rw [padDataprotoToDivisor, if_neg (Nat.ne_of_gt positive), if_pos rest]
  simp only [slices, ok_bind]
  constructor
  · intro returned
    split at returned
    · next whole concated =>
      cases returned
      exact ⟨rfl, concated⟩
    · cases returned
  · rintro ⟨rfl, concated⟩
    rw [concated]

theorem pad_ok (some : 0 < data.len) (hasRows : HasRows data.len data) {padSize : Nat} {merged : List (String × μ)}
    (merges : mergeMetaInfo (replicate (data.padCopies padSize) data.metaInfo) = .ok merged) :
    ∃ padded, DataProto.concat (data :: (takeSizes data.len padSize padSize).map (fun takeSize => data.between 0 takeSize)) = .ok padded ∧
      SameColumns padded (onColumns (cycled τ (data.len + padSize)) (cycled ν (data.len + padSize)) data) ∧ padded.metaInfo = merged := by
  have sum := takeSizes_sum some (Nat.le_refl padSize)
  have covers := boundsFrom_covers data.len (takeSizes data.len padSize padSize)
  have bounds := takeSizes_bounds some (Nat.le_refl padSize) 1 (show 1 * data.len + padSize ≤ data.len + padSize by omega)
  rw [Nat.one_mul] at bounds
  rw [sum] at covers
  have wholeRows : HasRows (data.len + padSize) (onColumns (cycled τ (data.len + padSize)) (cycled ν (data.len + padSize)) data) := by
    have rows := onColumns_hasRows (cycled τ (data.len + padSize)) (cycled ν (data.len + padSize)) hasRows
    rwa [Nat.min_eq_left (Nat.le_mul_of_pos_right _ some)] at rows
  have first : SameColumns data ((onColumns (cycled τ (data.len + padSize)) (cycled ν (data.len + padSize)) data).between 0 data.len) := by
    have cut := between_cycled some hasRows (Nat.le_refl data.len) (show 0 * data.len + data.len ≤ data.len + padSize by omega)
    rw [Nat.zero_mul, Nat.zero_add] at cut
    have whole := between_whole hasRows
    exact ⟨whole.1.symm.trans cut.1, whole.2.symm.trans cut.2⟩
  have later : List.Forall₂ (fun item piece => SameColumns item
      ((onColumns (cycled τ (data.len + padSize)) (cycled ν (data.len + padSize)) data).between piece.1 piece.2))
      ((takeSizes data.len padSize padSize).map (fun takeSize => data.between 0 takeSize))
      (boundsFrom data.len (takeSizes data.len padSize padSize)) := by
    rw [forall₂_map_left_iff]
    refine bounds.imp ?_
    rintro takeSize bound ⟨short, round, rfl, inside⟩
    exact between_cycled some hasRows short inside
  have metaInfos : (data :: (takeSizes data.len padSize padSize).map (fun takeSize => data.between 0 takeSize)).map DataProto.metaInfo =
      replicate (data.padCopies padSize) data.metaInfo := by
    rw [map_cons, map_map, DataProto.padCopies, replicate_succ, ← map_const']
    rfl
  obtain ⟨padded, concated, same, isMerged⟩ := concat_pieces wholeRows (show Covers 0 (data.len + padSize) ((0, data.len) :: _) from
    ⟨rfl, Nat.zero_le _, covers⟩) (cons_ne_nil _ _) (.cons first later) (metaInfos ▸ merges)
  exact ⟨padded, concated, same, isMerged⟩

omit [Value μ] in
theorem dropLast_eq {rows : Nat} (hasRows : HasRows rows data) (padSize : Nat) :
    data.dropLast padSize = .ok (data.between 0 (rows - padSize)) := by
  have batch : data.batch.map (fun table => table.slice 0 (table.batchSize - padSize)) =
      data.batch.map (fun table => table.slice 0 (rows - padSize)) :=
    Option.map_congr (fun table isTable => by rw [hasRows.tensors table isTable])
  have columns : mapColumns (fun items => slice items 0 (items.length - padSize)) data.nonTensorBatch =
      mapColumns (slice · 0 (rows - padSize)) data.nonTensorBatch :=
    map_congr_left (fun column member => by simp only [hasRows.others column member])
  rw [DataProto.dropLast, batch, columns]
  exact DataProto.make_self (data.between 0 (rows - padSize))

omit [Value μ] in
theorem hasRows_same {rows : Nat} (same : SameColumns first second) (hasRows : HasRows rows second) :
    HasRows rows first where
  tensors table isTable := hasRows.tensors table (same.1 ▸ isTable)
  others column member := hasRows.others column (same.2 ▸ member)

omit [Value μ] in
theorem len_of_columns {rows : Nat} (hasRows : HasRows rows first) (some : 0 < second.len)
    (batches : second.batch ≠ none → first.batch ≠ none) (others : second.nonTensorBatch ≠ [] → first.nonTensorBatch ≠ []) :
    first.len = rows := by
  cases isBatch : first.batch with
  | some table =>
    rw [DataProto.len, isBatch]
    exact hasRows.tensors table isBatch
  | none =>
    have noBatch : second.batch = none := by
      by_contra present
      exact batches present isBatch
    cases columns : first.nonTensorBatch with
    | cons column rest =>
      rw [DataProto.len, isBatch, columns]
      exact hasRows.others column (columns ▸ mem_cons_self)
    | nil =>
      have noColumns : second.nonTensorBatch = [] := by
        by_contra present
        exact others present columns
      rw [DataProto.len, noBatch, noColumns] at some
      cases some

omit [Value μ] in
theorem padded_restores (some : 0 < data.len) (hasRows : HasRows data.len data) {padSize : Nat} {padded : DataProto τ ν μ}
    (same : SameColumns padded (onColumns (cycled τ (data.len + padSize)) (cycled ν (data.len + padSize)) data)) :
    HasRows (data.len + padSize) padded ∧ padded.dropLast padSize = .ok (padded.between 0 data.len) ∧
      SameColumns (padded.between 0 data.len) data := by
  have wholeRows := onColumns_hasRows (cycled τ (data.len + padSize)) (cycled ν (data.len + padSize)) hasRows
  rw [Nat.min_eq_left (Nat.le_mul_of_pos_right _ some)] at wholeRows
  have paddedRows := hasRows_same same wholeRows
  have dropped := dropLast_eq paddedRows padSize
  rw [Nat.add_sub_cancel] at dropped
  have cut := between_cycled some hasRows (Nat.le_refl data.len) (show 0 * data.len + data.len ≤ data.len + padSize by omega)
  rw [Nat.zero_mul, Nat.zero_add] at cut
  have first := between_same same 0 data.len
  have whole := between_whole hasRows
  exact ⟨paddedRows, dropped, first.1.trans (cut.1.symm.trans whole.1), first.2.trans (cut.2.symm.trans whole.2)⟩

/-- Padding and taking it off restores a batch exactly when all columns have its length and, unless nothing is
padded, the `meta_info` survives the merge. -/
theorem pad_unpad_iff [LawfulValue μ] (data : DataProto τ ν μ) (some : 0 < data.len) (distinct : (data.metaInfo.map Prod.fst).Nodup)
    {sizeDivisor : Nat} (positive : 0 < sizeDivisor) :
    data.PadsAndRestores sizeDivisor ↔ HasRows data.len data ∧ (sizeDivisor ∣ data.len ∨ MetaSurvives data.metaInfo) := by
  by_cases rest : data.len % sizeDivisor = 0
  · have unchanged : padDataprotoToDivisor data sizeDivisor = .ok (data, 0) := by
      rw [padDataprotoToDivisor, if_neg (Nat.ne_of_gt positive), if_neg (not_not.mpr rest)]
    have divides := Nat.dvd_of_mod_eq_zero rest
    constructor
    · rintro ⟨padded, padSize, restored, returned, -, hasRows, -⟩
      cases unchanged.symm.trans returned
      exact ⟨hasRows, Or.inl divides⟩
    · rintro ⟨hasRows, -⟩
      refine ⟨data, 0, data, unchanged, ⟨⟨divides, Nat.le_refl _⟩, fun _ other => other.2⟩, hasRows, Iff.rfl, ?_, cycles_self _, rfl,
        ⟨rfl, rfl⟩, fun _ => rfl⟩
      intro table table' isTable isTable'
      cases isTable.symm.trans isTable'
      exact cycles_self _
  · have least := padded_isLeast positive rest
    have padding : 0 < sizeDivisor - data.len % sizeDivisor := Nat.sub_pos_of_lt (Nat.mod_lt _ positive)
    obtain ⟨copies, isCopies⟩ : ∃ copies, data.padCopies (sizeDivisor - data.len % sizeDivisor) = copies + 2 :=
      ⟨_, by rw [DataProto.padCopies, ← Nat.sub_add_cancel (List.length_pos_iff.mpr (takeSizes_some padding))]⟩
    have survives := mergeMetaInfo_same distinct copies
    rw [← isCopies] at survives
    constructor
    · rintro ⟨padded, padSize, restored, returned, isLeast, hasRows, -, -, -, unpadded, same, sameMeta⟩
      obtain ⟨rfl, concated⟩ := (pad_concat positive rest padded padSize).mp returned
      have length : padded.len = data.len + (sizeDivisor - data.len % sizeDivisor) := isLeast.unique least
      rw [unpadDataproto, if_pos (Nat.ne_of_gt padding), dropLast_eq hasRows, length, Nat.add_sub_cancel] at unpadded
      cases unpadded
      have dataRows : HasRows data.len data := by
        have cut : HasRows (data.len - 0) (padded.between 0 data.len) :=
          HasRows.between hasRows (show data.len ≤ padded.len by omega)
        exact hasRows_same ⟨same.1.symm, same.2.symm⟩ cut
      refine ⟨dataRows, Or.inr ?_⟩
      obtain ⟨merged, merges⟩ := concat_merges concated
      have metaInfos : (data :: (takeSizes data.len (sizeDivisor - data.len % sizeDivisor) (sizeDivisor - data.len % sizeDivisor)).map
          (fun takeSize => data.between 0 takeSize)).map DataProto.metaInfo =
            List.replicate (data.padCopies (sizeDivisor - data.len % sizeDivisor)) data.metaInfo := by
        rw [List.map_cons, List.map_map, DataProto.padCopies, List.replicate_succ, ← List.map_const']
        rfl
      rw [metaInfos] at merges
      obtain ⟨padded', concated', -, isMerged⟩ := pad_ok some dataRows merges
      cases concated.symm.trans concated'
      exact survives.mp ⟨merged, merges, isMerged ▸ sameMeta⟩
    · rintro ⟨hasRows, divides | isSame⟩
      · exact absurd (Nat.mod_eq_zero_of_dvd divides) rest
      · obtain ⟨merged, merges, sameMeta⟩ := survives.mpr isSame
        obtain ⟨padded, concated, same, isMerged⟩ := pad_ok some hasRows merges
        obtain ⟨paddedRows, dropped, restores⟩ := padded_restores some hasRows same
        have length : padded.len = data.len + (sizeDivisor - data.len % sizeDivisor) := by
          apply len_of_columns paddedRows some
          · intro present none
            rw [same.1] at none
            exact present (Option.map_eq_none_iff.mp none)
          · intro present none
            rw [same.2] at none
            exact present (List.map_eq_nil_iff.mp none)
        refine ⟨padded, _, padded.between 0 data.len, (pad_concat positive rest _ _).mpr ⟨rfl, concated⟩, length ▸ least,
          length ▸ paddedRows, ?_, ?_, ?_, ?_, restores, ?_⟩
        · rw [same.1]
          exact Option.map_eq_none_iff
        · intro table table' isTable isTable'
          rw [same.1] at isTable'
          obtain ⟨original, isOriginal, rfl⟩ := Option.map_eq_some_iff.mp isTable'
          cases isTable.symm.trans isOriginal
          rw [length]
          exact cycles_mapColumns some (fun column member => (table.regular column member).trans (hasRows.tensors table isTable))
        · rw [same.2, length]
          exact cycles_mapColumns some hasRows.others
        · rw [unpadDataproto, if_pos (Nat.ne_of_gt padding)]
          exact dropped
        · rw [show (padded.between 0 data.len).metaInfo = padded.metaInfo from rfl, isMerged]
          exact sameMeta

end Pads

/-! ### Python's values -/

/-- Numbers, lists and dictionaries as they are nested. -/
inductive PyValue where
  | nothing
  | number (value : Nat)
  | list (items : List PyValue)
  | dict (entries : List (String × PyValue))

mutual

/-- Dictionaries are compared in the order of their entries. -/
def PyValue.equal : PyValue → PyValue → Bool
  | .nothing, .nothing => true
  | .number first, .number second => first == second
  | .list first, .list second => PyValue.equalItems first second
  | .dict first, .dict second => PyValue.equalEntries first second
  | _, _ => false

def PyValue.equalItems : List PyValue → List PyValue → Bool
  | [], [] => true
  | first :: firsts, second :: seconds => first.equal second && PyValue.equalItems firsts seconds
  | _, _ => false

def PyValue.equalEntries : List (String × PyValue) → List (String × PyValue) → Bool
  | [], [] => true
  | (key, first) :: firsts, (key', second) :: seconds => key == key' && first.equal second && PyValue.equalEntries firsts seconds
  | _, _ => false

end

instance : Value PyValue where
  beq := PyValue.equal
  truthy
    | .nothing => false
    | .number value => value ≠ 0
    | .list items => !items.isEmpty
    | .dict entries => !entries.isEmpty
  isNone
    | .nothing => true
    | _ => false
  asList
    | .list items => some items
    | _ => none
  asDict
    | .dict entries => some entries
    | _ => none
  ofList := .list
  ofDict := .dict

instance : LawfulValue PyValue where
  ofDict_asList _ := rfl
  ofDict_isNone _ := rfl
  ofDict_asDict _ := rfl
  founded := by
    refine ⟨sizeOf, ?_⟩
    intro items item member
    have inside := List.sizeOf_lt_of_mem member
    show sizeOf item < sizeOf (PyValue.list items)
    rw [PyValue.list.sizeOf_spec]
    omega

/-- Three rows. -/
def threeRows (metaInfo : List (String × PyValue)) : DataProto Nat Nat PyValue where
  batch := some ⟨3, [("input_ids", [5, 6, 7])], List.nodup_singleton _, by simp⟩
  nonTensorBatch := [("uid", [0, 1, 2])]
  metaInfo := metaInfo
  distinct := List.nodup_singleton _
  consistent := by
    intro table isTable column member
    cases isTable
    rw [List.mem_singleton.mp member]
    rfl

theorem pad_unpad_three : (threeRows [("global_steps", .number 4)]).PadsAndRestores 8 := by
  refine (pad_unpad_iff (threeRows [("global_steps", .number 4)]) (by decide) (List.nodup_singleton _) (by decide)).mpr ⟨⟨?_, ?_⟩, Or.inr ?_⟩
  · intro table isTable
    cases isTable
    rfl
  · intro column member
    rw [List.mem_singleton.mp member]
    rfl
  · refine ⟨?_, Or.inl rfl⟩
    intro entry member _
    rw [List.mem_singleton.mp member]
    rfl

/-- The metrics of a batch are lists behind the padding. -/
theorem metrics_not_restored : ¬ (threeRows [("metrics", .dict [("loss", .number 1)])]).PadsAndRestores 2 := by
  rintro ⟨padded, padSize, restored, returned, -, -, -, -, -, unpadded, -, same⟩
  cases returned
  cases unpadded
  have metrics := same "metrics"
  cases metrics

end LLMFusion.Protocol
