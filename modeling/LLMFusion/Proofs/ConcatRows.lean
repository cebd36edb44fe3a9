import LLMFusion.Proofs.ChunkConcat

/-! Rows of concatenated batches. A column holds the rows of the inputs that have its key, so
the columns stay aligned exactly when no input with rows lacks one. -/

namespace LLMFusion.Protocol
open Fallible List

variable {τ ν μ : Type}

/-! ### Lists of dictionaries -/

section Dictionaries
variable {α : Type}

theorem appendAt_lookup {output next : List (String × List α)} {entry : String × α}
    (returned : appendAt output entry = .ok next) (key : String) :
    next.lookup key = (output.lookup key).map (fun items => if key = entry.1 then items ++ [entry.2] else items) := by
  induction output generalizing next with
  | nil => cases returned
  | cons column columns ih =>
    obtain ⟨name, items⟩ := column
    rw [appendAt] at returned
    by_cases here : name = entry.1
    · rw [if_pos here] at returned
      cases returned
      by_cases same : key = name
      · simp [same, here]
      · have other : key ≠ entry.1 := here ▸ same
        simp [lookup_cons, beq_eq_false_iff_ne.mpr same, other]
    · rw [if_neg here] at returned
      obtain ⟨rest, appended, rfl⟩ := map_eq_ok.mp returned
      by_cases same : key = name
      · simp [same, here]
      · simp only [lookup_cons, beq_eq_false_iff_ne.mpr same, ih appended]

theorem appendDict_lookup {dict : List (String × α)} (distinct : (dict.map Prod.fst).Nodup)
    {output next : List (String × List α)} (returned : dict.foldlM appendAt output = .ok next) (key : String) :
    next.lookup key = (output.lookup key).map (· ++ (dict.lookup key).toList) := by
  induction dict generalizing output with
  | nil =>
    cases returned
    simp
  | cons entry dict ih =>
    rw [foldlM_cons] at returned
    obtain ⟨first, appended, returned⟩ := bind_eq_ok.mp returned
    rw [map_cons, nodup_cons] at distinct
    rw [ih distinct.2 returned, appendAt_lookup appended, Option.map_map, lookup_cons]
    by_cases same : key = entry.1
    · have absent : dict.lookup key = none := by
        rw [lookup_eq_none_iff]
        intro other member
        rw [same, bne_iff_ne]
        intro equal
        exact distinct.1 (equal ▸ mem_map_of_mem member)
      simp [same, Function.comp_def, same ▸ absent]
    · simp [same, beq_eq_false_iff_ne.mpr same, Function.comp_def]

theorem listOfDict_columns {dicts : List (List (String × α))} (distinct : ∀ dict ∈ dicts, (dict.map Prod.fst).Nodup)
    {lists : List (String × List α)} (returned : listOfDictToDictOfList dicts = .ok lists) :
    lists = ((dicts.headD []).map Prod.fst).map (fun key => (key, dicts.filterMap (fun dict => dict.lookup key))) := by
  have keys : ∀ {output next : List (String × List α)} {dict : List (String × α)},
      dict.foldlM appendAt output = .ok next → next.map Prod.fst = output.map Prod.fst :=
    fun returned => foldlM_keeps (map Prod.fst) (fun _ _ _ => appendAt_keys) returned
  have loop : ∀ {dicts : List (List (String × α))} {output next : List (String × List α)},
      (∀ dict ∈ dicts, (dict.map Prod.fst).Nodup) →
      dicts.foldlM (fun output data => data.foldlM appendAt output) output = .ok next → ∀ key,
        next.lookup key = (output.lookup key).map (· ++ dicts.filterMap (fun dict => dict.lookup key)) := by
    intro dicts
    induction dicts with
    | nil =>
      intro output next _ returned key
      cases returned
      simp
    | cons dict dicts ih =>
      intro output next distinct returned key
      rw [foldlM_cons] at returned
      obtain ⟨first, appended, returned⟩ := bind_eq_ok.mp returned
      rw [ih (fun other member => distinct other (mem_cons_of_mem _ member)) returned key,
        appendDict_lookup (distinct dict mem_cons_self) appended, Option.map_map, filterMap_cons]
      cases dict.lookup key <;> simp [Function.comp_def]
  cases dicts with
  | nil =>
    cases returned
    rfl
  | cons first rest =>
    rw [listOfDictToDictOfList] at returned
    have sameKeys : lists.map Prod.fst = first.map Prod.fst := by
      rw [foldlM_keeps (map Prod.fst) (fun _ _ _ => keys) returned, map_map]
      rfl
    have unique := distinct first mem_cons_self
    rw [headD_cons, ← sameKeys]
    rw [← sameKeys] at unique
    conv_lhs => rw [← map_id lists]
    rw [map_map]
    apply map_congr_left
    intro column member
    have found := lookup_of_mem unique member
    rw [loop distinct returned column.1] at found
    obtain ⟨start, started, columns⟩ := Option.map_eq_some_iff.mp found
    obtain ⟨entry, _, isEmpty⟩ := mem_map.mp (lookup_mem started)
    rw [← (Prod.mk.inj isEmpty).2, nil_append] at columns
    exact Prod.ext rfl columns.symm

end Dictionaries

/-! ### Rows of the inputs -/

/-- The rows of the inputs, one input behind the other. -/
def sourceRows (data : List (DataProto τ ν μ)) : List (DataProto τ ν μ × Nat) :=
  data.flatMap (fun item => (List.range item.len).map (fun row => (item, row)))

def itemAt {α : Type} (columns : List (String × List α)) (key : String) (row : Nat) : Option α :=
  (columns.lookup key).bind (·[row]?)

/-- Every column has the rows of all inputs, each from the same one as in the other columns. -/
structure Joined (data : List (DataProto τ ν μ)) (result : DataProto τ ν μ) : Prop where
  tensorLengths : ∀ table, result.batch = some table → ∀ column ∈ table.columns,
    column.2.length = (data.map DataProto.len).sum
  otherLengths : ∀ column ∈ result.nonTensorBatch, column.2.length = (data.map DataProto.len).sum
  tensorRows : ∀ table, result.batch = some table → ∀ column ∈ table.columns,
    column.2.map some = (sourceRows data).map (fun source =>
      source.1.batch.bind (fun table => itemAt table.columns column.1 source.2))
  otherRows : ∀ column ∈ result.nonTensorBatch,
    column.2.map some = (sourceRows data).map (fun source => itemAt source.1.nonTensorBatch column.1 source.2)

/-- No input with rows lacks a column of the first. -/
def Complete (data : List (DataProto τ ν μ)) : Prop :=
  ∀ first ∈ data.head?, ∀ item ∈ data, item.len ≠ 0 →
    ∀ column ∈ first.nonTensorBatch, ∃ items, (column.1, items) ∈ item.nonTensorBatch

section Columns
variable {α γ : Type} {find : γ → Option (List α)} {len : γ → Nat} {inputs : List γ}

section
variable (lengths : ∀ input ∈ inputs, ∀ items, find input = some items → items.length = len input)
include lengths

/-- What the inputs with a key have is as long as all inputs only if no input with rows lacks it. -/
theorem complete_of_length (whole : (inputs.filterMap find).flatten.length = (inputs.map len).sum) :
    ∀ input ∈ inputs, len input ≠ 0 → (find input).isSome := by
  have bound : ∀ inputs : List γ, (∀ input ∈ inputs, ∀ items, find input = some items → items.length = len input) →
      (inputs.filterMap find).flatten.length ≤ (inputs.map len).sum := by
    intro inputs
    induction inputs with
    | nil => simp
    | cons input inputs ih =>
      intro lengths
      have rest := ih (fun other member => lengths other (mem_cons_of_mem _ member))
      rw [filterMap_cons, map_cons, sum_cons]
      cases found : find input with
      | none => exact Nat.le_trans rest (Nat.le_add_left _ _)
      | some items =>
        have here := lengths input mem_cons_self items found
        simp only [flatten_cons, length_append]
        omega
  induction inputs with
  | nil => simp
  | cons input inputs ih =>
    have later : ∀ other ∈ inputs, ∀ items, find other = some items → items.length = len other :=
      fun other member => lengths other (mem_cons_of_mem _ member)
    have rest := bound inputs later
    rw [filterMap_cons, map_cons, sum_cons] at whole
    cases found : find input with
    | none =>
      rw [found] at whole
      dsimp only at whole
      intro other member rows
      rcases mem_cons.mp member with rfl | member
      · omega
      · exact ih later (by omega) other member rows
    | some items =>
      have here := lengths input mem_cons_self items found
      rw [found] at whole
      simp only [flatten_cons, length_append] at whole
      intro other member rows
      rcases mem_cons.mp member with rfl | member
      · rw [found]
        rfl
      · exact ih later (by omega) other member rows

theorem rows_of_complete (complete : ∀ input ∈ inputs, len input ≠ 0 → (find input).isSome) :
    (inputs.filterMap find).flatten.map some =
      (inputs.flatMap (fun input => (range (len input)).map (fun row => (input, row)))).map (fun source =>
        (find source.1).bind (·[source.2]?)) := by
  induction inputs with
  | nil => rfl
  | cons input inputs ih =>
    rw [flatMap_cons, map_append, ← ih (fun other member => lengths other (mem_cons_of_mem _ member))
      (fun other member => complete other (mem_cons_of_mem _ member)), map_map, filterMap_cons]
    cases found : find input with
    | none =>
      have empty : len input = 0 := by
        by_contra rows
        have present := complete input mem_cons_self rows
        rw [found] at present
        cases present
      simp [empty]
    | some items =>
      have here := lengths input mem_cons_self items found
      rw [flatten_cons, map_append]
      congr 1
      apply ext_getElem (by simp [here])
      intro row _ inside
      have bound : row < items.length := by simpa [here] using inside
      simp [found, bound]

theorem length_of_complete (complete : ∀ input ∈ inputs, len input ≠ 0 → (find input).isSome) :
    (inputs.filterMap find).flatten.length = (inputs.map len).sum := by
  have rows := congrArg length (rows_of_complete lengths complete)
  simpa [length_flatMap, Function.comp_def] using rows

end

end Columns

/-! ### Concatenation -/

theorem concat_columns_of [Value μ] {first : DataProto τ ν μ} {rest : List (DataProto τ ν μ)} {result : DataProto τ ν μ}
    (returned : DataProto.concat (first :: rest) = .ok result) :
    (∀ key items, (key, items) ∈ result.nonTensorBatch ↔ (∃ column ∈ first.nonTensorBatch, column.1 = key) ∧
      items = ((first :: rest).filterMap (fun item => item.nonTensorBatch.lookup key)).flatten) ∧
    (first.batch = none ∧ result.batch = none ∨ ∃ tables table,
      List.Forall₂ (fun item table => item.batch = some table) (first :: rest) tables ∧ TensorDict.cat tables = .ok table ∧
        result.batch = some table) := by
  have parts : ∃ newBatch lists metaInfo,
      (first.batch = none ∧ newBatch = none ∨ ∃ tables table, (first :: rest).mapM DataProto.requireBatch = .ok tables ∧
        TensorDict.cat tables = .ok table ∧ newBatch = some table) ∧
      listOfDictToDictOfList ((first :: rest).map DataProto.nonTensorBatch) = .ok lists ∧
      DataProto.make newBatch (mapColumns flatten lists) metaInfo = .ok result := by
    rw [DataProto.concat] at returned
    cases isFirst : first.batch with
    | none =>
      rw [isFirst] at returned
      obtain ⟨newBatch, batched, returned⟩ := bind_eq_ok.mp returned
      obtain ⟨lists, listed, returned⟩ := bind_eq_ok.mp returned
      obtain ⟨metaInfo, _, returned⟩ := bind_eq_ok.mp returned
      cases batched
      exact ⟨none, lists, metaInfo, Or.inl ⟨rfl, rfl⟩, listed, returned⟩
    | some _ =>
      rw [isFirst] at returned
      obtain ⟨tables, required, returned⟩ := bind_eq_ok.mp returned
      obtain ⟨table, joined, returned⟩ := bind_eq_ok.mp returned
      obtain ⟨newBatch, batched, returned⟩ := bind_eq_ok.mp returned
      obtain ⟨lists, listed, returned⟩ := bind_eq_ok.mp returned
      obtain ⟨metaInfo, _, returned⟩ := bind_eq_ok.mp returned
      cases batched
      exact ⟨some table, lists, metaInfo, Or.inr ⟨tables, table, required, joined, rfl⟩, listed, returned⟩
  obtain ⟨newBatch, lists, metaInfo, batched, listed, made⟩ := parts
  obtain ⟨isBatch, isOthers, -⟩ := make_fields made
  refine ⟨?_, ?_⟩
  · have distinct : ∀ dict ∈ (first :: rest).map DataProto.nonTensorBatch, (dict.map Prod.fst).Nodup := by
      intro dict member
      obtain ⟨item, _, rfl⟩ := mem_map.mp member
      exact item.distinct
    have columns := listOfDict_columns distinct listed
    intro key items
    rw [isOthers, columns, mapColumns, map_map, map_map, map_cons, headD_cons]
    simp only [mem_map, Function.comp_apply, Prod.mk.injEq, ← map_cons, filterMap_map, Function.comp_def]
    constructor
    · rintro ⟨column, member, rfl, rfl⟩
      exact ⟨⟨column, member, rfl⟩, rfl⟩
    · rintro ⟨⟨column, member, rfl⟩, rfl⟩
      exact ⟨column, member, rfl, rfl⟩
  · rcases batched with ⟨noTensors, isNone⟩ | ⟨tables, table, required, joined, isTable⟩
    · exact Or.inl ⟨noTensors, isBatch.trans isNone⟩
    · refine Or.inr ⟨tables, table, ?_, joined, isBatch.trans isTable⟩
      apply (mapM_succeeded required).imp
      intro item table found
      unfold DataProto.requireBatch at found
      split at found
      · cases found
        assumption
      · cases found

def tensorColumn (key : String) (item : DataProto τ ν μ) : Option (List τ) :=
  item.batch.bind (fun table => table.columns.lookup key)

theorem tensorColumn_some {key : String} {item : DataProto τ ν μ} {table : TensorDict τ} (isBatch : item.batch = some table) :
    tensorColumn key item = table.columns.lookup key := by
  rw [tensorColumn, isBatch, Option.bind_some]

theorem cat_column {data : List (DataProto τ ν μ)} {tables : List (TensorDict τ)} {key : String}
    (batches : List.Forall₂ (fun item table => item.batch = some table) data tables)
    (present : ∀ table ∈ tables, (table.columns.lookup key).isSome = true) :
    tables.flatMap (fun table => (table.columns.lookup key).getD []) = (data.filterMap (tensorColumn key)).flatten ∧
      ∀ item ∈ data, (tensorColumn key item).isSome = true := by
  induction batches with
  | nil => exact ⟨rfl, by simp⟩
  | @cons item table data tables isBatch _ ih =>
    obtain ⟨items, found⟩ := Option.isSome_iff_exists.mp (present table mem_cons_self)
    obtain ⟨columns, filled⟩ := ih (fun other isOther => present other (mem_cons_of_mem _ isOther))
    have here : tensorColumn key item = some items := (tensorColumn_some isBatch).trans found
    refine ⟨?_, ?_⟩
    · rw [filterMap_cons, here, flatten_cons, flatMap_cons, found, Option.getD_some, columns]
    · intro other isOther
      rcases mem_cons.mp isOther with rfl | isOther
      · rw [here]
        rfl
      · exact filled other isOther

theorem cat_rows {data : List (DataProto τ ν μ)} {tables : List (TensorDict τ)} {table : TensorDict τ}
    (batches : List.Forall₂ (fun item table => item.batch = some table) data tables)
    (joined : TensorDict.cat tables = .ok table) :
    table.batchSize = (data.map DataProto.len).sum ∧ ∀ column ∈ table.columns,
      column.2.length = (data.map DataProto.len).sum ∧ column.2.map some = (sourceRows data).map (fun source =>
        source.1.batch.bind (fun table => itemAt table.columns column.1 source.2)) := by
  have sizes : (tables.map TensorDict.batchSize).sum = (data.map DataProto.len).sum := by
    apply forall₂_sum
    apply batches.imp
    intro item table isBatch
    rw [DataProto.len, isBatch]
  have parts : table.batchSize = (tables.map TensorDict.batchSize).sum ∧ ∀ column ∈ table.columns,
      column.2 = (data.filterMap (tensorColumn column.1)).flatten ∧
        ∀ item ∈ data, (tensorColumn column.1 item).isSome = true := by
    cases tables with
    | nil => cases joined
    | cons first rest =>
      rw [TensorDict.cat] at joined
      split at joined
      · rename_i same
        cases joined
        refine ⟨rfl, ?_⟩
        intro column member
        obtain ⟨original, inside, rfl⟩ := mem_map.mp member
        have present : ∀ table ∈ first :: rest, (table.columns.lookup original.1).isSome = true := by
          intro table isTable
          have keys := same table isTable
          simp only [sameKeys, Bool.and_eq_true, all_eq_true] at keys
          exact keys.1 original inside
        have columns := cat_column batches present
        rwa [← flatMap_map TensorDict.columns (fun columns => (columns.lookup original.1).getD [])] at columns
      · cases joined
  refine ⟨parts.1.trans sizes, ?_⟩
  intro column member
  obtain ⟨columns, filled⟩ := parts.2 column member
  refine ⟨(table.regular column member).trans (parts.1.trans sizes), ?_⟩
  have lengths : ∀ item ∈ data, ∀ items, tensorColumn column.1 item = some items → items.length = item.len := by
    intro item _ items found
    obtain ⟨table, isBatch, found⟩ := Option.bind_eq_some_iff.mp found
    rw [DataProto.len, isBatch]
    exact table.regular _ (lookup_mem found)
  rw [columns, rows_of_complete lengths (fun item isItem _ => filled item isItem)]
  apply map_congr_left
  intro source _
  rw [tensorColumn]
  cases source.1.batch <;> rfl

/-- The columns of the result are aligned exactly when the first input has tensors, for then their
lengths are compared, or no input with rows lacks a column of the first. -/
theorem concat_joined [Value μ] {data : List (DataProto τ ν μ)} {result : DataProto τ ν μ}
    (consistent : ∀ item ∈ data, HasRows item.len item) (returned : DataProto.concat data = .ok result) :
    Joined data result ↔ (∃ first ∈ data.head?, first.batch.isSome = true) ∨ Complete data := by
  cases data with
  | nil => cases returned
  | cons first rest =>
    obtain ⟨columns, tensors⟩ := concat_columns_of returned
    have lengths (key : String) : ∀ item ∈ first :: rest, ∀ items, item.nonTensorBatch.lookup key = some items →
        items.length = item.len :=
      fun item member items found => (consistent item member).others _ (lookup_mem found)
    constructor
    · intro joined
      cases isFirst : first.batch with
      | some table => exact Or.inl ⟨first, rfl, by rw [isFirst]; rfl⟩
      | none =>
        right
        intro head isHead item member rows column inside
        cases isHead
        have whole := joined.otherLengths _ ((columns column.1 _).mpr ⟨⟨column, inside, rfl⟩, rfl⟩)
        obtain ⟨items, found⟩ := Option.isSome_iff_exists.mp (complete_of_length (lengths column.1) whole item member rows)
        exact ⟨items, lookup_mem found⟩
    · intro condition
      have gapless : ∀ column ∈ first.nonTensorBatch, ∀ item ∈ first :: rest, item.len ≠ 0 →
          (item.nonTensorBatch.lookup column.1).isSome := by
        intro column inside
        rcases condition with ⟨head, isHead, hasTensors⟩ | complete
        · cases isHead
          obtain ⟨noTensors, _⟩ | ⟨tables, table, batches, joined, isBatch⟩ := tensors
          · rw [noTensors] at hasTensors
            cases hasTensors
          · have whole := result.consistent table isBatch _ ((columns column.1 _).mpr ⟨⟨column, inside, rfl⟩, rfl⟩)
            rw [(cat_rows batches joined).1] at whole
            exact complete_of_length (lengths column.1) whole
        · intro item member rows
          obtain ⟨items, present⟩ := complete first rfl item member rows column inside
          rw [lookup_of_mem item.distinct present]
          rfl
      have others : ∀ column ∈ result.nonTensorBatch, column.2.length = ((first :: rest).map DataProto.len).sum ∧
          column.2.map some = (sourceRows (first :: rest)).map (fun source =>
            itemAt source.1.nonTensorBatch column.1 source.2) := by
        intro column member
        obtain ⟨⟨original, inside, same⟩, items⟩ := (columns column.1 column.2).mp member
        have complete := gapless original inside
        rw [same] at complete
        rw [items]
        exact ⟨length_of_complete (lengths column.1) complete, rows_of_complete (lengths column.1) complete⟩
      have tables : ∀ table, result.batch = some table → ∀ column ∈ table.columns,
          column.2.length = ((first :: rest).map DataProto.len).sum ∧
            column.2.map some = (sourceRows (first :: rest)).map (fun source =>
              source.1.batch.bind (fun table => itemAt table.columns column.1 source.2)) := by
        intro table isTable
        obtain ⟨_, noTensors⟩ | ⟨tables, other, batches, joined, isBatch⟩ := tensors
        · rw [noTensors] at isTable
          cases isTable
        · cases isBatch.symm.trans isTable
          exact (cat_rows batches joined).2
      exact ⟨fun table isTable column member => (tables table isTable column member).1,
        fun column member => (others column member).1,
        fun table isTable column member => (tables table isTable column member).2,
        fun column member => (others column member).2⟩

/-- A batch without tensors that has one or two columns. -/
def listed (uids : List Nat) (scores : Option (List Nat)) : DataProto Nat Nat Bool where
  batch := none
  nonTensorBatch := ("uid", uids) :: (scores.map (fun rows => ("score", rows))).toList
  metaInfo := []
  distinct := by cases scores <;> simp
  consistent := by simp

theorem listed_consistent {uids : List Nat} {scores : Option (List Nat)}
    (same : ∀ rows, scores = some rows → rows.length = uids.length) :
    HasRows (listed uids scores).len (listed uids scores) where
  tensors := nofun
  others := by
    intro column member
    cases scores with
    | none =>
      obtain rfl : column = ("uid", uids) := by simpa [listed] using member
      rfl
    | some rows =>
      have isColumn : column = ("uid", uids) ∨ column = ("score", rows) := by simpa [listed] using member
      rcases isColumn with rfl | rfl
      · rfl
      · exact same rows rfl

theorem concat_joined_listed :
    ∃ result, @DataProto.concat _ _ _ flagValue [listed [1, 2] none, listed [3] none] = .ok result ∧
      Joined [listed [1, 2] none, listed [3] none] result := by
  refine ⟨_, rfl, (@concat_joined _ _ _ flagValue _ _ ?_ rfl).mpr (Or.inr ?_)⟩
  · intro item member
    simp only [List.mem_cons, List.not_mem_nil, or_false] at member
    rcases member with rfl | rfl <;> exact listed_consistent nofun
  · intro head isHead item member _ column inside
    cases isHead
    obtain rfl : column = ("uid", [1, 2]) := by simpa [listed] using inside
    simp only [List.mem_cons, List.not_mem_nil, or_false] at member
    rcases member with rfl | rfl <;> exact ⟨_, List.mem_cons_self⟩

/-- The second input has no scores, so that the column of the first is too short. -/
theorem missing_scores_misaligned :
    (∀ item ∈ [listed [1, 2] (some [5, 6]), listed [3] none], HasRows item.len item) ∧
      ∃ result, @DataProto.concat _ _ _ flagValue [listed [1, 2] (some [5, 6]), listed [3] none] = .ok result ∧
        ¬ Joined [listed [1, 2] (some [5, 6]), listed [3] none] result := by
  refine ⟨?_, _, rfl, ?_⟩
  · intro item member
    simp only [List.mem_cons, List.not_mem_nil, or_false] at member
    rcases member with rfl | rfl
    · exact listed_consistent (fun rows isRows => by cases isRows; rfl)
    · exact listed_consistent nofun
  · intro joined
    have length := joined.otherLengths ("score", [5, 6]) (by decide)
    cases length

end LLMFusion.Protocol
