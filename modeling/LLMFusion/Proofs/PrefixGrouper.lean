import LLMFusion.Lib.Fallible
import LLMFusion.PrefixGrouper
import Mathlib.Data.List.Chain

/-! When the shared forward pass gives every row what it gets alone. -/

namespace LLMFusion.PrefixGrouper
open Slices List

/-! ### Pieces -/

theorem pieces_flatten {α : Type} (blocks : List (List α)) (after : List α) :
    pieces (blocks.map length) (blocks.flatten ++ after) = blocks := by
  induction blocks with
  | nil => rfl
  | cons block blocks ih =>
    rw [map_cons, flatten_cons, append_assoc, pieces, take_left, drop_left, ih]

theorem pieces_map {α β : Type} (f : α → β) (blocks : List (List α)) :
    pieces (blocks.map length) (blocks.flatten.map f) = blocks.map (map f) := by
  have same : blocks.map length = (blocks.map (map f)).map length := by
    rw [map_map]
    apply map_congr_left
    intro block _
    simp
  have whole := pieces_flatten (blocks.map (map f)) []
  rwa [append_nil, ← map_flatten, ← same] at whole

theorem zipWith_maps {α β γ δ : Type} (f : β → γ → δ) (g : α → β) (h : α → γ) (items : List α) :
    zipWith f (items.map g) (items.map h) = items.map (fun item => f (g item) (h item)) := by
  rw [zipWith_map, zipWith_self]

theorem zipWith_left {α β γ : Type} (f : α → γ) (items : List α) (others : List β) (aligned : items.length = others.length) :
    zipWith (fun item _ => f item) items others = items.map f := by
  apply ext_getElem
  · simp [aligned]
  · intro index _ _
    simp

theorem le_maximum {sizes : List Nat} {size : Nat} (member : size ∈ sizes) : size ≤ maximum sizes := by
  induction sizes with
  | nil => cases member
  | cons first sizes ih =>
    rw [maximum, foldr_cons]
    cases member with
    | head => exact Nat.le_max_left _ _
    | tail _ later => exact Nat.le_trans (ih later) (Nat.le_max_right _ _)

/-! ### The library on compacted groups -/

abbrev Tokens := List Nat × List (List Nat)

def infoOf (group : Tokens) : GroupInfo := ⟨group.1.length, group.2.map List.length⟩

def placed (before : List Nat) : List (Nat × Nat) := before.zip (List.range before.length)

def placedBehind (before : List Nat) (suffix : List Nat) : List (Nat × Nat) :=
  suffix.zip (List.range' before.length suffix.length)

theorem placed_append (before suffix : List Nat) : placed before ++ placedBehind before suffix =
    (before ++ suffix).zip (range (before ++ suffix).length) := by
  rw [placed, placedBehind, ← zip_append (by simp), length_append, range_eq_range', range_eq_range',
    ← range'_append_1, Nat.zero_add]

section Library
variable {L : Type} (groups : List Tokens)

def width : Nat := Grouper.maxLen (groups.map infoOf)

theorem total_le {group : Tokens} (member : group ∈ groups) : (infoOf group).total ≤ width groups :=
  le_maximum (mem_map_of_mem (mem_map_of_mem member))

theorem infoOf_total (group : Tokens) : (infoOf group).total = group.1.length + group.2.flatten.length := by
  rw [GroupInfo.total, infoOf, length_flatten]

theorem writeSuffixes_blank (prefixLen : Nat) (suffixLens : List Nat) (done : List Nat) {blank : Nat}
    (room : suffixLens.sum ≤ blank) :
    writeSuffixes prefixLen suffixLens done.length (done ++ replicate blank 0) =
      some (done ++ suffixLens.flatMap (range' prefixLen) ++ replicate (blank - suffixLens.sum) 0) := by
  induction suffixLens generalizing done blank with
  | nil => simp [writeSuffixes]
  | cons suffixLen suffixLens ih =>
    rw [sum_cons] at room
    rw [writeSuffixes, flatMap_cons, sum_cons]
    split
    · have written := assign_blank done (range' prefixLen suffixLen) (Nat.le_of_eq length_range')
        (show suffixLen ≤ blank by omega)
      rw [length_range', pad_exact length_range'] at written
      rw [written, Option.bind_eq_bind, Option.bind_some]
      have rest := ih (done ++ range' prefixLen suffixLen) (show suffixLens.sum ≤ blank - suffixLen by omega)
      rw [length_append, length_range'] at rest
      rw [rest, append_assoc done, Nat.sub_sub]
    · have none : suffixLen = 0 := by omega
      subst none
      rw [ih done (by omega), range'_zero, nil_append, Nat.zero_add]

theorem buildPositionIds_groups : buildPositionIds (groups.map infoOf) = some (groups.map (fun group =>
    range group.1.length ++ (group.2.map length).flatMap (range' group.1.length) ++
      replicate (width groups - (infoOf group).total) 0)) := by
  rw [buildPositionIds, mapM_map]
  apply Fallible.mapM_some
  intro group member
  have fits := total_le groups member
  have first := assign_blank [] (range group.1.length) (Nat.le_of_eq length_range)
    (show group.1.length ≤ width groups by rw [infoOf_total] at fits; omega)
  rw [length_range, pad_exact length_range] at first
  have rest := writeSuffixes_blank group.1.length (group.2.map length) (range group.1.length)
    (show (group.2.map length).sum ≤ width groups - group.1.length by
      rw [infoOf_total, length_flatten] at fits
      omega)
  rw [length_range] at rest
  simp only [nil_append, length_nil, Nat.zero_add] at first
  change (do
    let row ← assign (replicate (width groups) 0) 0 group.1.length (range group.1.length)
    writeSuffixes group.1.length (group.2.map length) group.1.length row) = _
  rw [first, Option.bind_eq_bind, Option.bind_some, rest, GroupInfo.total, Nat.sub_sub]
  rfl

variable (model : List (Nat × Nat) → L) (fill : Fill L)

def lead (before : List Nat) : L := if before = [] then fill.empty else model (placed before)

def suffixOutputs (before suffix : List Nat) : List L :=
  (List.range suffix.length).map (fun place => model (placed before ++ (placedBehind before suffix).take (place + 1)))

def inputsOf : PgInputs where
  grouper := groups.map infoOf
  concatInputIds := groups.map (fun group =>
    group.1 ++ group.2.flatten ++ List.replicate (width groups - (infoOf group).total) fill.id)
  positionIds := groups.map (fun group =>
    List.range group.1.length ++ (group.2.map List.length).flatMap (List.range' group.1.length) ++
      List.replicate (width groups - (infoOf group).total) 0)

def rowTokens (group : Tokens) : List (Nat × Nat) :=
  (group.1 ++ group.2.flatten ++ List.replicate (width groups - (infoOf group).total) fill.id).zip
    (List.range group.1.length ++ (group.2.map List.length).flatMap (List.range' group.1.length) ++
      List.replicate (width groups - (infoOf group).total) 0)

theorem flatten_placedBehind (before : List Nat) (suffixes : List (List Nat)) :
    suffixes.flatten.zip ((suffixes.map length).flatMap (range' before.length)) =
      (suffixes.map (placedBehind before)).flatten := by
  induction suffixes with
  | nil => rfl
  | cons suffix suffixes ih =>
    rw [flatten_cons, map_cons, flatMap_cons, zip_append (by simp), ih]
    rfl

theorem rowTokens_eq (group : Tokens) : rowTokens groups fill group = placed group.1 ++
    ((group.2.map (placedBehind group.1)).flatten ++ replicate (width groups - (infoOf group).total) (fill.id, 0)) := by
  have suffixes : group.2.flatten.length = ((group.2.map length).flatMap (range' group.1.length)).length := by
    simp [length_flatten, length_flatMap, Function.comp_def]
  rw [rowTokens, zip_append (by simp [suffixes]), zip_append (by simp), flatten_placedBehind, zip_replicate,
    Nat.min_self, append_assoc]
  rfl

theorem attend_rowTokens (group : Tokens) :
    Grouper.attend (groups.map infoOf) model fill (infoOf group) (rowTokens groups fill group) =
      (range group.1.length).map (fun place => model ((placed group.1).take (place + 1))) ++
        (group.2.map (suffixOutputs model group.1)).flatten ++
        replicate (width groups - (infoOf group).total) fill.logits := by
  have size : (placed group.1).length = group.1.length := by simp [placed]
  have lens : (infoOf group).suffixLens = (group.2.map (placedBehind group.1)).map length := by
    simp [infoOf, placedBehind, Function.comp_def]
  have before : (rowTokens groups fill group).take group.1.length = placed group.1 := by
    rw [rowTokens_eq, ← size, take_left]
  have behind : (rowTokens groups fill group).drop group.1.length = (group.2.map (placedBehind group.1)).flatten ++
      replicate (width groups - (infoOf group).total) (fill.id, 0) := by
    rw [rowTokens_eq, ← size, drop_left]
  change (range group.1.length).map (fun place => model ((rowTokens groups fill group).take (place + 1))) ++
    (pieces (infoOf group).suffixLens ((rowTokens groups fill group).drop group.1.length)).flatMap (fun suffix =>
      (range suffix.length).map (fun place =>
        model ((rowTokens groups fill group).take group.1.length ++ suffix.take (place + 1)))) ++ _ = _
  rw [before, behind, lens, pieces_flatten, flatMap_map, flatMap_def]
  congr 2
  · apply map_congr_left
    intro place member
    have inside := mem_range.mp member
    rw [rowTokens_eq, take_append_of_le_length (by rw [size]; omega)]
  · congr 1
    apply map_congr_left
    intro suffix _
    simp [suffixOutputs, placedBehind]

theorem suffixOut_groups : Grouper.suffixOut (groups.map infoOf) fill (groups.map (fun group =>
      Grouper.attend (groups.map infoOf) model fill (infoOf group) (rowTokens groups fill group))) =
    groups.flatMap (fun group => group.2.map (fun suffix => lead model fill group.1 :: suffixOutputs model group.1 suffix ++
      replicate (Grouper.maxSuffix (groups.map infoOf) - suffix.length) fill.logits)) := by
  rw [Grouper.suffixOut, zipWith_maps, flatMap_def]
  congr 1
  apply map_congr_left
  intro group _
  have lens : (infoOf group).suffixLens = (group.2.map (suffixOutputs model group.1)).map length := by
    simp [infoOf, suffixOutputs, Function.comp_def]
  have first : ((range group.1.length).map (fun place => model ((placed group.1).take (place + 1)))).length =
      group.1.length := by simp
  have last : ((range group.1.length).map (fun place => model ((placed group.1).take (place + 1)))).getLast?.getD fill.empty =
      lead model fill group.1 := by
    by_cases empty : group.1 = []
    · simp [lead, empty]
    · have some := length_pos_iff.mpr empty
      rw [lead, if_neg empty, getLast?_map, getLast?_range, if_neg (by omega), Option.map_some, Option.getD_some,
        Nat.sub_add_cancel some, take_of_length_le (by simp [placed])]
  rw [attend_rowTokens, append_assoc]
  change (pieces (infoOf group).suffixLens (drop group.1.length _)).map (fun suffix =>
    (take group.1.length _).getLast?.getD fill.empty :: suffix ++ _) = _
  rw [take_left' first, drop_left' first, last, lens, pieces_flatten, map_map]
  apply map_congr_left
  intro suffix _
  simp [suffixOutputs]

end Library

/-! ### Batches -/

variable {U : Type}

/-- A row whose prompt, of at least one token, is padded on the left, and whose response is padded
on the right. The mask is of tokens of the response. -/
structure Row (U : Type) (promptWidth responseWidth : Nat) where
  uid : U
  prompt : List Nat
  response : List Nat
  responseMask : List Bool
  filled : prompt ≠ []
  promptFits : prompt.length ≤ promptWidth
  responseFits : response.length ≤ responseWidth
  maskWidth : responseMask.length = responseWidth
  masked : ∀ column, responseMask[column]? = some true → column < response.length

/-- A batch in which rows with equal uids that follow each other have one prompt. -/
structure Rows (U : Type) (promptWidth responseWidth : Nat) where
  rows : List (Row U promptWidth responseWidth)
  nonempty : rows ≠ []
  shared : List.IsChain (fun row next => row.uid = next.uid → row.prompt = next.prompt) rows
  /-- what prompts and responses are padded with -/
  padding : Nat
  padTokenId : Option Nat

section Batch
variable {promptWidth responseWidth : Nat}

def Row.promptRow (padding : Nat) (row : Row U promptWidth responseWidth) : List Nat :=
  List.replicate (promptWidth - row.prompt.length) padding ++ row.prompt

def Row.responseRow (padding : Nat) (row : Row U promptWidth responseWidth) : List Nat :=
  row.response ++ List.replicate (responseWidth - row.response.length) padding

def Rows.microBatch (batch : Rows U promptWidth responseWidth) : MicroBatch U where
  prompts := batch.rows.map (Row.promptRow batch.padding)
  responses := batch.rows.map (Row.responseRow batch.padding)
  responseMask := batch.rows.map Row.responseMask
  uid := batch.rows.map Row.uid
  padTokenId := batch.padTokenId

/-! ### Groups -/

def Group (block : List (Row U promptWidth responseWidth)) : Prop :=
  ∃ head tail, block = head :: tail ∧ ∀ row ∈ block, row.prompt = head.prompt

theorem groupSizesFrom_blocks [DecidableEq U] {rows : List (Row U promptWidth responseWidth)} {block : List (Row U promptWidth responseWidth)}
    {previous : Row U promptWidth responseWidth} (group : Group (block ++ [previous]))
    (shared : List.IsChain (fun row next => row.uid = next.uid → row.prompt = next.prompt) (previous :: rows)) :
    ∃ blocks : List (List (Row U promptWidth responseWidth)), groupSizesFrom (block.length + 1) previous.uid (rows.map Row.uid) = blocks.map length ∧
      blocks.flatten = block ++ previous :: rows ∧ ∀ block ∈ blocks, Group block := by
  induction rows generalizing block previous with
  | nil =>
    refine ⟨[block ++ [previous]], by simp [groupSizesFrom], by simp, ?_⟩
    intro other member
    rwa [mem_singleton.mp member]
  | cons row rows ih =>
    rw [isChain_cons_cons] at shared
    rw [map_cons, groupSizesFrom]
    split
    · rename_i same
      have larger : Group ((block ++ [previous]) ++ [row]) := by
        obtain ⟨head, tail, shape, prompts⟩ := group
        refine ⟨head, tail ++ [row], by rw [shape]; rfl, ?_⟩
        intro other member
        rw [mem_append] at member
        cases member with
        | inl earlier => exact prompts other earlier
        | inr last =>
          rw [mem_singleton.mp last, ← shared.1 same.symm]
          exact prompts previous (by simp)
      obtain ⟨blocks, sizes, whole, groups⟩ := ih larger shared.2
      refine ⟨blocks, ?_, by rw [whole, append_assoc]; rfl, groups⟩
      rw [← sizes, length_append, length_singleton]
    · have single : Group ([] ++ [row]) := by
        refine ⟨row, [], rfl, ?_⟩
        intro other member
        rw [mem_singleton.mp member]
      obtain ⟨blocks, sizes, whole, groups⟩ := ih single shared.2
      refine ⟨(block ++ [previous]) :: blocks, ?_, by rw [flatten_cons, whole]; simp, ?_⟩
      · rw [map_cons, ← sizes, length_append]
        rfl
      · intro other member
        cases member with
        | head => exact group
        | tail _ later => exact groups other later

theorem groupSizes_blocks [DecidableEq U] (batch : Rows U promptWidth responseWidth) :
    ∃ blocks : List (List (Row U promptWidth responseWidth)), groupSizes (batch.rows.map Row.uid) = blocks.map length ∧ blocks.flatten = batch.rows ∧
      ∀ block ∈ blocks, Group block := by
  obtain ⟨first, rows, shape⟩ := exists_cons_of_ne_nil batch.nonempty
  have shared := batch.shared
  rw [shape] at shared
  have single : Group ([] ++ [first]) := by
    refine ⟨first, [], rfl, ?_⟩
    intro other member
    rw [mem_singleton.mp member]
  obtain ⟨blocks, sizes, whole, groups⟩ := groupSizesFrom_blocks single shared
  refine ⟨blocks, ?_, by rw [whole, shape]; rfl, groups⟩
  rw [shape, ← sizes]
  rfl

theorem gather_heads {α β : Type} (f : α → β) (g : List α → β) {blocks : List (List α)}
    (heads : ∀ block ∈ blocks, ∃ head tail, block = head :: tail ∧ f head = g block) (before : List β) :
    Gather.gather (before ++ blocks.flatten.map f) (prefixIndices before.length (blocks.map length)) =
      some (blocks.map g) := by
  induction blocks generalizing before with
  | nil => rfl
  | cons block blocks ih =>
    obtain ⟨head, tail, rfl, same⟩ := heads block mem_cons_self
    have rest := ih (fun block member => heads block (mem_cons_of_mem _ member)) (before ++ (head :: tail).map f)
    rw [length_append, length_map, append_assoc, ← map_append, ← flatten_cons] at rest
    rw [map_cons, prefixIndices, Gather.gather_cons _ _ _ (by simp), rest]
    simp [same]

/-! ### The compacted batch -/

variable (batch : Rows U promptWidth responseWidth)

def Rows.pad : Nat := batch.padTokenId.getD 0

def Rows.prefixOf (row : Row U promptWidth responseWidth) : List Nat :=
  (row.promptRow batch.padding).filter (fun id => decide (id ≠ batch.pad))

def Rows.suffixOf (row : Row U promptWidth responseWidth) : List Nat :=
  Masking.select row.responseMask (row.responseRow batch.padding)

def Rows.headRow : List (Row U promptWidth responseWidth) → List Nat
  | [] => []
  | head :: _ => head.promptRow batch.padding

def Rows.tokensOf (block : List (Row U promptWidth responseWidth)) : Tokens :=
  ((batch.headRow block).filter (fun id => decide (id ≠ batch.pad)), block.map batch.suffixOf)

theorem responseRow_length (row : Row U promptWidth responseWidth) : row.responseMask.length = (row.responseRow batch.padding).length := by
  have fits := row.responseFits
  rw [row.maskWidth, Row.responseRow, length_append, length_replicate]
  omega

theorem suffixOf_length (row : Row U promptWidth responseWidth) : (batch.suffixOf row).length = row.responseMask.count true :=
  Masking.select_length (responseRow_length batch row)

variable {row : Row U promptWidth responseWidth}

theorem prefixOf_group {block : List (Row U promptWidth responseWidth)} (group : Group block)
    (member : row ∈ block) : (batch.tokensOf block).1 = batch.prefixOf row := by
  obtain ⟨head, tail, rfl, prompts⟩ := group
  simp only [Rows.tokensOf, Rows.headRow, Rows.prefixOf, Row.promptRow, prompts row member]

variable {blocks : List (List (Row U promptWidth responseWidth))}

theorem buildPg_groups [DecidableEq U] {L : Type} (fill : Fill L)
    (sizes : groupSizes (batch.rows.map Row.uid) = blocks.map length) (whole : blocks.flatten = batch.rows)
    (groups : ∀ block ∈ blocks, Group block) :
    buildPgFromMicroBatch fill batch.microBatch batch.pad = some (inputsOf (blocks.map batch.tokensOf) fill) := by
  have split : groupSizes batch.microBatch.uid = blocks.map length := sizes
  have heads : Gather.gather batch.microBatch.prompts (prefixIndices 0 (blocks.map length)) =
      some (blocks.map batch.headRow) := by
    rw [Rows.microBatch, ← whole]
    apply gather_heads (Row.promptRow batch.padding) batch.headRow _ []
    intro block member
    obtain ⟨head, tail, rfl, _⟩ := groups block member
    exact ⟨head, tail, rfl, rfl⟩
  have grouper : fromUngroupedMasks ((blocks.map batch.headRow).map (map (fun id => decide (id ≠ batch.pad))))
      batch.microBatch.responseMask (blocks.map length) = (blocks.map batch.tokensOf).map infoOf := by
    rw [fromUngroupedMasks, Rows.microBatch, ← whole, pieces_map, map_map, zipWith_maps, map_map]
    apply map_congr_left
    intro block _
    simp only [infoOf, Rows.tokensOf, Function.comp_apply, GroupInfo.mk.injEq, map_map]
    constructor
    · rw [← Masking.select_filter, Masking.select_length (length_map _)]
    · apply map_congr_left
      intro row _
      exact (suffixOf_length batch row).symm
  have concat : Grouper.concatInput ((blocks.map batch.tokensOf).map infoOf) fill (blocks.map batch.headRow)
      ((blocks.map batch.headRow).map (map (fun id => decide (id ≠ batch.pad)))) batch.microBatch.responses
      batch.microBatch.responseMask = (inputsOf (blocks.map batch.tokensOf) fill).concatInputIds := by
    have suffixes : zipWith Masking.select (batch.rows.map Row.responseMask)
        (batch.rows.map (Row.responseRow batch.padding)) = batch.rows.map batch.suffixOf := zipWith_maps _ _ _ _
    have prefixes : zipWith Masking.select ((blocks.map batch.headRow).map (map (fun id => decide (id ≠ batch.pad))))
        (blocks.map batch.headRow) = blocks.map (fun block => (batch.tokensOf block).1) := by
      rw [map_map, zipWith_maps]
      apply map_congr_left
      intro block _
      exact Masking.select_filter _ _
    have lens : ((blocks.map batch.tokensOf).map infoOf).map (fun info => info.suffixLens.length) =
        blocks.map length := by
      rw [map_map, map_map]
      apply map_congr_left
      intro block _
      simp [infoOf, Rows.tokensOf]
    change zipWith _ _ (pieces _ (zipWith Masking.select (batch.rows.map Row.responseMask)
      (batch.rows.map (Row.responseRow batch.padding)))) = _
    rw [suffixes, prefixes, lens, ← whole, pieces_map, zipWith_maps]
    simp only [inputsOf, width, map_map]
    apply map_congr_left
    intro block _
    have total := infoOf_total (batch.tokensOf block)
    simp only [Function.comp_apply, total, length_append]
    rfl
  simp only [buildPgFromMicroBatch, split, heads, grouper, concat, Option.bind_eq_bind, Option.bind_some]
  rw [buildPositionIds_groups]
  rfl

/-! ### What comes out -/

section Forward
variable {L K : Type} (model : Model L K) (fill : Fill L)

def Rows.logitsOf (row : Row U promptWidth responseWidth) : List L :=
  ((lead model.logits fill (batch.prefixOf row) ::
    suffixOutputs model.logits (batch.prefixOf row) (batch.suffixOf row)).dropLast).map model.divide

theorem logitsOf_length (row : Row U promptWidth responseWidth) :
    (batch.logitsOf model fill row).length = (batch.suffixOf row).length := by
  simp [Rows.logitsOf, suffixOutputs]

def Rows.valuesOf [Zero K] (value : L → Nat → K) (row : Row U promptWidth responseWidth) : List K :=
  List.zipWith value (batch.logitsOf model fill row) (batch.suffixOf row) ++
    List.replicate (responseWidth - (batch.suffixOf row).length) 0

def Rows.longest : Nat := maximum (batch.rows.map (fun row => (batch.suffixOf row).length))

theorem suffixOf_le_longest (member : row ∈ batch.rows) : (batch.suffixOf row).length ≤ batch.longest :=
  le_maximum (mem_map_of_mem member)

theorem maximum_le {sizes : List Nat} {bound : Nat} (bounded : ∀ size ∈ sizes, size ≤ bound) : maximum sizes ≤ bound := by
  induction sizes with
  | nil => exact Nat.zero_le _
  | cons size sizes ih =>
    apply Nat.max_le.mpr
    constructor
    · exact bounded size mem_cons_self
    · exact ih (fun other member => bounded other (mem_cons_of_mem _ member))

theorem suffixOf_le_width (row : Row U promptWidth responseWidth) : (batch.suffixOf row).length ≤ responseWidth := by
  have bound : row.responseMask.count true ≤ row.responseMask.length := count_le_length
  rw [row.maskWidth] at bound
  rwa [suffixOf_length]

theorem longest_le_width : batch.longest ≤ responseWidth := by
  apply maximum_le
  intro size member
  obtain ⟨row, _, rfl⟩ := mem_map.mp member
  exact suffixOf_le_width batch row

theorem maxSuffix_blocks (whole : blocks.flatten = batch.rows) :
    Grouper.maxSuffix ((blocks.map batch.tokensOf).map infoOf) = batch.longest := by
  rw [Grouper.maxSuffix, Rows.longest, ← whole, map_map, flatMap_map, map_flatten, flatMap_def]
  congr 2
  apply map_congr_left
  intro block _
  simp [infoOf, Rows.tokensOf]

/-- A function of a group's prefix and one suffix, mapped over the groups, is one of the rows. -/
theorem flatMap_rows {β : Type} (f : List Nat → List Nat → β)
    (whole : blocks.flatten = batch.rows) (groups : ∀ block ∈ blocks, Group block) :
    (blocks.map batch.tokensOf).flatMap (fun group => group.2.map (f group.1)) =
      batch.rows.map (fun row => f (batch.prefixOf row) (batch.suffixOf row)) := by
  rw [← whole, flatMap_map, map_flatten, flatMap_def]
  congr 1
  apply map_congr_left
  intro block member
  rw [Rows.tokensOf, map_map]
  apply map_congr_left
  intro row inside
  rw [← prefixOf_group batch (groups block member) inside]
  rfl

theorem convertPadding_rows (value : Nat) : convertPadding value batch.microBatch.responses batch.microBatch.responseMask =
    batch.rows.map (fun row => batch.suffixOf row ++ replicate (batch.longest - (batch.suffixOf row).length) value) := by
  have longest : maximum (batch.microBatch.responseMask.map (count true)) = batch.longest := by
    rw [Rows.longest, Rows.microBatch, map_map]
    congr 1
    apply map_congr_left
    intro row _
    exact (suffixOf_length batch row).symm
  rw [convertPadding, longest]
  exact zipWith_maps _ _ _ _

theorem maskedAndPadded_row [Zero K] (values : List K) {width longest : Nat} (fits : values.length ≤ longest) (bound : longest ≤ width)
    (junk : List K) (wide : junk.length = longest - values.length) :
    let row := zipWith (fun token value => if token = true then value else 0)
      (replicate values.length true ++ replicate (longest - values.length) false) (values ++ junk)
    row ++ replicate (width - row.length) 0 = values ++ replicate (width - values.length) 0 := by
  have kept : zipWith (fun token value => if token = true then value else 0) (replicate values.length true) values =
      values := by
    apply ext_getElem
    · simp
    · intro index _ _
      simp
  have dropped : zipWith (fun token value => if token = true then value else 0)
      (replicate (longest - values.length) false) junk = replicate (longest - values.length) 0 := by
    apply ext_getElem
    · simp [wide]
    · intro index _ _
      simp
  intro row
  have shape : row = values ++ replicate (longest - values.length) 0 := by
    change zipWith _ _ _ = _
    rw [zipWith_append (by simp), kept, dropped]
  rw [shape, append_assoc, replicate_append_replicate, length_append, length_replicate]
  congr 2
  omega

/-- The logits as the library returns them, with some of its own behind. -/
def Rows.outOf (row : Row U promptWidth responseWidth) : List L :=
  (lead model.logits fill (batch.prefixOf row) :: suffixOutputs model.logits (batch.prefixOf row) (batch.suffixOf row) ++
    List.replicate (batch.longest - (batch.suffixOf row).length) fill.logits).dropLast.map model.divide

theorem outOf_eq (row : Row U promptWidth responseWidth) : ∃ junk, batch.outOf model fill row = batch.logitsOf model fill row ++ junk ∧
    junk.length = batch.longest - (batch.suffixOf row).length := by
  have size : (suffixOutputs model.logits (batch.prefixOf row) (batch.suffixOf row)).length = (batch.suffixOf row).length := by
    simp [suffixOutputs]
  refine ⟨(batch.outOf model fill row).drop (batch.suffixOf row).length, ?_, by simp [Rows.outOf, size]⟩
  have front : (batch.outOf model fill row).take (batch.suffixOf row).length = batch.logitsOf model fill row := by
    rw [Rows.outOf, Rows.logitsOf, ← map_take, dropLast_eq_take, dropLast_eq_take, take_take]
    congr 1
    rw [length_append, length_cons, size, Nat.add_sub_cancel, Nat.min_eq_left (by omega),
      take_append_of_le_length (by rw [length_cons, size]; omega)]
  rw [← front, take_append_drop]

theorem valuesOf_row [Zero K] (value : L → Nat → K) (member : row ∈ batch.rows) :
    let tokens := batch.suffixOf row ++ replicate (batch.longest - (batch.suffixOf row).length) fill.id
    let mask := replicate (batch.suffixOf row).length true ++
      replicate (batch.longest - (batch.suffixOf row).length) false
    let masked := zipWith (fun token value => if token = true then value else 0) mask
      (zipWith value (batch.outOf model fill row) tokens)
    masked ++ replicate (responseWidth - masked.length) 0 = batch.valuesOf model fill value row := by
  obtain ⟨junk, out, size⟩ := outOf_eq batch model fill row
  have length : (zipWith value (batch.logitsOf model fill row) (batch.suffixOf row)).length =
      (batch.suffixOf row).length := by
    rw [length_zipWith, logitsOf_length, Nat.min_self]
  have whole := maskedAndPadded_row (zipWith value (batch.logitsOf model fill row) (batch.suffixOf row))
    (by rw [length]; exact suffixOf_le_longest batch member) (longest_le_width batch)
    (zipWith value junk (replicate (batch.longest - (batch.suffixOf row).length) fill.id))
    (by rw [length_zipWith, size, length, length_replicate, Nat.min_self])
  rw [length, ← zipWith_append (by rw [logitsOf_length]), ← out] at whole
  exact whole

theorem forward_rows [Zero K] [DecidableEq U] (calculateEntropy : Bool) :
    forwardMicroBatchWithPrefixGrouper model fill batch.microBatch calculateEntropy = some
      (if calculateEntropy then some (batch.rows.map (batch.valuesOf model fill (fun logits _ => model.entropyFn logits)))
        else none,
      batch.rows.map (batch.valuesOf model fill model.logprobsFromLogits)) := by
  obtain ⟨blocks, sizes, whole, groups⟩ := groupSizes_blocks batch
  have built := buildPg_groups batch fill sizes whole groups
  have maxSuffix := maxSuffix_blocks batch whole
  have tokens : zipWith zip (inputsOf (blocks.map batch.tokensOf) fill).concatInputIds
      (inputsOf (blocks.map batch.tokensOf) fill).positionIds =
        (blocks.map batch.tokensOf).map (rowTokens (blocks.map batch.tokensOf) fill) := zipWith_maps _ _ _ _
  have out : ((inputsOf (blocks.map batch.tokensOf) fill).grouper.suffixOut fill
      (zipWith (fun info tokens => (inputsOf (blocks.map batch.tokensOf) fill).grouper.attend model.logits fill info tokens)
        (inputsOf (blocks.map batch.tokensOf) fill).grouper (zipWith zip
          (inputsOf (blocks.map batch.tokensOf) fill).concatInputIds (inputsOf (blocks.map batch.tokensOf) fill).positionIds))).map
        (fun row => row.dropLast.map model.divide) = batch.rows.map (batch.outOf model fill) := by
    rw [tokens, inputsOf, zipWith_maps, suffixOut_groups, maxSuffix, flatMap_rows batch (fun before suffix =>
      lead model.logits fill before :: suffixOutputs model.logits before suffix ++
        replicate (batch.longest - suffix.length) fill.logits) whole groups, map_map]
    rfl
  have mask : (inputsOf (blocks.map batch.tokensOf) fill).grouper.suffixMask.map tail =
      batch.rows.map (fun row => replicate (batch.suffixOf row).length true ++
        replicate (batch.longest - (batch.suffixOf row).length) false) := by
    have rows := flatMap_rows batch (fun _ suffix => replicate suffix.length true ++
        replicate (batch.longest - suffix.length) false) whole groups
    rw [← rows, inputsOf, Grouper.suffixMask, maxSuffix, map_flatMap, flatMap_map]
    congr 1
    funext group
    simp [infoOf, Function.comp_def]
  have columns : (batch.microBatch.responses.headD []).length = responseWidth := by
    obtain ⟨row, rows, shape⟩ := exists_cons_of_ne_nil batch.nonempty
    rw [Rows.microBatch, shape]
    exact (responseRow_length batch row).symm.trans row.maskWidth
  have logProbs : maskedAndPadded responseWidth (batch.rows.map (fun row => replicate (batch.suffixOf row).length true ++
        replicate (batch.longest - (batch.suffixOf row).length) false))
      (zipWith (zipWith model.logprobsFromLogits) (batch.rows.map (batch.outOf model fill))
        (convertPadding fill.id batch.microBatch.responses batch.microBatch.responseMask)) =
      batch.rows.map (batch.valuesOf model fill model.logprobsFromLogits) := by
    rw [convertPadding_rows, zipWith_maps, maskedAndPadded, zipWith_maps, map_map]
    apply map_congr_left
    intro row member
    exact valuesOf_row batch model fill model.logprobsFromLogits member
  have entropy : maskedAndPadded responseWidth (batch.rows.map (fun row => replicate (batch.suffixOf row).length true ++
        replicate (batch.longest - (batch.suffixOf row).length) false))
      ((batch.rows.map (batch.outOf model fill)).map (map model.entropyFn)) =
      batch.rows.map (batch.valuesOf model fill (fun logits _ => model.entropyFn logits)) := by
    rw [map_map, maskedAndPadded, zipWith_maps, map_map]
    apply map_congr_left
    intro row member
    obtain ⟨junk, shape, size⟩ := outOf_eq batch model fill row
    have ignored := zipWith_left model.entropyFn (batch.outOf model fill row) (batch.suffixOf row ++
        replicate (batch.longest - (batch.suffixOf row).length) fill.id)
      (by rw [shape, length_append, length_append, logitsOf_length, size, length_replicate])
    have values := valuesOf_row batch model fill (fun logits _ => model.entropyFn logits) member
    simp only [ignored] at values
    exact values
  change (do
    let inputs ← buildPgFromMicroBatch fill batch.microBatch batch.pad
    _) = _
  rw [built, Option.bind_eq_bind, Option.bind_some, columns]
  simp only [pgForward]
  rw [out, mask, logProbs, entropy]
  rfl

/-! ### Columns -/

theorem logitsOf_getElem? (row : Row U promptWidth responseWidth) (column : Nat) (inside : column < (batch.suffixOf row).length) :
    (batch.logitsOf model fill row)[column]? = some (model.divide (if batch.prefixOf row = [] ∧ column = 0 then fill.empty else
      model.logits (placed (batch.prefixOf row) ++ (placedBehind (batch.prefixOf row) (batch.suffixOf row)).take column))) := by
  rw [Rows.logitsOf, List.getElem?_map, List.getElem?_dropLast, if_pos (by simpa [suffixOutputs] using inside)]
  cases column with
  | zero =>
    by_cases empty : batch.prefixOf row = []
    · simp [lead, empty]
    · simp [lead, empty]
  | succ column =>
    have earlier : column < (batch.suffixOf row).length := Nat.lt_of_succ_lt inside
    simp [suffixOutputs, earlier]

theorem valuesOf_getElem? [Zero K] (value : L → Nat → K) (row : Row U promptWidth responseWidth) {column token : Nat} {logits : L}
    (context : (batch.logitsOf model fill row)[column]? = some logits) (known : (batch.suffixOf row)[column]? = some token) :
    (batch.valuesOf model fill value row)[column]? = some (value logits token) := by
  have zipped : (zipWith value (batch.logitsOf model fill row) (batch.suffixOf row))[column]? =
      some (value logits token) := by
    rw [List.getElem?_zipWith_eq_some]
    exact ⟨logits, token, context, known, rfl⟩
  rw [Rows.valuesOf, List.getElem?_append_left (List.getElem?_eq_some_iff.mp zipped).1, zipped]

theorem valuesOf_behind [Zero K] (value : L → Nat → K) (row : Row U promptWidth responseWidth) (column : Nat)
    (behind : (batch.suffixOf row).length ≤ column) (width : column < responseWidth) :
    (batch.valuesOf model fill value row)[column]? = some 0 := by
  have size : (zipWith value (batch.logitsOf model fill row) (batch.suffixOf row)).length =
      (batch.suffixOf row).length := by
    rw [length_zipWith, logitsOf_length, Nat.min_self]
  rw [Rows.valuesOf, List.getElem?_append_right (by omega), size, List.getElem?_replicate, if_pos (by omega)]

end Forward

/-! ### Rows alone -/

/-- The logits for the token at a column when the row is alone: over its prompt and the response
before the column, at consecutive positions. -/
def Row.alone {L K : Type} (model : Model L K) (row : Row U promptWidth responseWidth) (column : Nat) : L :=
  let tokens := row.prompt ++ row.response.take column
  model.divide (model.logits (tokens.zip (List.range tokens.length)))

/-- The values at the masked columns are those of the row alone. -/
def Row.Agree {L K : Type} (model : Model L K) (value : L → Nat → K) (row : Row U promptWidth responseWidth) (values : List K) : Prop :=
  ∀ column, row.responseMask[column]? = some true → values[column]? = row.response[column]?.map (value (row.alone model column))

/-- Whatever the model, the pass gives every row the log probabilities and the entropies that it has alone. -/
def Rows.Matches [DecidableEq U] : Prop :=
  ∀ (L K : Type) [Zero K] (model : Model L K) (fill : Fill L) (calculateEntropy : Bool), ∃ entropy logProbs,
    forwardMicroBatchWithPrefixGrouper model fill batch.microBatch calculateEntropy = some (entropy, logProbs) ∧
      List.Forall₂ (Row.Agree model model.logprobsFromLogits) batch.rows logProbs ∧
      (calculateEntropy = true → ∃ values, entropy = some values ∧
        List.Forall₂ (Row.Agree model (fun logits _ => model.entropyFn logits)) batch.rows values)

/-- In rows with a masked token no token of the prompt is taken for padding, all padding is, and
the masked tokens are the first ones of the response. -/
def Rows.Regular : Prop :=
  ∀ row ∈ batch.rows, true ∈ row.responseMask →
    batch.pad ∉ row.prompt ∧ (row.prompt.length = promptWidth ∨ batch.padding = batch.pad) ∧
      row.responseMask = List.replicate (row.responseMask.count true) true ++
        List.replicate (responseWidth - row.responseMask.count true) false

theorem prefixOf_eq_prompt (row : Row U promptWidth responseWidth) : batch.prefixOf row = row.prompt ↔
    batch.pad ∉ row.prompt ∧ (row.prompt.length = promptWidth ∨ batch.padding = batch.pad) := by
  have fits := row.promptFits
  constructor
  · intro same
    have absent : batch.pad ∉ row.prompt := by
      intro member
      rw [← same] at member
      simpa using (mem_filter.mp member).2
    refine ⟨absent, ?_⟩
    by_cases padding : batch.padding = batch.pad
    · exact Or.inr padding
    · left
      have lengths := congrArg length same
      have all : row.prompt.filter (fun id => decide (id ≠ batch.pad)) = row.prompt := by
        rw [filter_eq_self]
        intro id member
        exact decide_eq_true (fun equal => absent (equal ▸ member))
      rw [Rows.prefixOf, Row.promptRow, filter_append, all, filter_replicate, if_pos (decide_eq_true padding),
        length_append, length_replicate] at lengths
      omega
  · intro condition
    obtain ⟨absent, padded⟩ := condition
    have all : row.prompt.filter (fun id => decide (id ≠ batch.pad)) = row.prompt := by
      rw [filter_eq_self]
      intro id member
      exact decide_eq_true (fun equal => absent (equal ▸ member))
    rw [Rows.prefixOf, Row.promptRow, filter_append, all]
    cases padded with
    | inl full => rw [full, Nat.sub_self, replicate_zero, filter_nil, nil_append]
    | inr padding => rw [padding, filter_replicate, if_neg (by simp), nil_append]

theorem mask_front {mask : List Bool} (early : ∀ column, mask[column]? = some true → column < mask.count true) :
    mask = replicate (mask.count true) true ++ replicate (mask.length - mask.count true) false := by
  have later : mask.drop (mask.count true) = replicate (mask.length - mask.count true) false := by
    apply eq_replicate_iff.mpr
    refine ⟨length_drop, ?_⟩
    intro valid member
    obtain ⟨place, found⟩ := mem_iff_getElem?.mp member
    cases valid with
    | false => rfl
    | true =>
      rw [List.getElem?_drop] at found
      have inside := early _ found
      omega
  have whole : mask.take (mask.count true) ++ mask.drop (mask.count true) = mask := take_append_drop _ _
  have count : (mask.take (mask.count true)).count true = mask.count true := by
    have both := congrArg (count true) whole
    rwa [count_append, later, count_replicate, if_neg (by simp), Nat.add_zero] at both
  have front : mask.take (mask.count true) = replicate (mask.count true) true := by
    have size : (mask.take (mask.count true)).length = mask.count true :=
      length_take_of_le count_le_length
    apply eq_replicate_iff.mpr
    refine ⟨size, ?_⟩
    intro valid member
    exact (count_eq_length.mp (count.trans size.symm) valid member).symm
  rw [front, later] at whole
  exact whole.symm

theorem placedBehind_take (before suffix : List Nat) (column : Nat) :
    (placedBehind before suffix).take column = placedBehind before (suffix.take column) := by
  apply ext_getElem
  · simp [placedBehind]
  · intro index _ _
    simp [placedBehind]

section Columns
variable {L K : Type} (model : Model L K) (fill : Fill L)

theorem agree_of_regular [Zero K] (regular : batch.Regular) (value : L → Nat → K)
    (member : row ∈ batch.rows) : row.Agree model value (batch.valuesOf model fill value row) := by
  intro column valid
  obtain ⟨absent, padded, mask⟩ := regular row member (mem_of_getElem? valid)
  have whole : batch.prefixOf row = row.prompt := (prefixOf_eq_prompt batch row).mpr ⟨absent, padded⟩
  have response := row.masked column valid
  have early : column < row.responseMask.count true := by
    by_cases inside : column < row.responseMask.count true
    · exact inside
    · rw [mask, List.getElem?_append_right (by rw [length_replicate]; omega), List.getElem?_replicate] at valid
      split at valid
      · cases valid
      · cases valid
  have suffix : batch.suffixOf row = (row.responseRow batch.padding).take (row.responseMask.count true) := by
    rw [Rows.suffixOf]
    exact (congrArg (fun mask => Masking.select mask _) mask).trans (Masking.select_front _ _ _)
  have known : (batch.suffixOf row)[column]? = some row.response[column] := by
    rw [suffix, List.getElem?_take_of_lt early, Row.responseRow, List.getElem?_append_left response,
      List.getElem?_eq_getElem response]
  have earlier : (batch.suffixOf row).take column = row.response.take column := by
    rw [suffix, take_take, Nat.min_eq_left (Nat.le_of_lt early), Row.responseRow,
      take_append_of_le_length (Nat.le_of_lt response)]
  have context : (batch.logitsOf model fill row)[column]? = some (row.alone model column) := by
    rw [logitsOf_getElem? batch model fill row column (by rwa [suffixOf_length]), whole,
      if_neg (fun empty => row.filled empty.1), placedBehind_take, earlier, placed_append]
    rfl
  rw [valuesOf_getElem? batch model fill value row context known, List.getElem?_eq_getElem response]
  rfl

end Columns

def counting : Model Unit Nat := ⟨fun _ => (), id, fun _ _ => 1, fun _ => 0⟩

def recording : Model (List (Nat × Nat)) (List (Nat × Nat)) := ⟨id, id, fun tokens _ => tokens, id⟩

theorem placed_injective {before other : List Nat} (same : placed before = placed other) : before = other := by
  have firsts := congrArg (map Prod.fst) same
  rwa [placed, placed, map_fst_zip (by simp), map_fst_zip (by simp)] at firsts

theorem row_regular [DecidableEq U] (agrees : batch.Matches) (member : row ∈ batch.rows)
    (valid : true ∈ row.responseMask) : batch.pad ∉ row.prompt ∧
      (row.prompt.length = promptWidth ∨ batch.padding = batch.pad) ∧
        row.responseMask = List.replicate (row.responseMask.count true) true ++
          List.replicate (responseWidth - row.responseMask.count true) false := by
  have agree : ∀ (L K : Type) [Zero K] (model : Model L K) (fill : Fill L),
      row.Agree model model.logprobsFromLogits (batch.valuesOf model fill model.logprobsFromLogits row) := by
    intro L K zero model fill
    obtain ⟨entropy, logProbs, out, rows, _⟩ := agrees L K model fill false
    rw [forward_rows] at out
    cases out
    exact List.forall₂_same.mp (List.forall₂_map_right_iff.mp rows) row member
  have mask : row.responseMask = List.replicate (row.responseMask.count true) true ++
      List.replicate (responseWidth - row.responseMask.count true) false := by
    have front : ∀ column, row.responseMask[column]? = some true → column < row.responseMask.count true := by
      intro column true
      have counted := agree Unit Nat counting ⟨0, (), ()⟩ column true
      have bound : column < responseWidth := by
        have inside := (List.getElem?_eq_some_iff.mp true).1
        rwa [row.maskWidth] at inside
      rw [List.getElem?_eq_getElem (row.masked column true)] at counted
      by_cases inside : column < row.responseMask.count Bool.true
      · exact inside
      · rw [valuesOf_behind batch counting ⟨0, (), ()⟩ _ row column (by rw [suffixOf_length]; omega) bound] at counted
        cases counted
    have shape := mask_front front
    rwa [row.maskWidth] at shape
  have positive : 0 < row.responseMask.count true := List.count_pos_iff.mpr valid
  have first : row.responseMask[0]? = some true := by
    rw [mask, List.getElem?_append_left (by rwa [List.length_replicate]), List.getElem?_replicate, if_pos positive]
  have inside : 0 < (batch.suffixOf row).length := by rwa [suffixOf_length]
  have seen := @agree (List (Nat × Nat)) (List (Nat × Nat)) ⟨[]⟩ recording ⟨0, [], []⟩ 0 first
  rw [@valuesOf_getElem? U promptWidth responseWidth batch _ _ recording ⟨0, [], []⟩ ⟨[]⟩ _ row _ _ _
    (logitsOf_getElem? batch recording ⟨0, [], []⟩ row 0 inside) (List.getElem?_eq_getElem inside),
    List.getElem?_eq_getElem (row.masked 0 first)] at seen
  have same : (if batch.prefixOf row = [] ∧ True then [] else placed (batch.prefixOf row)) = placed row.prompt := by
    have tokens := Option.some.inj seen
    simp only [recording, Row.alone, id, List.take_zero, List.append_nil] at tokens
    exact tokens
  have whole : batch.prefixOf row = row.prompt := by
    by_cases empty : batch.prefixOf row = []
    · rw [if_pos ⟨empty, trivial⟩] at same
      rw [empty]
      exact placed_injective same
    · rw [if_neg (fun both => empty both.1)] at same
      exact placed_injective same
  obtain ⟨absent, padded⟩ := (prefixOf_eq_prompt batch row).mp whole
  exact ⟨absent, padded, mask⟩

/-- The shared pass gives every row what it gets alone exactly when the prompts survive the
comparison with the padding token and the masks have their ones in front. -/
theorem matches_iff_regular [DecidableEq U] : batch.Matches ↔ batch.Regular := by
  constructor
  · intro agrees row member valid
    exact row_regular batch agrees member valid
  · intro regular L K zero model fill calculateEntropy
    refine ⟨_, _, forward_rows batch model fill calculateEntropy, ?_, ?_⟩
    · rw [List.forall₂_map_right_iff, List.forall₂_same]
      intro row member
      exact agree_of_regular batch model fill regular _ member
    · intro calculated
      refine ⟨_, if_pos calculated, ?_⟩
      rw [List.forall₂_map_right_iff, List.forall₂_same]
      intro row member
      exact agree_of_regular batch model fill regular _ member

end Batch

/-- One row with a token of a tool between two of its own. -/
def toolTurn : Rows Nat 1 3 where
  rows := [⟨7, [5], [1, 2, 3], [true, false, true], by decide, by decide, by decide, by decide,
    fun _ valid => (List.getElem?_eq_some_iff.mp valid).1⟩]
  nonempty := by decide
  shared := by simp
  padding := 0
  padTokenId := some 0

/-- One row whose prompt has the padding token as its first token. -/
def padPrompt : Rows Nat 2 1 where
  rows := [⟨7, [0, 5], [1], [true], by decide, by decide, by decide, by decide,
    fun _ valid => (List.getElem?_eq_some_iff.mp valid).1⟩]
  nonempty := by decide
  shared := by simp
  padding := 0
  padTokenId := some 0

theorem not_matches : ¬ toolTurn.Matches ∧ ¬ padPrompt.Matches := by
  constructor
  · intro agrees
    exact absurd (row_regular toolTurn agrees List.mem_cons_self (by decide)).2.2 (by decide)
  · intro agrees
    exact absurd (row_regular padPrompt agrees List.mem_cons_self (by decide)).1 (by decide)

end LLMFusion.PrefixGrouper
