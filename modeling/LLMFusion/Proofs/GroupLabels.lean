import LLMFusion.GroupLabels
import LLMFusion.Lib.Fallible

/-! When the indices of a label vector are those of its groups, numbered without gaps. Integers that are
read off the labels keep their own values; only where labels are ranked do the numbers begin at zero. -/

namespace LLMFusion.Groupwise
open Fallible List

section Canonical
variable {F : Type} (floats : Floats F)

/-- What a label is equal by: a number, where a float that is near an integer counts as that integer, a text
or a UUID. -/
inductive Key where
  | number (value : ℚ)
  | text (value : String)
  | uuid (value : BitVec 128)

/-- A float that is near an integer is that integer. -/
def settle (x : ℚ) : ℚ := if nearInteger x then (rint x : ℚ) else x

def PyLabel.key : PyLabel F → Key
  | int value => .number value
  | float value => .number (settle (floats.value value))
  | text value => .text value
  | uuid value => .uuid value

/-- The labels of the samples. -/
def LabelVector.labels : LabelVector F → List (PyLabel F)
  | intTensor labels => labels.map (fun label => .int label.toInt)
  | floatTensor labels => labels.map .float
  | signed labels => labels.map (fun label => .int label.toInt)
  | unsigned labels => labels.map (fun label => .int label.toNat)
  | bools labels => labels.map (fun label => .int (if label then 1 else 0))
  | LabelVector.floats labels => labels.map .float
  | texts labels => labels.map .text
  | objects labels => labels

/-- Exactly the numbers from zero on, without a gap. -/
def Contiguous (index : List Int) : Prop := ∃ groups : Nat, ∀ value : Int, value ∈ index ↔ 0 ≤ value ∧ value < groups

/-- Samples have one index when their labels are equal, and the indices are contiguous. -/
def Canonical (labels : List (PyLabel F)) (index : List Int) : Prop :=
  index.length = labels.length ∧
    (∀ sample ∈ labels.zip index, ∀ other ∈ labels.zip index,
      sample.2 = other.2 ↔ sample.1.key floats = other.1.key floats) ∧
    Contiguous index

variable {α : Type}

/-- Labels of one reading are equal, and equal labels have one reading. -/
def Separates {β : Type} (label : α → PyLabel F) (reading : α → β) (items : List α) : Prop :=
  ∀ item ∈ items, ∀ other ∈ items, reading item = reading other ↔ (label item).key floats = (label other).key floats

theorem canonical_map (label : α → PyLabel F) (reading : α → Int) (items : List α) :
    Canonical floats (items.map label) (items.map reading) ↔
      Separates floats label reading items ∧ Contiguous (items.map reading) := by
  have zipped : (items.map label).zip (items.map reading) = items.map (fun item => (label item, reading item)) := by
    exact zip_map'
  rw [Canonical, length_map, length_map, eq_self_iff_true, true_and, zipped, forall_mem_map]
  simp only [forall_mem_map]
  exact Iff.rfl

theorem contiguous_unique {β : Type} [LinearOrder β] (names : List β) : Contiguous (asIndex (uniqueInverse names)) := by
  have member : ∀ name, name ∈ names.dedup.mergeSort (fun a b => decide (a ≤ b)) ↔ name ∈ names := by
    intro name
    rw [mem_mergeSort, mem_dedup]
  have distinct : (names.dedup.mergeSort (fun a b => decide (a ≤ b))).Nodup :=
    (mergeSort_perm _ _).nodup_iff.mpr (nodup_dedup names)
  refine ⟨(names.dedup.mergeSort (fun a b => decide (a ≤ b))).length, fun value => ?_⟩
  rw [asIndex, uniqueInverse, map_map, mem_map]
  constructor
  · rintro ⟨name, inside, rfl⟩
    exact ⟨Int.natCast_nonneg _, Int.ofNat_lt.mpr (idxOf_lt_length_of_mem ((member name).mpr inside))⟩
  · rintro ⟨nonneg, below⟩
    obtain ⟨rank, rfl⟩ := Int.eq_ofNat_of_zero_le nonneg
    have inside : rank < (names.dedup.mergeSort (fun a b => decide (a ≤ b))).length := Int.ofNat_lt.mp below
    refine ⟨_, (member _).mp (getElem_mem inside), ?_⟩
    exact congrArg (fun rank : Nat => (rank : Int)) (List.Nodup.idxOf_getElem distinct rank inside)

theorem canonical_unique {β : Type} [LinearOrder β] (label : α → PyLabel F) (name : α → β) (items : List α) :
    Canonical floats (items.map label) (asIndex (uniqueInverse (items.map name))) ↔ Separates floats label name items := by
  have ranked : asIndex (uniqueInverse (items.map name)) = items.map (fun item =>
      ((((items.map name).dedup.mergeSort (fun a b => decide (a ≤ b))).idxOf (name item) : Nat) : Int)) := by
    rw [asIndex, uniqueInverse, map_map, map_map]
    rfl
  have contiguous := contiguous_unique (items.map name)
  rw [ranked] at contiguous ⊢
  rw [canonical_map, and_iff_left contiguous]
  apply forall₂_congr
  intro item inside
  apply forall₂_congr
  intro other inside'
  have found : name item ∈ (items.map name).dedup.mergeSort (fun a b => decide (a ≤ b)) := by
    rw [mem_mergeSort, mem_dedup]
    exact mem_map_of_mem inside
  rw [Int.natCast_inj, idxOf_inj found]

/-! ### Routes -/

theorem mapM_read {β : Type} {read : α → Option β} {items : List α} {values : List β} (returned : items.mapM read = some values)
    (blank : β) : values = items.map (fun item => (read item).getD blank) ∧
      ∀ item ∈ items, ∀ other ∈ items, (read item).getD blank = (read other).getD blank ↔ read item = read other := by
  have related := mapM_eq_some.mp returned
  have found : ∀ item ∈ items, read item = some ((read item).getD blank) := by
    intro item inside
    obtain ⟨value, _, isValue⟩ := forall₂_left related inside
    rw [isValue, Option.getD_some]
  refine ⟨?_, fun item inside other inside' => ?_⟩
  · apply mapM_some_eq _ returned
    intro item _ value isValue
    rw [isValue, Option.getD_some]
  · rw [found item inside, found other inside', Option.getD_some, Option.getD_some, Option.some_inj]

theorem canonical_read (label : α → PyLabel F) {read : α → Option Int} {items : List α} {coerced : List Int}
    (returned : items.mapM read = some coerced) :
    Canonical floats (items.map label) coerced ↔ Separates floats label read items ∧ Contiguous coerced := by
  obtain ⟨same, apart⟩ := mapM_read returned 0
  rw [same, canonical_map]
  apply and_congr_left
  intro _
  apply forall₂_congr
  intro item inside
  apply forall₂_congr
  intro other inside'
  rw [apart item inside other inside']

theorem canonical_ranked {β : Type} [LinearOrder β] (label : α → PyLabel F) {read : α → Option β} {items : List α}
    {names : List β} (returned : items.mapM read = some names) (blank : β) :
    Canonical floats (items.map label) (asIndex (uniqueInverse names)) ↔ Separates floats label read items := by
  obtain ⟨same, apart⟩ := mapM_read returned blank
  rw [same, canonical_unique]
  apply forall₂_congr
  intro item inside
  apply forall₂_congr
  intro other inside'
  rw [apart item inside other inside']

theorem toInt64_nonneg {n : Int} (nonneg : 0 ≤ toInt64 n) : toInt64 n = n := by
  rw [toInt64, int64] at nonneg ⊢
  split
  · rfl
  · next outside =>
    rw [if_neg outside] at nonneg
    exact absurd nonneg (by decide)

theorem separates_rounded {items : List F} (near : items.all (fun label => nearInteger (floats.value label)) = true)
    (contiguous : Contiguous (items.map (fun label => toInt64 (rint (floats.value label))))) :
    Separates floats PyLabel.float (fun label => toInt64 (rint (floats.value label))) items := by
  obtain ⟨groups, bounds⟩ := contiguous
  have exact : ∀ item ∈ items, toInt64 (rint (floats.value item)) = rint (floats.value item) := fun item inside =>
    toInt64_nonneg ((bounds _).mp (mem_map_of_mem inside)).1
  have settled : ∀ item ∈ items, settle (floats.value item) = rint (floats.value item) := fun item inside =>
    if_pos (all_eq_true.mp near item inside)
  intro item inside other inside'
  simp only
  rw [exact item inside, exact other inside', PyLabel.key, PyLabel.key, settled item inside, settled other inside',
    Key.number.injEq, Int.cast_inj]

/-! ### The condition -/

/-- Labels that are used as integers are those from zero on and, where they are no integers, are told apart by
their integers. Labels that are ranked are told apart by what is compared. -/
def LabelVector.Clear : LabelVector F → Prop
  | intTensor labels => Contiguous (labels.map BitVec.toInt)
  | signed labels => Contiguous (labels.map BitVec.toInt)
  | unsigned labels => Contiguous (labels.map BitVec.toInt)
  | bools labels => Contiguous (labels.map (fun label => if label then 1 else 0))
  | floatTensor labels =>
    if labels.all (fun label => nearInteger (floats.value label)) then
      Contiguous (labels.map (fun label => toInt64 (rint (floats.value label))))
    else
      ∀ label ∈ labels, ∀ other ∈ labels, settle (floats.value label) = settle (floats.value other) →
        floats.repr label = floats.repr other
  | LabelVector.floats labels =>
    if labels.all (fun label => nearInteger (floats.value label)) then
      Contiguous (labels.map (fun label => toInt64 (rint (floats.value label))))
    else
      (∀ label ∈ labels, ∀ other ∈ labels, toInt64 (truncate (floats.value label)) = toInt64 (truncate (floats.value other)) ↔
        settle (floats.value label) = settle (floats.value other)) ∧
      Contiguous (labels.map (fun label => toInt64 (truncate (floats.value label))))
  | texts labels =>
    match labels.mapM readText with
    | some integers => (∀ label ∈ labels, ∀ other ∈ labels, readText label = readText other → label = other) ∧ Contiguous integers
    | none => True
  | objects labels =>
    match labels.mapM (PyLabel.coerce floats) with
    | some integers => Separates floats id (PyLabel.coerce floats) labels ∧ Contiguous integers
    | none =>
      match labels.mapM (PyLabel.toNumber? floats), labels.mapM PyLabel.toText?, labels.mapM PyLabel.toUuid? with
      | some _, _, _ => Separates floats id (PyLabel.toNumber? floats) labels
      | none, some _, _ => True
      | none, none, some _ => True
      | none, none, none => Separates floats id (PyLabel.str floats) labels

theorem objects_labels {labels : List (PyLabel F)} {index : List Int} :
    Canonical floats labels index ↔ Canonical floats (labels.map id) index := by
  rw [map_id]

theorem separates_texts {labels : List (PyLabel F)} {names : List String} (returned : labels.mapM PyLabel.toText? = some names) :
    Separates floats id PyLabel.toText? labels := by
  have related := mapM_eq_some.mp returned
  have isText : ∀ label ∈ labels, ∃ text, label = .text text := by
    intro label inside
    obtain ⟨name, _, found⟩ := forall₂_left related inside
    cases label with
    | text text => exact ⟨text, rfl⟩
    | int _ => cases found
    | float _ => cases found
    | uuid _ => cases found
  intro label inside other inside'
  obtain ⟨text, rfl⟩ := isText label inside
  obtain ⟨text', rfl⟩ := isText other inside'
  rw [PyLabel.toText?, PyLabel.toText?, Option.some_inj, id, id, PyLabel.key, PyLabel.key, Key.text.injEq]

theorem separates_uuids {labels : List (PyLabel F)} {names : List Nat} (returned : labels.mapM PyLabel.toUuid? = some names) :
    Separates floats id PyLabel.toUuid? labels := by
  have related := mapM_eq_some.mp returned
  have isUuid : ∀ label ∈ labels, ∃ value, label = .uuid value := by
    intro label inside
    obtain ⟨name, _, found⟩ := forall₂_left related inside
    cases label with
    | uuid value => exact ⟨value, rfl⟩
    | int _ => cases found
    | float _ => cases found
    | text _ => cases found
  intro label inside other inside'
  obtain ⟨value, rfl⟩ := isUuid label inside
  obtain ⟨value', rfl⟩ := isUuid other inside'
  rw [PyLabel.toUuid?, PyLabel.toUuid?, Option.some_inj, id, id, PyLabel.key, PyLabel.key, Key.uuid.injEq, BitVec.toNat_inj]

theorem objects_clear (labels : List (PyLabel F)) :
    Canonical floats labels ((LabelVector.objects labels).asTorchIndex floats) ↔ (LabelVector.objects labels).Clear floats := by
  rw [objects_labels, LabelVector.asTorchIndex, LabelVector.Clear]
  cases read : labels.mapM (PyLabel.coerce floats) with
  | some coerced => exact canonical_read floats id read
  | none =>
    simp only
    rw [factorizeLabels]
    cases numbers : labels.mapM (PyLabel.toNumber? floats) with
    | some values => exact canonical_ranked floats id numbers 0
    | none =>
      cases texts : labels.mapM PyLabel.toText? with
      | some names => exact iff_of_true ((canonical_ranked floats id texts "").mpr (separates_texts floats texts)) trivial
      | none =>
        cases uuids : labels.mapM PyLabel.toUuid? with
        | some names => exact iff_of_true ((canonical_ranked floats id uuids 0).mpr (separates_uuids floats uuids)) trivial
        | none => exact canonical_unique floats id (PyLabel.str floats) labels

theorem integers_clear (value : α → Int) (reading : α → Int) (items : List α)
    (apart : ∀ item other, reading item = reading other ↔ value item = value other) :
    Canonical floats (items.map (fun item => .int (value item))) (items.map reading) ↔ Contiguous (items.map reading) := by
  rw [canonical_map, and_iff_right]
  intro item _ other _
  rw [PyLabel.key, PyLabel.key, Key.number.injEq, Int.cast_inj, apart]

theorem idxOf_map {β γ : Type} [DecidableEq β] [DecidableEq γ] {f : β → γ} (injective : Function.Injective f) (items : List β)
    (item : β) : (items.map f).idxOf (f item) = items.idxOf item := by
  induction items with
  | nil => rfl
  | cons first items ih =>
    rw [map_cons, idxOf_cons, idxOf_cons, ih]
    simp only [injective.eq_iff, Bool.cond_eq_ite, beq_iff_eq]

theorem uniqueInverse_map {β γ : Type} [LinearOrder β] [LinearOrder γ] {f : β → γ} (increasing : StrictMono f)
    (names : List β) : uniqueInverse (names.map f) = uniqueInverse names := by
  have sorted : (names.map f).dedup.mergeSort (fun a b => decide (a ≤ b)) =
      (names.dedup.mergeSort (fun a b => decide (a ≤ b))).map f := by
    rw [dedup_map_of_injective increasing.injective]
    exact (map_mergeSort fun a _ b _ => decide_eq_decide.mpr increasing.le_iff_le.symm).symm
  rw [uniqueInverse, uniqueInverse, sorted, map_map]
  apply map_congr_left
  intro name _
  exact idxOf_map increasing.injective _ name

def Label.toPy : Label → PyLabel F
  | int value => .int value
  | text value => .text value

/-- An array of integers, strings or objects that are neither floats nor UUIDs. -/
def Index.vector : Index → LabelVector F
  | signed labels => .signed labels
  | unsigned labels => .unsigned labels
  | text labels => .texts labels
  | objects labels => .objects (labels.map Label.toPy)

theorem mapM_map_option {β γ : Type} (f : α → β) (read : β → Option γ) (items : List α) :
    (items.map f).mapM read = items.mapM (fun item => read (f item)) := by
  induction items with
  | nil => rfl
  | cons item items ih => rw [map_cons, mapM_cons, mapM_cons, ih]

theorem factorize_texts (labels : List String) : factorize (labels.map .text) = uniqueInverse labels := by
  have texts : (labels.map Label.text).mapM Label.toText? = some labels := by
    rw [mapM_map_option]
    exact (mapM_some id (fun _ _ => rfl)).trans (congrArg some (map_id labels))
  cases labels with
  | nil => rfl
  | cons label labels =>
    have ints : ((label :: labels).map Label.text).mapM Label.toInt? = none := by
      rw [map_cons, mapM_cons]
      rfl
    rw [factorize, ints, texts]

theorem toNumber_toPy (labels : List Label) : (labels.map Label.toPy).mapM (PyLabel.toNumber? floats) =
      (labels.mapM Label.toInt?).map (map (fun value : Int => (value : ℚ))) := by
  induction labels with
  | nil => rfl
  | cons label labels ih =>
    rw [map_cons, mapM_cons, mapM_cons, ih]
    cases label with
    | int value => cases labels.mapM Label.toInt? <;> rfl
    | text value => rfl

theorem factorizeLabels_toPy (labels : List Label) : factorizeLabels floats (labels.map Label.toPy) = factorize labels := by
  have texts : (labels.map Label.toPy).mapM (PyLabel.toText? (F := F)) = labels.mapM Label.toText? := by
    rw [mapM_map_option]
    apply congrArg (fun read => labels.mapM read)
    funext label
    cases label <;> rfl
  have strs : (labels.map Label.toPy).map (PyLabel.str floats) = labels.map Label.str := by
    rw [map_map]
    apply map_congr_left
    intro label _
    cases label <;> rfl
  rw [factorizeLabels, factorize, toNumber_toPy, texts, strs]
  cases ints : labels.mapM Label.toInt? with
  | some values => exact uniqueInverse_map Int.cast_strictMono values
  | none =>
    cases labels.mapM Label.toText? with
    | some names => rfl
    | none =>
      have uuids : (labels.map Label.toPy).mapM (PyLabel.toUuid? (F := F)) = none := by
        cases labels with
        | nil => cases ints
        | cons label labels => cases label <;> rfl
      rw [uuids]
      rfl

theorem asTorchIndex_vector (index : Index) : (index.vector : LabelVector F).asTorchIndex floats = Groupwise.asTorchIndex index := by
  cases index with
  | signed labels => rfl
  | unsigned labels => rfl
  | text labels =>
    have read : (labels.map Label.text).mapM coerce = labels.mapM readText := mapM_map_option Label.text coerce labels
    simp only [Groupwise.asTorchIndex, Index.labels, read, factorize_texts]
    rfl
  | objects labels =>
    have read : (labels.map Label.toPy).mapM (PyLabel.coerce floats) = labels.mapM coerce := by
      rw [mapM_map_option]
      apply congrArg (fun read => labels.mapM read)
      funext label
      cases label <;> rfl
    simp only [Groupwise.asTorchIndex, Index.labels, Index.vector, LabelVector.asTorchIndex, read, factorizeLabels_toPy]
    rfl

end Canonical

/-- Two floats, zero and one. -/
def zeroAndOne : Floats Bool where
  value one := if one then 1 else 0
  repr one := if one then "1.0" else "0.0"

end LLMFusion.Groupwise
