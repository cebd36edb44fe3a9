import Mathlib.Algebra.BigOperators.Group.List.Basic

/-! Loops over fallible operations: when every step succeeds, so does the loop,
and its results are related to the items one by one. -/

namespace Fallible
open List

universe u v
variable {ε : Type u} {α β : Type v}

@[simp] theorem ok_bind (value : α) (next : α → Except ε β) : (Except.ok value >>= next) = next value := rfl

@[simp] theorem error_bind (error : ε) (next : α → Except ε β) : (Except.error error >>= next) = .error error := rfl

theorem bind_eq_ok {first : Except ε α} {next : α → Except ε β} {result : β} :
    (first >>= next) = .ok result ↔ ∃ value, first = .ok value ∧ next value = .ok result := by
  cases first with
  | ok value => simp
  | error error => simp

theorem map_eq_ok {f : α → β} {first : Except ε α} {result : β} :
    first.map f = .ok result ↔ ∃ value, first = .ok value ∧ f value = result := by
  cases first with
  | ok value => simp [Except.map]
  | error error => simp [Except.map]

/-- A value is as described, and so is an error. -/
def Yields (failed : ε → Prop) (holds : α → Prop) : Except ε α → Prop
  | .ok value => holds value
  | .error error => failed error

theorem Yields.bind {failed : ε → Prop} {holds : α → Prop} {holds' : β → Prop} {first : Except ε α}
    {next : α → Except ε β} (yields : Yields failed holds first)
    (continues : ∀ value, holds value → Yields failed holds' (next value)) : Yields failed holds' (first >>= next) := by
  cases first with
  | ok value => exact continues value yields
  | error error => exact yields

theorem Yields.imp {failed failed' : ε → Prop} {holds holds' : α → Prop} {result : Except ε α}
    (yields : Yields failed holds result) (allowed : ∀ error, failed error → failed' error)
    (weaker : ∀ value, holds value → holds' value) : Yields failed' holds' result := by
  cases result with
  | ok value => exact weaker value yields
  | error error => exact allowed error yields

theorem Yields.ne_error {failed : ε → Prop} {holds : α → Prop} {result : Except ε α}
    (yields : Yields failed holds result) {error : ε} (excluded : ¬ failed error) : result ≠ .error error := by
  rintro rfl
  exact excluded yields

theorem yields_ok {holds : α → Prop} {result : Except ε α} :
    Yields (fun _ => False) holds result ↔ ∃ value, result = .ok value ∧ holds value := by
  cases result with
  | ok value => simp [Yields]
  | error error => simp [Yields]

theorem mapM_ok (operation : α → Except ε β) (relation : α → β → Prop) {items : List α}
    (succeeds : ∀ item ∈ items, ∃ value, operation item = .ok value ∧ relation item value) :
    ∃ values, items.mapM operation = .ok values ∧ List.Forall₂ relation items values := by
  induction items with
  | nil => exact ⟨[], rfl, .nil⟩
  | cons item items ih =>
    obtain ⟨value, returned, related⟩ := succeeds item (by simp)
    obtain ⟨values, rest, tail⟩ := ih (fun other member => succeeds other (by simp [member]))
    refine ⟨value :: values, ?_, .cons related tail⟩
    simp only [mapM_cons, returned, rest]
    rfl

theorem mapM_map {operation : α → Except ε β} (result : α → β) {items : List α}
    (succeeds : ∀ item ∈ items, operation item = .ok (result item)) : items.mapM operation = .ok (items.map result) := by
  induction items with
  | nil => rfl
  | cons item items ih =>
    simp only [mapM_cons, succeeds item (by simp),
      ih (fun other member => succeeds other (by simp [member])), map_cons]
    rfl

theorem mapM_succeeded {operation : α → Except ε β} {items : List α} {values : List β}
    (returned : items.mapM operation = .ok values) :
    List.Forall₂ (fun item value => operation item = .ok value) items values := by
  induction items generalizing values with
  | nil =>
    cases returned
    exact .nil
  | cons item items ih =>
    rw [mapM_cons] at returned
    obtain ⟨value, first, returned⟩ := bind_eq_ok.mp returned
    obtain ⟨rest, later, returned⟩ := bind_eq_ok.mp returned
    cases returned
    exact .cons first (ih later)

theorem mapM_congr {operation operation' : α → Except ε β} {items : List α}
    (same : ∀ item ∈ items, operation item = operation' item) : items.mapM operation = items.mapM operation' := by
  induction items with
  | nil => rfl
  | cons item items ih =>
    rw [mapM_cons, mapM_cons, same item (by simp), ih (fun other member => same other (by simp [member]))]

theorem mapM_eq_some {operation : α → Option β} {items : List α} {values : List β} :
    items.mapM operation = some values ↔ List.Forall₂ (fun item value => operation item = some value) items values := by
  induction items generalizing values with
  | nil =>
    rw [forall₂_nil_left_iff]
    exact ⟨fun returned => (Option.some.inj returned).symm, fun empty => congrArg some empty.symm⟩
  | cons item items ih =>
    rw [mapM_cons]
    constructor
    · intro returned
      obtain ⟨value, first, returned⟩ := Option.bind_eq_some_iff.mp returned
      obtain ⟨rest, later, returned⟩ := Option.bind_eq_some_iff.mp returned
      cases returned
      exact .cons first (ih.mp later)
    · intro related
      cases related with
      | cons first later =>
        rw [first, ih.mpr later]
        rfl

theorem mapM_related {operation : α → Option β} {relation : α → β → Prop} {items : List α}
    (succeeds : ∀ item ∈ items, ∃ value, operation item = some value ∧ relation item value) :
    ∃ values, items.mapM operation = some values ∧ List.Forall₂ relation items values := by
  induction items with
  | nil => exact ⟨[], rfl, .nil⟩
  | cons item items ih =>
    obtain ⟨value, returned, related⟩ := succeeds item mem_cons_self
    obtain ⟨values, rest, tail⟩ := ih (fun other member => succeeds other (mem_cons_of_mem _ member))
    refine ⟨value :: values, ?_, .cons related tail⟩
    rw [mapM_cons, returned, rest]
    rfl

theorem mapM_some {operation : α → Option β} (result : α → β) {items : List α}
    (succeeds : ∀ item ∈ items, operation item = some (result item)) : items.mapM operation = some (items.map result) :=
  mapM_eq_some.mpr (forall₂_map_right_iff.mpr (forall₂_same.mpr succeeds))

theorem mapM_some_eq {operation : α → Option β} (result : α → β) {items : List α} {values : List β}
    (returned : items.mapM operation = some values)
    (each : ∀ item ∈ items, ∀ value, operation item = some value → value = result item) : values = items.map result := by
  have related := mapM_eq_some.mp returned
  clear returned
  induction related with
  | nil => rfl
  | cons first _ ih =>
    rw [each _ mem_cons_self _ first, ih (fun other member => each other (mem_cons_of_mem _ member)), map_cons]

theorem mapM_filterMap {operation : α → Option β} {items : List α} (returns : ∀ item ∈ items, (operation item).isSome) :
    items.mapM operation = some (items.filterMap operation) := by
  induction items with
  | nil => rfl
  | cons item items ih =>
    obtain ⟨value, first⟩ := Option.isSome_iff_exists.mp (returns item mem_cons_self)
    rw [mapM_cons, first, ih (fun other member => returns other (mem_cons_of_mem _ member)), filterMap_cons_some first]
    rfl

theorem foldlM_keeps {σ κ : Type v} {body : σ → α → Except ε σ} (view : σ → κ)
    (keeps : ∀ state item next, body state item = .ok next → view next = view state) {items : List α} {state final : σ}
    (returned : items.foldlM body state = .ok final) : view final = view state := by
  induction items generalizing state with
  | nil =>
    cases returned
    rfl
  | cons item items ih =>
    rw [foldlM_cons] at returned
    obtain ⟨next, first, rest⟩ := bind_eq_ok.mp returned
    rw [ih rest, keeps state item next first]

theorem foldlM_preserves {σ : Type v} {body : σ → α → Except ε σ} (holds : σ → Prop)
    (kept : ∀ state item next, holds state → body state item = .ok next → holds next) {items : List α} {state final : σ}
    (start : holds state) (returned : items.foldlM body state = .ok final) : holds final := by
  induction items generalizing state with
  | nil =>
    cases returned
    exact start
  | cons item items ih =>
    rw [foldlM_cons] at returned
    obtain ⟨next, taken, returned⟩ := bind_eq_ok.mp returned
    exact ih (kept state item next start taken) returned

theorem foldlM_succeeds {σ κ : Type v} {body : σ → α → Except ε σ} (view : σ → κ) (allowed : κ → α → Prop)
    (succeeds : ∀ state item, (∃ next, body state item = .ok next) ↔ allowed (view state) item)
    (keeps : ∀ state item next, body state item = .ok next → view next = view state) {items : List α} {state : σ} :
    (∃ final, items.foldlM body state = .ok final) ↔ ∀ item ∈ items, allowed (view state) item := by
  induction items generalizing state with
  | nil => exact iff_of_true ⟨state, rfl⟩ (by simp)
  | cons item items ih =>
    rw [foldlM_cons, forall_mem_cons, ← succeeds]
    constructor
    · rintro ⟨final, returned⟩
      obtain ⟨next, first, rest⟩ := bind_eq_ok.mp returned
      refine ⟨⟨next, first⟩, ?_⟩
      rw [← keeps state item next first]
      exact ih.mp ⟨final, rest⟩
    · rintro ⟨⟨next, first⟩, rest⟩
      rw [← keeps state item next first] at rest
      rw [first, ok_bind]
      exact ih.mpr rest

/-- The rule for a loop over `range(count)`. -/
theorem foldlM_range {σ : Type v} {body : σ → Nat → Except ε σ} (invariant : Nat → σ → Prop) {count : Nat}
    (step : ∀ index < count, ∀ state, invariant index state →
      ∃ next, body state index = .ok next ∧ invariant (index + 1) next) {state : σ} (start : invariant 0 state) :
    ∃ final, (range count).foldlM body state = .ok final ∧ invariant count final := by
  induction count with
  | zero => exact ⟨state, rfl, start⟩
  | succ count ih =>
    obtain ⟨middle, before, holds⟩ := ih (fun index inside => step index (Nat.lt_succ_of_lt inside))
    obtain ⟨final, after, holds⟩ := step count (Nat.lt_succ_self count) middle holds
    refine ⟨final, ?_, holds⟩
    rw [range_succ, foldlM_append, before]
    simp only [ok_bind, foldlM_cons, foldlM_nil, after]
    rfl

theorem forall₂_sum {μ : Type u} [AddCommMonoid μ] (measure : α → μ) (measure' : β → μ) {items : List α} {values : List β}
    (related : List.Forall₂ (fun item value => measure' value = measure item) items values) :
    (values.map measure').sum = (items.map measure).sum := by
  induction related with
  | nil => rfl
  | cons same _ ih => simp only [map_cons, sum_cons, same, ih]

theorem forall₂_left {relation : α → β → Prop} {items : List α} {values : List β}
    (related : List.Forall₂ relation items values) {item : α} (member : item ∈ items) :
    ∃ value ∈ values, relation item value := by
  obtain ⟨index, inside, rfl⟩ := mem_iff_getElem.mp member
  exact ⟨_, getElem_mem (related.length_eq ▸ inside), related.get inside (related.length_eq ▸ inside)⟩

theorem forall₂_zip {relation : α → β → Prop} {items : List α} {values : List β}
    (related : List.Forall₂ relation items values) {item : α} (member : item ∈ items) :
    ∃ value, (item, value) ∈ items.zip values ∧ relation item value := by
  induction related with
  | nil => exact (not_mem_nil member).elim
  | cons first _ ih =>
    cases member with
    | head => exact ⟨_, mem_cons_self, first⟩
    | tail _ later =>
      obtain ⟨value, beside, related⟩ := ih later
      exact ⟨value, mem_cons_of_mem _ beside, related⟩

theorem mapM_ok_iff {operation : α → Except ε β} {items : List α} :
    (∃ values, items.mapM operation = .ok values) ↔ ∀ item ∈ items, ∃ value, operation item = .ok value := by
  constructor
  · intro succeeded item member
    obtain ⟨values, returned⟩ := succeeded
    obtain ⟨value, _, related⟩ := forall₂_left (mapM_succeeded returned) member
    exact ⟨value, related⟩
  · intro each
    obtain ⟨values, returned, _⟩ := mapM_ok operation (fun _ _ => True)
      (fun item member => (each item member).imp fun _ returned => ⟨returned, trivial⟩)
    exact ⟨values, returned⟩

theorem forall₂_right {relation : α → β → Prop} {items : List α} {values : List β}
    (related : List.Forall₂ relation items values) {value : β} (member : value ∈ values) :
    ∃ item ∈ items, relation item value := by
  obtain ⟨index, inside, rfl⟩ := mem_iff_getElem.mp member
  have bound := related.length_eq.symm ▸ inside
  exact ⟨_, getElem_mem bound, related.get bound inside⟩

end Fallible
