import LLMFusion.Lib.Gather

/-! What a mask selects of a list of its length, and the lists that are made of a selection by
writing it to the places of the mask. -/

namespace Masking
open List

universe u v w
variable {α : Type u} {β : Type v} {γ : Type w}

/-- `items[mask]` -/
def select : List Bool → List α → List α
  | true :: mask, item :: items => item :: select mask items
  | false :: mask, _ :: items => select mask items
  | _, _ => []

/-- `torch.nonzero` of a flat mask -/
def places (mask : List Bool) : List Nat := select mask (List.range mask.length)

/-- Write the values to the places of the mask, in order; the other places keep the blank. -/
def scatter (blank : α) : List Bool → List α → List α
  | [], _ => []
  | true :: mask, value :: values => value :: scatter blank mask values
  | _ :: mask, values => blank :: scatter blank mask values

@[simp] theorem select_nil (mask : List Bool) : select mask ([] : List α) = [] := by
  cases mask with
  | nil => rfl
  | cons valid mask => cases valid <;> rfl

@[simp] theorem select_true (mask : List Bool) (item : α) (items : List α) :
    select (true :: mask) (item :: items) = item :: select mask items := rfl

@[simp] theorem select_false (mask : List Bool) (item : α) (items : List α) :
    select (false :: mask) (item :: items) = select mask items := rfl

theorem select_map (f : α → β) (mask : List Bool) (items : List α) :
    select mask (items.map f) = (select mask items).map f := by
  induction items generalizing mask with
  | nil => simp
  | cons item items ih =>
    cases mask with
    | nil => rfl
    | cons valid mask => cases valid <;> simp [ih]

variable {mask : List Bool} {items : List α}

theorem select_length (aligned : mask.length = items.length) : (select mask items).length = mask.count true := by
  induction items generalizing mask with
  | nil => simp [eq_nil_of_length_eq_zero aligned]
  | cons item items ih =>
    cases mask with
    | nil => cases aligned
    | cons valid mask => cases valid <;> simp [ih (Nat.succ.inj aligned)]

theorem gather_places (aligned : mask.length = items.length) :
    Gather.gather items (places mask) = some (select mask items) := by
  have all : (range mask.length).map (fun index => items[index]?) = items.map some := by
    apply ext_getElem
    · simp [aligned]
    · intro index _ inside
      simp [getElem?_eq_getElem (show index < items.length by simpa using inside)]
  rw [Gather.gather_eq_some, places, ← select_map, ← select_map, all]

theorem select_append (aligned : mask.length = items.length) (later : List Bool)
    (others : List α) : select (mask ++ later) (items ++ others) = select mask items ++ select later others := by
  induction items generalizing mask with
  | nil => simp [eq_nil_of_length_eq_zero aligned]
  | cons item items ih =>
    cases mask with
    | nil => cases aligned
    | cons valid mask => cases valid <;> simp [ih (Nat.succ.inj aligned)]

/-- The rows of a mask select of the rows of items, one behind the other, what they select of each. -/
theorem select_flatten {masks : List (List Bool)} {rows : List (List α)}
    (aligned : List.Forall₂ (fun mask row => mask.length = row.length) masks rows) :
    select masks.flatten rows.flatten = (zipWith select masks rows).flatten := by
  induction aligned with
  | nil => rfl
  | cons first _ ih =>
    rw [flatten_cons, flatten_cons, select_append first, ih, zipWith_cons_cons, flatten_cons]

theorem select_lengths {masks : List (List Bool)} {rows : List (List α)}
    (aligned : List.Forall₂ (fun mask row => mask.length = row.length) masks rows) :
    (zipWith select masks rows).map length = masks.map (count true) := by
  induction aligned with
  | nil => rfl
  | cons first _ ih => rw [zipWith_cons_cons, map_cons, map_cons, select_length first, ih]

@[simp] theorem select_no_mask (items : List α) : select [] items = [] := by
  cases items <;> rfl

theorem select_skip (count : Nat) (mask : List Bool) (items : List α) :
    select (replicate count false ++ mask) items = select mask (items.drop count) := by
  induction count generalizing items with
  | zero => rfl
  | succ count ih =>
    cases items with
    | nil => simp
    | cons item items => rw [replicate_succ, cons_append, select_false, ih, drop_succ_cons]

theorem select_keep (count : Nat) (mask : List Bool) (items : List α) :
    select (replicate count true ++ mask) items = items.take count ++ select mask (items.drop count) := by
  induction count generalizing items with
  | zero => rfl
  | succ count ih =>
    cases items with
    | nil => simp
    | cons item items =>
      rw [replicate_succ, cons_append, select_true, ih, take_succ_cons, drop_succ_cons,
        cons_append]

theorem select_front (ones zeros : Nat) (items : List α) :
    select (replicate ones true ++ replicate zeros false) items = items.take ones := by
  have skipped := select_skip zeros [] (items.drop ones)
  rw [append_nil, select_no_mask] at skipped
  rw [select_keep, skipped, append_nil]

theorem scatter_front (blank : α) {ones : Nat} (zeros : Nat) {values : List α} (whole : values.length = ones) :
    scatter blank (replicate ones true ++ replicate zeros false) values = values ++ replicate zeros blank := by
  subst whole
  induction values with
  | nil =>
    induction zeros with
    | zero => rfl
    | succ zeros ih => rw [replicate_succ, replicate_succ]; exact congrArg (blank :: ·) ih
  | cons value values ih => rw [length_cons, replicate_succ]; exact congrArg (value :: ·) ih

theorem select_zipWith (f : α → β → γ) {others : List β} (aligned : items.length = others.length) :
    select mask (zipWith f items others) = zipWith f (select mask items) (select mask others) := by
  induction items generalizing mask others with
  | nil => simp
  | cons item items ih =>
    cases others with
    | nil => cases aligned
    | cons other others =>
      cases mask with
      | nil => rfl
      | cons valid mask => cases valid <;> simp [ih (Nat.succ.inj aligned)]

theorem select_sublist (mask : List Bool) (items : List α) : (select mask items).Sublist items := by
  induction items generalizing mask with
  | nil => simp
  | cons item items ih =>
    cases mask with
    | nil => exact nil_sublist _
    | cons valid mask =>
      cases valid with
      | true => exact (ih mask).cons_cons item
      | false => exact (ih mask).cons item

theorem select_rank {place : Nat} (aligned : mask.length = items.length)
    (valid : mask[place]? = some true) : (select mask items)[(mask.take place).count true]? = items[place]? := by
  induction items generalizing mask place with
  | nil => simp [eq_nil_of_length_eq_zero aligned] at valid
  | cons item items ih =>
    cases mask with
    | nil => cases aligned
    | cons first mask =>
      cases place with
      | zero =>
        obtain rfl : first = true := by simpa using valid
        simp
      | succ place =>
        have later := ih (Nat.succ.inj aligned) (by simpa using valid)
        cases first <;> simp [later]

theorem places_inside {place : Nat} (member : place ∈ places mask) : place < mask.length :=
  mem_range.mp ((select_sublist mask _).subset member)

theorem places_distinct (mask : List Bool) : (places mask).Nodup := nodup_range.sublist (select_sublist mask _)

theorem select_filter (property : α → Bool) (items : List α) : select (items.map property) items = items.filter property := by
  induction items with
  | nil => rfl
  | cons item items ih =>
    rw [map_cons, filter_cons]
    cases property item with
    | true => simp [ih]
    | false => simp [ih]

end Masking
