import Mathlib.Data.List.Nodup

/-! Dictionaries in the order of insertion, as lists of entries. -/

namespace Dictionary
open List

universe u v w
variable {κ : Type u} {α : Type v} {β : Type w} [DecidableEq κ]

def get (dict : List (κ × α)) (key : κ) : Option α :=
  match dict with
  | [] => none
  | entry :: rest => if entry.1 = key then some entry.2 else get rest key

/-- An entry gets the value that is made of the one it has. -/
def modify (key : κ) (change : Option α → α) (dict : List (κ × α)) : List (κ × α) :=
  match dict with
  | [] => [(key, change none)]
  | entry :: rest => if entry.1 = key then (key, change (some entry.2)) :: rest else entry :: modify key change rest

/-- Every item is combined with the entry of its key. -/
def merge (combine : Option α → β → α) (dict : List (κ × α)) (items : List (κ × β)) : List (κ × α) :=
  items.foldl (fun dict item => modify item.1 (fun old => combine old item.2) dict) dict

/-- Without the keys. -/
def erase (dict : List (κ × α)) (keys : List κ) : List (κ × α) := dict.filter (fun entry => decide (entry.1 ∉ keys))

@[simp] theorem get_nil (key : κ) : get ([] : List (κ × α)) key = none := rfl

theorem get_cons (entry : κ × α) (rest : List (κ × α)) (key : κ) :
    get (entry :: rest) key = if entry.1 = key then some entry.2 else get rest key := rfl

variable {dict : List (κ × α)} {key : κ}

theorem get_none : get dict key = none ↔ key ∉ dict.map Prod.fst := by
  induction dict with
  | nil => simp
  | cons entry rest ih =>
    rw [get_cons, map_cons, mem_cons, not_or]
    split
    · next same => simp [same]
    · next other => rw [ih, and_iff_right (fun same => other same.symm)]

theorem get_some_mem {value : α} (found : get dict key = some value) : (key, value) ∈ dict := by
  induction dict with
  | nil => cases found
  | cons entry rest ih =>
    rw [get_cons] at found
    split at found
    · next same =>
      cases found
      exact same ▸ mem_cons_self
    · exact mem_cons_of_mem _ (ih found)

theorem mem_iff_get (distinct : (dict.map Prod.fst).Nodup) {value : α} :
    (key, value) ∈ dict ↔ get dict key = some value := by
  refine ⟨?_, get_some_mem⟩
  induction dict with
  | nil => exact fun member => (not_mem_nil member).elim
  | cons entry rest ih =>
    obtain ⟨different, distinct⟩ := nodup_cons.mp distinct
    intro member
    rw [get_cons]
    cases member with
    | head => exact if_pos rfl
    | tail _ later =>
      rw [if_neg, ih distinct later]
      intro same
      exact different (same ▸ mem_map_of_mem later)

theorem get_modify (key : κ) (change : Option α → α) (dict : List (κ × α)) (other : κ) :
    get (modify key change dict) other = if other = key then some (change (get dict key)) else get dict other := by
  induction dict with
  | nil =>
    rw [modify, get_cons, get_nil, get_nil]
    simp only [eq_comm]
  | cons entry rest ih =>
    rw [modify]
    by_cases here : entry.1 = key
    · rw [if_pos here, get_cons, get_cons, get_cons, if_pos here, here]
      by_cases same : other = key
      · rw [if_pos same, if_pos same.symm]
      · rw [if_neg same, if_neg (fun equal => same equal.symm), if_neg (fun equal => same equal.symm)]
    · rw [if_neg here, get_cons, get_cons, get_cons, ih, if_neg here]
      by_cases same : other = key
      · rw [if_pos same, if_pos same, if_neg (fun equal => here (equal.trans same))]
      · rw [if_neg same, if_neg same]

theorem modify_keys (key : κ) (change : Option α → α) (dict : List (κ × α)) :
    (modify key change dict).map Prod.fst = if key ∈ dict.map Prod.fst then dict.map Prod.fst else dict.map Prod.fst ++ [key] := by
  induction dict with
  | nil => simp [modify]
  | cons entry rest ih =>
    rw [modify]
    by_cases here : entry.1 = key
    · simp [here]
    · rw [if_neg here, map_cons, ih, map_cons]
      have different : ¬ key = entry.1 := fun equal => here equal.symm
      by_cases inside : key ∈ rest.map Prod.fst
      · rw [if_pos inside, if_pos (mem_cons_of_mem _ inside)]
      · rw [if_neg inside, if_neg (by simpa [different] using inside), cons_append]

theorem modify_distinct (distinct : (dict.map Prod.fst).Nodup) (key : κ) (change : Option α → α) :
    ((modify key change dict).map Prod.fst).Nodup := by
  rw [modify_keys]
  split
  · exact distinct
  · next outside =>
    apply List.Nodup.append distinct (nodup_singleton key)
    intro other inside member
    exact outside (mem_singleton.mp member ▸ inside)

variable {combine : Option α → β → α}

theorem merge_distinct (distinct : (dict.map Prod.fst).Nodup) (items : List (κ × β)) :
    ((merge combine dict items).map Prod.fst).Nodup := by
  induction items generalizing dict with
  | nil => exact distinct
  | cons item items ih => exact ih (modify_distinct distinct _ _)

theorem get_merge {items : List (κ × β)} (distinct : (items.map Prod.fst).Nodup) (dict : List (κ × α)) (key : κ) :
    get (merge combine dict items) key =
      (get items key).elim (get dict key) (fun value => some (combine (get dict key) value)) := by
  induction items generalizing dict with
  | nil => rfl
  | cons item items ih =>
    obtain ⟨different, distinct⟩ := nodup_cons.mp distinct
    have first : merge combine dict (item :: items) = merge combine (modify item.1 (fun old => combine old item.2) dict) items := rfl
    rw [first, ih distinct, get_cons, get_modify]
    by_cases here : item.1 = key
    · have later : get items key = none := get_none.mpr (here ▸ different)
      rw [if_pos here, if_pos here.symm, later, here]
      rfl
    · rw [if_neg here, if_neg (fun equal => here equal.symm)]

theorem get_erase (dict : List (κ × α)) (keys : List κ) (key : κ) :
    get (erase dict keys) key = if key ∈ keys then none else get dict key := by
  induction dict with
  | nil => simp [erase]
  | cons entry rest ih =>
    rw [erase, filter_cons]
    by_cases dropped : entry.1 ∈ keys
    · rw [if_neg (by simpa using dropped), ← erase, ih, get_cons]
      by_cases here : entry.1 = key
      · rw [if_pos (here ▸ dropped), if_pos (here ▸ dropped)]
      · rw [if_neg here]
    · rw [if_pos (by simpa using dropped), ← erase, get_cons, ih, get_cons]
      by_cases here : entry.1 = key
      · rw [if_pos here, if_pos here, if_neg (here ▸ dropped)]
      · rw [if_neg here, if_neg here]

theorem erase_distinct (distinct : (dict.map Prod.fst).Nodup) (keys : List κ) : ((erase dict keys).map Prod.fst).Nodup :=
  distinct.sublist (filter_sublist.map Prod.fst)

theorem modify_absent (absent : key ∉ dict.map Prod.fst) (change : Option α → α) :
    modify key change dict = dict ++ [(key, change none)] := by
  induction dict with
  | nil => rfl
  | cons entry rest ih =>
    rw [map_cons, mem_cons, not_or] at absent
    rw [modify, if_neg (fun same => absent.1 same.symm), ih absent.2, cons_append]

theorem get_map (change : α → β) (dict : List (κ × α)) (key : κ) :
    get (dict.map (fun entry => (entry.1, change entry.2))) key = (get dict key).map change := by
  induction dict with
  | nil => rfl
  | cons entry rest ih =>
    rw [map_cons, get_cons, get_cons, ih]
    split <;> rfl

theorem erase_absent {keys : List κ} (absent : ∀ entry ∈ dict, entry.1 ∉ keys) : erase dict keys = dict := by
  apply filter_eq_self.mpr
  intro entry inside
  exact decide_eq_true (absent entry inside)

theorem erase_all {keys : List κ} (present : ∀ entry ∈ dict, entry.1 ∈ keys) : erase dict keys = [] := by
  apply filter_eq_nil_iff.mpr
  intro entry inside
  simp [present entry inside]

theorem erase_append (dict others : List (κ × α)) (keys : List κ) : erase (dict ++ others) keys = erase dict keys ++ erase others keys :=
  filter_append ..

theorem erase_erase (dict : List (κ × α)) (keys others : List κ) : erase (erase dict keys) others = erase dict (keys ++ others) := by
  rw [erase, erase, erase, filter_filter]
  apply filter_congr
  intro entry _
  simp [mem_append, not_or, Bool.and_comm]

theorem mem_keys_erase {keys : List κ} : key ∈ (erase dict keys).map Prod.fst ↔ key ∈ dict.map Prod.fst ∧ key ∉ keys := by
  simp only [erase, mem_map, mem_filter, decide_eq_true_eq]
  constructor
  · rintro ⟨entry, ⟨inside, kept⟩, rfl⟩
    exact ⟨⟨entry, inside, rfl⟩, kept⟩
  · rintro ⟨⟨entry, inside, rfl⟩, kept⟩
    exact ⟨entry, ⟨inside, kept⟩, rfl⟩

theorem get_append_right {dict others : List (κ × α)} (absent : key ∉ dict.map Prod.fst) :
    get (dict ++ others) key = get others key := by
  induction dict with
  | nil => rfl
  | cons entry rest ih =>
    rw [map_cons, mem_cons, not_or] at absent
    rw [cons_append, get_cons, if_neg (fun same => absent.1 same.symm), ih absent.2]

theorem get_of_mem (distinct : (dict.map Prod.fst).Nodup) {entry : κ × α} (inside : entry ∈ dict) :
    get dict entry.1 = some entry.2 :=
  (mem_iff_get distinct).mp inside

theorem mem_modify {change : Option α → α} {entry : κ × α}
    (member : entry ∈ modify key change dict) : entry ∈ dict ∨ entry = (key, change (get dict key)) := by
  induction dict with
  | nil => exact .inr (mem_singleton.mp member)
  | cons first rest ih =>
    rw [modify] at member
    rw [get_cons]
    split at member
    · next same =>
      rw [if_pos same]
      cases member with
      | head => exact .inr rfl
      | tail _ later => exact .inl (mem_cons_of_mem _ later)
    · next other =>
      rw [if_neg other]
      cases member with
      | head => exact .inl mem_cons_self
      | tail _ later => exact (ih later).imp_left (mem_cons_of_mem _)

/-- What holds of the old entries and of the new ones holds of those that are there after an update. -/
theorem merge_forall {holds : κ × α → Prop} {dict items : List (κ × α)} (old : ∀ entry ∈ dict, holds entry)
    (new : ∀ entry ∈ items, holds entry) : ∀ entry ∈ merge (fun _ value => value) dict items, holds entry := by
  induction items generalizing dict with
  | nil => exact old
  | cons item items ih =>
    refine ih ?_ (fun entry inside => new entry (mem_cons_of_mem _ inside))
    intro entry member
    rcases mem_modify member with before | rfl
    · exact old entry before
    · exact new item mem_cons_self

theorem merge_append {dict items : List (κ × α)} (distinct : ((dict ++ items).map Prod.fst).Nodup) :
    merge (fun _ value => value) dict items = dict ++ items := by
  induction items generalizing dict with
  | nil => exact (append_nil dict).symm
  | cons item items ih =>
    have absent : item.1 ∉ dict.map Prod.fst := by
      rw [map_append, map_cons] at distinct
      exact fun inside => (nodup_append.mp distinct).2.2 _ inside _ mem_cons_self rfl
    have first : merge (fun _ value => value) dict (item :: items) =
        merge (fun _ value => value) (modify item.1 (fun _ => item.2) dict) items := rfl
    rw [first, modify_absent absent, ih (by simpa using distinct), append_assoc, singleton_append]

end Dictionary
