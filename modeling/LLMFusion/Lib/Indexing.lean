import Mathlib.Data.List.Nodup

/-! Indices that count from either end of a list, and dictionaries that keep their
entries in the order in which the keys were first inserted. -/

namespace Indexing
open List

universe u v
variable {κ : Type v} {α : Type u}

/-- The place that an index names; a negative index counts from the end. -/
def position (length : Nat) (index : Int) : Option Nat :=
  if 0 ≤ index ∧ index < length then some index.toNat
  else if -(length : Int) ≤ index ∧ index < 0 then some (index + length).toNat
  else none

def getItem (items : List α) (index : Int) : Option α :=
  (position items.length index).bind (fun place => items[place]?)

def setItem (items : List α) (index : Int) (value : α) : Option (List α) :=
  (position items.length index).map (fun place => items.set place value)

/-- `items[start:]`, where a negative start counts from the end. -/
def fromIndex (items : List α) (start : Int) : List α :=
  items.drop (if start < 0 then (items.length + start).toNat else start.toNat)

/-- Where a bound of a slice lies; a negative bound counts from the end. -/
def bound (length : Nat) (index : Int) : Nat := if index < 0 then (length + index).toNat else index.toNat

/-- `items[start:stop]` -/
def between (items : List α) (start stop : Int) : List α :=
  (items.take (bound items.length stop)).drop (bound items.length start)

/-- One assignment for each entry, in order. -/
def setItems : List (Int × α) → List α → Option (List α)
  | [], items => some items
  | entry :: entries, items => (setItem items entry.1 entry.2).bind (setItems entries)

/-- `entries[key] = value` -/
def insert [DecidableEq κ] (key : κ) (value : α) : List (κ × α) → List (κ × α)
  | [] => [(key, value)]
  | entry :: entries => if entry.1 = key then (key, value) :: entries else entry :: insert key value entries

/-- A dictionary of the entries, written one after the other. -/
def fromEntries [DecidableEq κ] (entries : List (κ × α)) : List (κ × α) :=
  entries.foldl (fun written entry => insert entry.1 entry.2 written) []

/-- `entries.pop(key, None)` -/
def remove [DecidableEq κ] (key : κ) (entries : List (κ × α)) : List (κ × α) := entries.filter (fun entry => entry.1 ≠ key)

theorem position_of_nat {length index : Nat} (inside : index < length) : position length index = some index := by
  simp [position, inside]

theorem position_isSome {length : Nat} {index : Int} (low : -(length : Int) ≤ index) (high : index < length) :
    (position length index).isSome := by
  by_cases start : 0 ≤ index
  · simp [position, start, high]
  · simp [position, start, low, Int.not_le.mp start]

theorem position_inside {length place : Nat} {index : Int} (named : position length index = some place) :
    place < length ∧ ((place : Int) = index ∨ (place : Int) = index + length) := by
  simp only [position] at named
  split at named
  · cases named
    omega
  · split at named
    · cases named
      omega
    · cases named

theorem between_of_nat (items : List α) (start stop : Nat) : between items start stop = (items.take stop).drop start := by
  simp [between, bound, Int.not_lt.mpr (Int.natCast_nonneg _)]

theorem fromIndex_neg (items : List α) {count : Nat} (some : 0 < count) :
    fromIndex items (-(count : Int)) = items.drop (items.length - count) := by
  rw [fromIndex, if_pos (by omega)]
  congr 1
  omega

section Insert
variable [DecidableEq κ]

variable {value : α}

theorem mem_insert {key : κ} {entries : List (κ × α)} {entry : κ × α}
    (member : entry ∈ insert key value entries) : entry = (key, value) ∨ entry ∈ entries := by
  induction entries with
  | nil => exact Or.inl (mem_singleton.mp member)
  | cons other entries ih =>
    rw [insert] at member
    split at member
    · rcases mem_cons.mp member with same | later
      · exact Or.inl same
      · exact Or.inr (mem_cons_of_mem _ later)
    · rcases mem_cons.mp member with same | later
      · exact Or.inr (same ▸ mem_cons_self)
      · exact (ih later).imp_right (mem_cons_of_mem _)

theorem lookup_insert {key other : String} {entries : List (String × α)} :
    (insert key value entries).lookup other = if other = key then some value else entries.lookup other := by
  have missed : ∀ {first second : String}, first ≠ second → (first == second) = false :=
    fun different => beq_eq_false_iff_ne.mpr different
  induction entries with
  | nil =>
    by_cases same : other = key
    · simp [insert, same]
    · simp [insert, lookup_cons, same, missed same]
  | cons entry entries ih =>
    by_cases here : entry.1 = key
    · rw [insert, if_pos here, lookup_cons, lookup_cons, here]
      by_cases same : other = key
      · simp [same]
      · simp [same, missed same]
    · rw [insert, if_neg here, lookup_cons, lookup_cons, ih]
      by_cases same : other = entry.1
      · simp [same, here]
      · simp [missed same]

theorem insert_lookup {key : String} {entries : List (String × α)} (found : entries.lookup key = some value) :
    insert key value entries = entries := by
  induction entries with
  | nil => cases found
  | cons entry entries ih =>
    rw [lookup_cons] at found
    by_cases here : entry.1 = key
    · simp only [here, beq_self_eq_true, Option.some.injEq] at found
      rw [insert, if_pos here, ← here, ← found]
    · have different : (key == entry.1) = false := beq_eq_false_iff_ne.mpr (Ne.symm here)
      simp only [different] at found
      rw [insert, if_neg here, ih found]

theorem insert_insert (key : κ) (value value' : α) (entries : List (κ × α)) :
    insert key value' (insert key value entries) = insert key value' entries := by
  induction entries with
  | nil => simp [insert]
  | cons entry entries ih =>
    by_cases here : entry.1 = key
    · simp [insert, here]
    · simp [insert, here, ih]

theorem lookup_remove {key other : String} {entries : List (String × α)} :
    (remove key entries).lookup other = if other = key then none else entries.lookup other := by
  induction entries with
  | nil => simp [remove]
  | cons entry entries ih =>
    rw [remove] at ih ⊢
    by_cases here : entry.1 = key
    · rw [filter_cons_of_neg (by simp [here]), ih, lookup_cons]
      by_cases same : other = key
      · simp [same]
      · simp [same, here, beq_eq_false_iff_ne.mpr same]
    · rw [filter_cons_of_pos (by simp [here]), lookup_cons, lookup_cons, ih]
      by_cases same : other = entry.1
      · simp [same, here]
      · simp [beq_eq_false_iff_ne.mpr same]

theorem insert_keys_congr {β : Type u} {key : κ} {value' : β} {entries : List (κ × α)} {entries' : List (κ × β)}
    (same : entries.map Prod.fst = entries'.map Prod.fst) :
    (insert key value entries).map Prod.fst = (insert key value' entries').map Prod.fst := by
  induction entries generalizing entries' with
  | nil =>
    obtain rfl : entries' = [] := by simpa using same.symm
    rfl
  | cons entry entries ih =>
    cases entries' with
    | nil => cases same
    | cons entry' entries' =>
      rw [map_cons, map_cons, cons.injEq] at same
      by_cases here : entry.1 = key
      · rw [insert, insert, if_pos here, if_pos (same.1 ▸ here), map_cons, map_cons, same.2]
      · rw [insert, insert, if_neg here, if_neg (same.1 ▸ here), map_cons, map_cons, same.1, ih same.2]

theorem remove_keys (key : κ) (entries : List (κ × α)) :
    (remove key entries).map Prod.fst = (entries.map Prod.fst).filter (fun other => other ≠ key) := by
  rw [remove, filter_map]
  rfl

theorem mem_insert_keys {key other : κ} {entries : List (κ × α)} :
    other ∈ (insert key value entries).map Prod.fst ↔ other = key ∨ other ∈ entries.map Prod.fst := by
  induction entries with
  | nil => simp [insert]
  | cons entry entries ih =>
    rw [insert]
    split
    next same => simp [same]
    · simp only [map_cons, mem_cons, ih]
      exact or_left_comm

theorem insert_new {key : κ} {entries : List (κ × α)} (absent : key ∉ entries.map Prod.fst) :
    insert key value entries = entries ++ [(key, value)] := by
  induction entries with
  | nil => rfl
  | cons entry entries ih =>
    rw [map_cons, mem_cons, not_or] at absent
    rw [insert, if_neg (Ne.symm absent.1), ih absent.2, cons_append]

theorem foldl_insert {entries written : List (κ × α)} (distinct : ((written ++ entries).map Prod.fst).Nodup) :
    entries.foldl (fun written entry => insert entry.1 entry.2 written) written = written ++ entries := by
  induction entries generalizing written with
  | nil => exact (append_nil written).symm
  | cons entry entries ih =>
    have new : entry.1 ∉ written.map Prod.fst := by
      intro member
      rw [map_append, nodup_append] at distinct
      exact distinct.2.2 _ member _ mem_cons_self rfl
    have moved : written ++ entry :: entries = written ++ [entry] ++ entries := by simp
    rw [moved] at distinct
    rw [foldl_cons, insert_new new, moved]
    exact ih distinct

theorem fromEntries_distinct {entries : List (κ × α)} (distinct : (entries.map Prod.fst).Nodup) : fromEntries entries = entries :=
  foldl_insert distinct

theorem mem_fromEntries {entries : List (κ × α)} {entry : κ × α} (member : entry ∈ fromEntries entries) : entry ∈ entries := by
  have written : ∀ written : List (κ × α), entry ∈ entries.foldl (fun written entry => insert entry.1 entry.2 written) written →
      entry ∈ written ∨ entry ∈ entries := by
    clear member
    induction entries with
    | nil => exact fun written member => Or.inl member
    | cons other entries ih =>
      intro written member
      cases ih _ member with
      | inr later => exact Or.inr (mem_cons_of_mem _ later)
      | inl before =>
        cases mem_insert before with
        | inl same => exact Or.inr (mem_cons.mpr (Or.inl same))
        | inr before => exact Or.inl before
  cases written [] member with
  | inl none => cases none
  | inr member => exact member

theorem insert_distinct {key : κ} {entries : List (κ × α)} (distinct : (entries.map Prod.fst).Nodup) :
    ((insert key value entries).map Prod.fst).Nodup := by
  induction entries with
  | nil => simp [insert]
  | cons entry entries ih =>
    rw [map_cons, nodup_cons] at distinct
    by_cases here : entry.1 = key
    · rw [insert, if_pos here, map_cons, nodup_cons, ← here]
      exact distinct
    · rw [insert, if_neg here, map_cons, nodup_cons]
      refine ⟨?_, ih distinct.2⟩
      intro member
      rcases mem_insert_keys.mp member with same | before
      · exact here same
      · exact distinct.1 before

theorem lookup_isSome_iff {key : String} {entries : List (String × α)} :
    (entries.lookup key).isSome = true ↔ key ∈ entries.map Prod.fst := by
  induction entries with
  | nil => simp
  | cons entry entries ih =>
    rw [lookup_cons, map_cons, mem_cons]
    by_cases here : key = entry.1
    · simp [here]
    · simp [beq_eq_false_iff_ne.mpr here, ih, here]

theorem mem_of_lookup {key : String} {entries : List (String × α)}
    (found : entries.lookup key = some value) : (key, value) ∈ entries := by
  induction entries with
  | nil => cases found
  | cons entry entries ih =>
    rw [lookup_cons] at found
    by_cases here : key = entry.1
    · simp only [here, beq_self_eq_true, Option.some.injEq] at found
      exact mem_cons.mpr (Or.inl (Prod.ext here found.symm))
    · simp only [beq_eq_false_iff_ne.mpr here] at found
      exact mem_cons_of_mem _ (ih found)

theorem lookup_of_mem {entries : List (String × α)} (distinct : (entries.map Prod.fst).Nodup) {key : String}
    (member : (key, value) ∈ entries) : entries.lookup key = some value := by
  have present : (entries.lookup key).isSome = true := lookup_isSome_iff.mpr (mem_map.mpr ⟨_, member, rfl⟩)
  obtain ⟨other, found⟩ := Option.isSome_iff_exists.mp present
  have same := inj_on_of_nodup_map distinct (mem_of_lookup found) member rfl
  rw [found, (Prod.mk.inj same).2]

end Insert

section Writes
variable {entries : List (Int × α)} {items result : List α}

theorem setItems_isSome (inside : ∀ entry ∈ entries, (position items.length entry.1).isSome) :
    ∃ result, setItems entries items = some result := by
  induction entries generalizing items with
  | nil => exact ⟨items, rfl⟩
  | cons entry entries ih =>
    obtain ⟨place, named⟩ := Option.isSome_iff_exists.mp (inside entry mem_cons_self)
    have later : ∀ other ∈ entries, (position (items.set place entry.2).length other.1).isSome :=
      fun other member => by simpa using inside other (mem_cons_of_mem _ member)
    obtain ⟨result, written⟩ := ih later
    exact ⟨result, by simp [setItems, setItem, named, written]⟩

theorem setItems_length (written : setItems entries items = some result) : result.length = items.length := by
  induction entries generalizing items with
  | nil =>
    cases written
    rfl
  | cons entry entries ih =>
    simp only [setItems, setItem, Option.bind_eq_some_iff, Option.map_eq_some_iff] at written
    obtain ⟨middle, ⟨here, _, rfl⟩, rest⟩ := written
    rw [ih rest, length_set]

theorem setItems_other (written : setItems entries items = some result) {place : Nat}
    (different : ∀ entry ∈ entries, position items.length entry.1 ≠ some place) : result[place]? = items[place]? := by
  induction entries generalizing items with
  | nil =>
    cases written
    rfl
  | cons entry entries ih =>
    simp only [setItems, setItem, Option.bind_eq_some_iff, Option.map_eq_some_iff] at written
    obtain ⟨middle, ⟨here, named, rfl⟩, rest⟩ := written
    rw [ih rest (fun other member => by simpa using different other (mem_cons_of_mem _ member))]
    have apart : here ≠ place := by
      rintro rfl
      exact different entry mem_cons_self named
    exact getElem?_set_ne apart

theorem setItems_value (written : setItems entries items = some result) {place : Nat} {value : α}
    (inside : place < items.length)
    (agree : ∀ entry ∈ entries, position items.length entry.1 = some place → entry.2 = value)
    (named : items[place]? = some value ∨ ∃ entry ∈ entries, position items.length entry.1 = some place) :
    result[place]? = some value := by
  induction entries generalizing items with
  | nil =>
    cases written
    simpa using named
  | cons entry entries ih =>
    simp only [setItems, setItem, Option.bind_eq_some_iff, Option.map_eq_some_iff] at written
    obtain ⟨middle, ⟨here, found, rfl⟩, rest⟩ := written
    apply ih rest (by simpa using inside)
      (fun other member => by simpa using agree other (mem_cons_of_mem _ member))
    by_cases same : here = place
    · subst same
      rw [getElem?_set_self inside, agree entry mem_cons_self found]
      exact Or.inl rfl
    · rw [getElem?_set_ne same, length_set]
      refine named.imp_right ?_
      rintro ⟨other, member, names⟩
      rcases mem_cons.mp member with rfl | later
      · rw [found, Option.some.injEq] at names
        exact absurd names same
      · exact ⟨other, later, names⟩

end Writes

end Indexing
