import Mathlib.Data.List.Nodup

/-! A bounded dictionary that drops the least recently used entries. The entries are
kept in the order of their last use. -/

universe u v

structure LruCache (κ : Type u) (α : Type v) where
  maxSize : Nat
  entries : List (κ × α)
  positive : 0 < maxSize
  distinct : (entries.map Prod.fst).Nodup
  bounded : entries.length ≤ maxSize

namespace LruCache
open List
variable {κ : Type u} {α : Type v} [DecidableEq κ]

def empty (κ : Type u) (α : Type v) (maxSize : Nat) (positive : 0 < maxSize) : LruCache κ α where
  maxSize := maxSize
  entries := []
  positive := positive
  distinct := List.nodup_nil
  bounded := Nat.zero_le maxSize

def get (cache : LruCache κ α) (key : κ) : Option α := (cache.entries.find? (fun entry => entry.1 = key)).map Prod.snd

private theorem others_distinct (cache : LruCache κ α) (key : κ) :
    ((cache.entries.filter (fun entry => entry.1 ≠ key)).map Prod.fst).Nodup :=
  cache.distinct.sublist (filter_sublist.map Prod.fst)

/-- `del cache[key]` -/
def remove (cache : LruCache κ α) (key : κ) : LruCache κ α where
  maxSize := cache.maxSize
  entries := cache.entries.filter (fun entry => entry.1 ≠ key)
  positive := cache.positive
  distinct := cache.others_distinct key
  bounded := Nat.le_trans (List.length_filter_le _ _) cache.bounded

/-- The entries that make room for a key. -/
def evicted (cache : LruCache κ α) (key : κ) : List κ :=
  if (cache.get key).isSome then [] else (cache.entries.take (cache.entries.length + 1 - cache.maxSize)).map Prod.fst

/-- The entries that stay when a key is set. -/
def kept (cache : LruCache κ α) (key : κ) : List (κ × α) :=
  if (cache.get key).isSome then cache.entries.filter (fun entry => entry.1 ≠ key)
  else cache.entries.drop (cache.entries.length + 1 - cache.maxSize)

theorem get_eq_some_iff {cache : LruCache κ α} {key : κ} {value : α} :
    cache.get key = some value ↔ (key, value) ∈ cache.entries := by
  rw [get, Option.map_eq_some_iff]
  constructor
  · rintro ⟨entry, found, rfl⟩
    have same : entry.1 = key := by simpa using find?_some found
    exact same ▸ mem_of_find?_eq_some found
  · intro member
    refine ⟨(key, value), ?_, rfl⟩
    have isSome : (cache.entries.find? (fun entry => entry.1 = key)).isSome := by
      rw [find?_isSome]
      exact ⟨_, member, by simp⟩
    obtain ⟨entry, found⟩ := Option.isSome_iff_exists.mp isSome
    have same : entry.1 = key := by simpa using find?_some found
    rw [found, ← inj_on_of_nodup_map cache.distinct (mem_of_find?_eq_some found) member same]

theorem get_isSome_iff {cache : LruCache κ α} {key : κ} :
    (cache.get key).isSome = true ↔ ∃ value, (key, value) ∈ cache.entries := by
  rw [Option.isSome_iff_exists]
  exact exists_congr (fun value => get_eq_some_iff)

theorem mem_kept {cache : LruCache κ α} {key : κ} {entry : κ × α} :
    entry ∈ cache.kept key ↔ entry ∈ cache.entries ∧ entry.1 ≠ key ∧ entry.1 ∉ cache.evicted key := by
  by_cases present : (cache.get key).isSome
  · simp [kept, evicted, present]
  · let room := cache.entries.length + 1 - cache.maxSize
    have absent : ∀ other ∈ cache.entries, other.1 ≠ key := by
      rintro ⟨other, value⟩ member rfl
      exact present (get_isSome_iff.mpr ⟨value, member⟩)
    have apart : List.Disjoint ((cache.entries.take room).map Prod.fst) ((cache.entries.drop room).map Prod.fst) := by
      have distinct := cache.distinct
      rw [← take_append_drop room cache.entries, map_append] at distinct
      exact disjoint_of_nodup_append distinct
    simp only [kept, evicted, present]
    change entry ∈ cache.entries.drop room ↔ _ ∧ _ ∧ entry.1 ∉ (cache.entries.take room).map Prod.fst
    constructor
    · intro member
      have whole := mem_of_mem_drop member
      exact ⟨whole, absent entry whole, fun dropped => apart dropped (mem_map_of_mem member)⟩
    · rintro ⟨whole, _, stays⟩
      rw [← take_append_drop room cache.entries] at whole
      rcases mem_append.mp whole with dropped | member
      · exact absurd (mem_map_of_mem dropped) stays
      · exact member

private theorem kept_length (cache : LruCache κ α) (key : κ) : (cache.kept key).length + 1 ≤ cache.maxSize := by
  have positive := cache.positive
  have bounded := cache.bounded
  by_cases present : (cache.get key).isSome
  · obtain ⟨value, member⟩ := get_isSome_iff.mp present
    have fewer : (cache.entries.filter (fun entry => entry.1 ≠ key)).length < cache.entries.length :=
      length_filter_lt_length_iff_exists.mpr ⟨_, member, by simp⟩
    simp only [kept, present, ite_true]
    omega
  · simp only [kept, present]
    rw [if_neg (by simp), length_drop]
    omega

private theorem kept_distinct (cache : LruCache κ α) (key : κ) : ((cache.kept key).map Prod.fst).Nodup := by
  by_cases present : (cache.get key).isSome
  · simpa only [kept, present, ite_true] using cache.others_distinct key
  · simp only [kept, present]
    rw [if_neg (by simp)]
    exact cache.distinct.sublist ((drop_sublist _ _).map Prod.fst)

/-- `cache[key] = value` -/
def set (cache : LruCache κ α) (key : κ) (value : α) : LruCache κ α where
  maxSize := cache.maxSize
  entries := cache.kept key ++ [(key, value)]
  positive := cache.positive
  distinct := by
    rw [List.map_append, List.nodup_append]
    refine ⟨cache.kept_distinct key, List.nodup_singleton _, ?_⟩
    intro other member same isKey
    obtain ⟨entry, isKept, rfl⟩ := List.mem_map.mp member
    rintro rfl
    exact (mem_kept.mp isKept).2.1 (by simpa using isKey)
  bounded := by
    rw [List.length_append]
    exact cache.kept_length key

/-- Reading an entry makes it the most recent one. -/
def touch (cache : LruCache κ α) (key : κ) : LruCache κ α :=
  match cache.get key with
  | some value => cache.set key value
  | none => cache

theorem get_set (cache : LruCache κ α) (key : κ) (value : α) (other : κ) :
    (cache.set key value).get other =
      if other = key then some value else if other ∈ cache.evicted key then none else cache.get other := by
  have entry : ∀ found, (cache.set key value).get other = some found ↔
      (other ≠ key ∧ other ∉ cache.evicted key ∧ cache.get other = some found) ∨ other = key ∧ found = value := by
    intro found
    rw [get_eq_some_iff, get_eq_some_iff, set, mem_append, mem_kept, mem_singleton, Prod.mk.injEq]
    tauto
  apply Option.ext
  intro found
  rw [entry]
  by_cases same : other = key
  · simp [same, eq_comm]
  · by_cases gone : other ∈ cache.evicted key
    · simp [same, gone]
    · simp [same, gone]

theorem get_remove (cache : LruCache κ α) (key other : κ) :
    (cache.remove key).get other = if other = key then none else cache.get other := by
  have entry : ∀ found, (cache.remove key).get other = some found ↔ other ≠ key ∧ cache.get other = some found := by
    intro found
    rw [get_eq_some_iff, get_eq_some_iff, remove, mem_filter, decide_eq_true_eq]
    exact And.comm
  apply Option.ext
  intro found
  rw [entry]
  by_cases same : other = key
  · simp [same]
  · simp [same]

@[simp] theorem get_touch (cache : LruCache κ α) (key other : κ) : (cache.touch key).get other = cache.get other := by
  rw [touch]
  cases isValue : cache.get key with
  | none => rfl
  | some value =>
    rw [get_set]
    have nothing : cache.evicted key = [] := by simp [evicted, isValue]
    by_cases same : other = key
    · simp [same, isValue]
    · simp [same, nothing]

end LruCache
