import Mathlib.Data.List.Perm.Basic
import Mathlib.Data.List.Nodup
import Mathlib.Data.List.Induction

/-! Items grouped by their label: a dictionary that is filled in one pass, and what it holds
of a label. -/

namespace Grouping
open List

universe u v w
variable {ι : Type u} {κ : Type v} {α : Type w} [DecidableEq ι]

/-- The items with a label, in order. -/
def members (entries : List (ι × α)) (label : ι) : List α :=
  (entries.filter (fun entry => entry.1 = label)).map Prod.snd

/-- `groups[label].append(item)` -/
def add (groups : List (ι × List α)) (entry : ι × α) : List (ι × List α) :=
  match groups with
  | [] => [(entry.1, [entry.2])]
  | group :: groups =>
    if group.1 = entry.1 then (group.1, group.2 ++ [entry.2]) :: groups else group :: add groups entry

def collect (entries : List (ι × α)) : List (ι × List α) := entries.foldl add []

@[simp] theorem members_nil (label : ι) : members ([] : List (ι × α)) label = [] := rfl

theorem members_cons (entry : ι × α) (entries : List (ι × α)) (label : ι) :
    members (entry :: entries) label = if entry.1 = label then entry.2 :: members entries label else members entries label := by
  by_cases same : entry.1 = label
  · simp [members, same]
  · simp [members, same]

theorem members_append (before after : List (ι × α)) (label : ι) :
    members (before ++ after) label = members before label ++ members after label := by
  simp [members]

theorem mem_members {entries : List (ι × α)} {label : ι} {item : α} :
    item ∈ members entries label ↔ (label, item) ∈ entries := by
  simp only [members, mem_map, mem_filter, decide_eq_true_eq]
  constructor
  · rintro ⟨entry, ⟨member, rfl⟩, rfl⟩
    exact member
  · exact fun member => ⟨(label, item), ⟨member, rfl⟩, rfl⟩

theorem members_ne_nil {entries : List (ι × α)} {label : ι} :
    members entries label ≠ [] ↔ label ∈ entries.map Prod.fst := by
  constructor
  · intro some
    obtain ⟨item, member⟩ := exists_mem_of_ne_nil _ some
    exact mem_map_of_mem (mem_members.mp member)
  · intro found none
    obtain ⟨entry, member, rfl⟩ := mem_map.mp found
    have inside := mem_members.mpr (show (entry.1, entry.2) ∈ entries from member)
    rw [none] at inside
    cases inside

theorem members_rename [DecidableEq κ] {rename : ι → κ} {entries : List (ι × α)} {label : ι}
    (apart : ∀ entry ∈ entries, rename entry.1 = rename label → entry.1 = label) :
    members (entries.map (fun entry => (rename entry.1, entry.2))) (rename label) = members entries label := by
  induction entries with
  | nil => rfl
  | cons entry entries ih =>
    rw [map_cons, members_cons, members_cons, ih (fun other member => apart other (mem_cons_of_mem _ member))]
    by_cases same : entry.1 = label
    · rw [if_pos same, if_pos (congrArg rename same)]
    · rw [if_neg same, if_neg (fun renamed => same (apart entry mem_cons_self renamed))]

theorem members_map {β : Type*} (f : ι → α → β) (entries : List (ι × α)) (label : ι) :
    members (entries.map (fun entry => (entry.1, f entry.1 entry.2))) label = (members entries label).map (f label) := by
  induction entries with
  | nil => rfl
  | cons entry entries ih =>
    rw [map_cons, members_cons, members_cons, ih]
    by_cases same : entry.1 = label
    · rw [if_pos same, if_pos same, map_cons, same]
    · rw [if_neg same, if_neg same]

theorem members_zip_map {β : Type*} (f : α → β) (labels : List ι) (items : List α) (label : ι) :
    members (labels.zip (items.map f)) label = (members (labels.zip items) label).map f := by
  rw [← members_map (fun _ => f), zip_map_right]
  rfl

/-! ### The dictionary -/

theorem add_keys (groups : List (ι × List α)) (entry : ι × α) :
    (add groups entry).map Prod.fst =
      if entry.1 ∈ groups.map Prod.fst then groups.map Prod.fst else groups.map Prod.fst ++ [entry.1] := by
  induction groups with
  | nil => simp [add]
  | cons group groups ih =>
    rw [add]
    by_cases same : group.1 = entry.1
    · simp [same]
    · rw [if_neg same, map_cons, ih, map_cons]
      have different : ¬ entry.1 = group.1 := fun equal => same equal.symm
      by_cases inside : entry.1 ∈ groups.map Prod.fst
      · rw [if_pos inside, if_pos (mem_cons_of_mem _ inside)]
      · rw [if_neg inside, if_neg (by simpa [different] using inside), cons_append]

theorem add_lookup (groups : List (ι × List α)) (entry : ι × α) (label : ι) :
    (add groups entry).lookup label =
      if label = entry.1 then some ((groups.lookup label).getD [] ++ [entry.2]) else groups.lookup label := by
  induction groups with
  | nil =>
    by_cases same : label = entry.1
    · simp [add, same]
    · have different : (label == entry.1) = false := by simpa using same
      simp [add, same, lookup_cons, different]
  | cons group groups ih =>
    rw [add]
    by_cases here : group.1 = entry.1
    · rw [if_pos here, lookup_cons, lookup_cons, here]
      by_cases same : label = entry.1
      · simp [same]
      · have different : (label == entry.1) = false := by simpa using same
        rw [different, if_neg same]
    · rw [if_neg here, lookup_cons, lookup_cons, ih]
      by_cases first : label = group.1
      · subst first
        simp [here]
      · have different : (label == group.1) = false := by simpa using first
        rw [different]

theorem add_map {β : Type*} (f : α → β) (groups : List (ι × List α)) (entry : ι × α) :
    add (groups.map (fun group => (group.1, group.2.map f))) (entry.1, f entry.2) =
      (add groups entry).map (fun group => (group.1, group.2.map f)) := by
  induction groups with
  | nil => rfl
  | cons group groups ih =>
    rw [map_cons, add, add]
    by_cases same : group.1 = entry.1
    · rw [if_pos same, if_pos same, map_cons, map_append]
      rfl
    · rw [if_neg same, if_neg same, map_cons, ih]

theorem collect_append (before : List (ι × α)) (entry : ι × α) :
    collect (before ++ [entry]) = add (collect before) entry := by
  rw [collect, foldl_append]
  rfl

theorem collect_map {β : Type*} (f : α → β) (entries : List (ι × α)) :
    collect (entries.map (fun entry => (entry.1, f entry.2))) = (collect entries).map (fun group => (group.1, group.2.map f)) := by
  induction entries using reverseRecOn with
  | nil => rfl
  | append_singleton before entry ih =>
    rw [map_append, map_singleton, collect_append, ih, collect_append]
    exact add_map f (collect before) entry

theorem collect_keys_nodup (entries : List (ι × α)) : ((collect entries).map Prod.fst).Nodup := by
  induction entries using reverseRecOn with
  | nil => exact nodup_nil
  | append_singleton before entry ih =>
    rw [collect_append, add_keys]
    split
    · exact ih
    · rename_i absent
      apply nodup_append.mpr
      refine ⟨ih, nodup_singleton _, ?_⟩
      rintro label found _ here rfl
      exact absent (mem_singleton.mp here ▸ found)

theorem collect_lookup (entries : List (ι × α)) (label : ι) :
    (collect entries).lookup label = if members entries label = [] then none else some (members entries label) := by
  induction entries using reverseRecOn with
  | nil => rfl
  | append_singleton before entry ih =>
    rw [collect_append, add_lookup, ih, members_append, members_cons]
    by_cases same : label = entry.1
    · subst same
      by_cases none : members before entry.1 = [] <;> simp [none]
    · have different : ¬ entry.1 = label := fun equal => same equal.symm
      simp only [same, different, ite_false, members_nil, append_nil]

theorem collect_lookup_of_mem {entries : List (ι × α)} {label : ι} (found : label ∈ entries.map Prod.fst) :
    (collect entries).lookup label = some (members entries label) := by
  rw [collect_lookup, if_neg (members_ne_nil.mpr found)]

theorem add_nonempty {groups : List (ι × List α)} {entry : ι × α} (filled : ∀ group ∈ groups, group.2 ≠ []) :
    ∀ group ∈ add groups entry, group.2 ≠ [] := by
  induction groups with
  | nil => simp [add]
  | cons first groups ih =>
    have rest := ih (fun group member => filled group (mem_cons_of_mem _ member))
    have head := filled first mem_cons_self
    rw [add]
    split
    · intro group member
      rcases mem_cons.mp member with rfl | later
      · simp
      · exact filled group (mem_cons_of_mem _ later)
    · intro group member
      rcases mem_cons.mp member with rfl | later
      · exact head
      · exact rest group later

theorem collect_nonempty (entries : List (ι × α)) : ∀ group ∈ collect entries, group.2 ≠ [] := by
  induction entries using reverseRecOn with
  | nil => simp [collect]
  | append_singleton before entry ih =>
    rw [collect_append]
    exact add_nonempty ih

theorem lookup_values {β γ : Type*} (f : β → γ) (entries : List (ι × β)) (label : ι) :
    (entries.map (fun entry => (entry.1, f entry.2))).lookup label = (entries.lookup label).map f := by
  induction entries with
  | nil => rfl
  | cons entry entries ih =>
    rw [map_cons, lookup_cons, lookup_cons]
    cases label == entry.1 with
    | true => rfl
    | false => exact ih

theorem lookup_of_mem {β : Type*} {groups : List (ι × β)} (distinct : (groups.map Prod.fst).Nodup) {group : ι × β}
    (member : group ∈ groups) : groups.lookup group.1 = some group.2 := by
  induction groups with
  | nil => cases member
  | cons first groups ih =>
    rw [map_cons, nodup_cons] at distinct
    rcases mem_cons.mp member with rfl | later
    · rw [lookup_cons_self]
    · have different : (group.1 == first.1) = false :=
        beq_eq_false_iff_ne.mpr (fun same => distinct.1 (same ▸ mem_map_of_mem later))
      rw [lookup_cons, different]
      exact ih distinct.2 later

theorem collect_members {entries : List (ι × α)} {group : ι × List α} (member : group ∈ collect entries) :
    group.2 = members entries group.1 := by
  have found := lookup_of_mem (collect_keys_nodup entries) member
  rw [collect_lookup] at found
  split at found
  · cases found
  · exact (Option.some.inj found).symm

theorem exists_group {entries : List (ι × α)} {label : ι} (found : label ∈ entries.map Prod.fst) :
    ∃ group ∈ collect entries, group.1 = label := by
  obtain ⟨before, after, split, _⟩ := lookup_eq_some_iff.mp (collect_lookup_of_mem found)
  exact ⟨(label, members entries label), by rw [split]; simp, rfl⟩

theorem members_label {β : Type*} (label : β → ι) (item : β → α) (items : List β) (wanted : ι) :
    members (items.map (fun entry => (label entry, item entry))) wanted =
      (items.filter (fun entry => label entry = wanted)).map item := by
  rw [members, filter_map, map_map]
  rfl

theorem foldl_others {σ β : Type*} {step : σ → List α → σ} {part : σ → β} {entries : List (ι × α)} {label : ι}
    (others : ∀ state other, other ≠ label → part (step state (members entries other)) = part state)
    {groups : List (ι × List α)} (grouped : ∀ group ∈ groups, group.2 = members entries group.1)
    (absent : label ∉ groups.map Prod.fst) (state : σ) :
    part (groups.foldl (fun state group => step state group.2) state) = part state := by
  induction groups generalizing state with
  | nil => rfl
  | cons group groups ih =>
    rw [map_cons, mem_cons, not_or] at absent
    rw [foldl_cons, ih (fun other member => grouped other (mem_cons_of_mem _ member)) absent.2,
      grouped group mem_cons_self, others _ _ (Ne.symm absent.1)]

/-- A pass over the groups does to a part of the state what the group of its label does, when the
other groups leave that part as it is. -/
theorem foldl_collect {σ β : Type*} {step : σ → List α → σ} {part : σ → β} {effect : β → β} {entries : List (ι × α)}
    {label : ι} (own : ∀ state, part (step state (members entries label)) = effect (part state))
    (others : ∀ state other, other ≠ label → part (step state (members entries other)) = part state)
    (found : label ∈ entries.map Prod.fst) (state : σ) :
    part ((collect entries).foldl (fun state group => step state group.2) state) = effect (part state) := by
  have named := exists_group found
  have grouped : ∀ group ∈ collect entries, group.2 = members entries group.1 := fun group => collect_members
  have distinct := collect_keys_nodup entries
  generalize collect entries = groups at named grouped distinct
  induction groups generalizing state with
  | nil =>
    obtain ⟨group, member, _⟩ := named
    cases member
  | cons group groups ih =>
    rw [map_cons, nodup_cons] at distinct
    have rest : ∀ other ∈ groups, other.2 = members entries other.1 :=
      fun other member => grouped other (mem_cons_of_mem _ member)
    rw [foldl_cons]
    by_cases here : group.1 = label
    · rw [foldl_others others rest (here ▸ distinct.1), grouped group mem_cons_self, here, own]
    · have later : ∃ group ∈ groups, group.1 = label := by
        obtain ⟨other, member, same⟩ := named
        rcases mem_cons.mp member with rfl | member
        · exact absurd same here
        · exact ⟨other, member, same⟩
      rw [ih _ later rest distinct.2, grouped group mem_cons_self, others _ _ here]

theorem add_perm (groups : List (ι × List α)) (entry : ι × α) :
    ((add groups entry).flatMap Prod.snd).Perm (groups.flatMap Prod.snd ++ [entry.2]) := by
  induction groups with
  | nil => exact .refl _
  | cons group groups ih =>
    rw [add]
    split
    · rw [flatMap_cons, flatMap_cons, append_assoc, append_assoc]
      exact perm_append_comm.append_left _
    · rw [flatMap_cons, flatMap_cons, append_assoc]
      exact ih.append_left _

theorem collect_perm (entries : List (ι × α)) : ((collect entries).flatMap Prod.snd).Perm (entries.map Prod.snd) := by
  induction entries using reverseRecOn with
  | nil => exact .refl _
  | append_singleton before entry ih =>
    rw [collect_append, map_append]
    exact (add_perm _ entry).trans (ih.append_right _)

end Grouping
