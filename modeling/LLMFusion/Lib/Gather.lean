import Mathlib.Data.List.Nodup
import Mathlib.Data.List.Flatten

/-! Selecting rows by a list of indices, and undoing the selection. When the
indices are a permutation of the positions, gathering by them and then by the
inverse list gives back the rows. -/

namespace Gather
open List

universe u v
variable {α : Type u} {β : Type v}

/-- The items at the given positions; none when a position is out of range. -/
def gather (items : List α) (indices : List Nat) : Option (List α) :=
  indices.mapM (fun index => items[index]?)

theorem gather_cons (items : List α) (index : Nat) (indices : List Nat) (inside : index < items.length) :
    gather items (index :: indices) = (gather items indices).map (items[index] :: ·) := by
  simp only [gather, mapM_cons, List.getElem?_eq_getElem inside]
  cases mapM (fun index => items[index]?) indices <;> rfl

variable {items picked : List α} {indices : List Nat}

/-- The selection succeeds exactly on positions in range, and position `i` of the
result is the item that index `i` names. -/
theorem gather_eq_some :
    gather items indices = some picked ↔ indices.map (fun index => items[index]?) = picked.map some := by
  induction indices generalizing picked with
  | nil => cases picked <;> simp [gather]
  | cons index indices ih =>
    by_cases inside : index < items.length
    · rw [gather_cons items index indices inside]
      cases picked with
      | nil => simp
      | cons item picked =>
        simp only [Option.map_eq_some_iff, cons.injEq, map_cons,
          List.getElem?_eq_getElem inside, Option.some.injEq, ← ih]
        constructor
        · rintro ⟨rest, selected, same, rfl⟩
          exact ⟨same, selected⟩
        · rintro ⟨same, selected⟩
          exact ⟨picked, selected, same, rfl⟩
    · have missing : items[index]? = none := List.getElem?_eq_none (by omega)
      cases picked with
      | nil => simp [gather, missing]
      | cons item picked => simp [gather, missing]

theorem gather_isSome {items : List α} (inside : ∀ index ∈ indices, index < items.length) :
    ∃ picked, gather items indices = some picked := by
  induction indices with
  | nil => exact ⟨[], rfl⟩
  | cons index indices ih =>
    obtain ⟨rest, selected⟩ := ih (fun other member => inside other (by simp [member]))
    have bound := inside index (by simp)
    exact ⟨items[index] :: rest, by rw [gather_cons items index indices bound, selected]; rfl⟩

/-- `reverse[j] = i` exactly when `indices[i] = j`. -/
structure Inverse (indices reverse : List Nat) : Prop where
  length : reverse.length = indices.length
  left : ∀ i (_ : i < indices.length), reverse[indices[i]]? = some i
  right : ∀ j (_ : j < reverse.length), indices[reverse[j]]? = some j

theorem gather_length (selected : gather items indices = some picked) : picked.length = indices.length := by
  simpa using (congrArg length (gather_eq_some.mp selected)).symm

theorem gather_getElem?
    (selected : gather items indices = some picked) (position : Nat) (inside : position < indices.length) :
    picked[position]? = items[indices[position]]? := by
  have same := congrArg (fun values => values[position]?) (gather_eq_some.mp selected)
  have bound : position < picked.length := by rw [gather_length selected]; exact inside
  simp only [List.getElem?_map, List.getElem?_eq_getElem inside, List.getElem?_eq_getElem bound,
    Option.map_some, Option.some.injEq] at same
  rw [List.getElem?_eq_getElem bound, same]

theorem gather_getD (default : α) (selected : gather items indices = some picked) :
    picked = indices.map (fun index => items.getD index default) := by
  have same := congrArg (map (fun item => item.getD default)) (gather_eq_some.mp selected)
  simpa [Function.comp_def] using same.symm

theorem gather_map (f : α → β) (items : List α) (indices : List Nat) :
    gather (items.map f) indices = (gather items indices).map (map f) := by
  cases selected : gather items indices with
  | some picked =>
    rw [Option.map_some, gather_eq_some]
    have same := congrArg (map (Option.map f)) (gather_eq_some.mp selected)
    simpa [Function.comp_def] using same
  | none =>
    rw [Option.map_none]
    cases mapped : gather (items.map f) indices with
    | none => rfl
    | some picked =>
      have inside : ∀ index ∈ indices, index < items.length := by
        intro index member
        obtain ⟨position, bound, rfl⟩ := mem_iff_getElem.mp member
        have found := gather_getElem? mapped position bound
        rw [List.getElem?_eq_getElem (by rw [gather_length mapped]; exact bound)] at found
        simpa using (List.getElem?_eq_some_iff.mp found.symm).1
      obtain ⟨picked, present⟩ := gather_isSome inside
      rw [selected] at present
      cases present

theorem gather_flatten {items : List α} {groups : List (List Nat)} {parts : List (List α)}
    (selected : List.Forall₂ (fun group part => gather items group = some part) groups parts) :
    gather items groups.flatten = some parts.flatten := by
  induction selected with
  | nil => rfl
  | cons first _ ih =>
    rw [gather_eq_some, flatten_cons, flatten_cons, map_append, map_append,
      gather_eq_some.mp first, gather_eq_some.mp ih]

theorem gather_inverse {indices reverse : List Nat}
    (inverse : Inverse indices reverse) (whole : indices.length = items.length)
    (selected : gather items indices = some picked) : gather picked reverse = some items := by
  rw [gather_eq_some]
  apply List.ext_getElem
  · simp [inverse.length, whole]
  · intro j first second
    have inside : j < reverse.length := by simpa using first
    have bound : j < items.length := by simpa using second
    obtain ⟨back, named⟩ := List.getElem?_eq_some_iff.mp (inverse.right j inside)
    rw [List.getElem_map, List.getElem_map, gather_getElem? selected reverse[j] back]
    simp only [named, List.getElem?_eq_getElem bound]

/-- Write `value` at every position `index` of the pairs `(index, value)`. -/
def scatter (target : List α) (entries : List (Nat × α)) : Option (List α) :=
  entries.foldlM (fun target entry =>
    if entry.1 < target.length then some (target.set entry.1 entry.2) else none) target

/-- With distinct positions in range each written value stays, and every other
position keeps its own. -/
theorem scatter_spec (target : List α) (entries : List (Nat × α))
    (inside : ∀ entry ∈ entries, entry.1 < target.length) (distinct : (entries.map Prod.fst).Nodup) :
    ∃ result, scatter target entries = some result ∧ result.length = target.length ∧
      (∀ entry ∈ entries, result[entry.1]? = some entry.2) ∧
      ∀ index, index ∉ entries.map Prod.fst → result[index]? = target[index]? := by
  induction entries generalizing target with
  | nil => exact ⟨target, rfl, rfl, by simp, by simp⟩
  | cons entry entries ih =>
    obtain ⟨fresh, distinct⟩ := nodup_cons.mp distinct
    have bound := inside entry (by simp)
    obtain ⟨result, written, length, values, kept⟩ := ih (target.set entry.1 entry.2)
      (fun other member => by simpa using inside other (by simp [member])) distinct
    refine ⟨result, ?_, by simpa using length, ?_, ?_⟩
    · simp only [scatter, foldlM_cons, bound, ite_true, Option.bind_eq_bind, Option.bind_some]
      exact written
    · intro other member
      rcases mem_cons.mp member with rfl | member
      · rw [kept _ fresh]
        simp [bound]
      · exact values other member
    · intro index absent
      simp only [map_cons, mem_cons, not_or] at absent
      rw [kept index absent.2, List.getElem?_set_ne (fun same => absent.1 same.symm)]

end Gather
