import Mathlib.Data.List.Range
import Mathlib.Data.List.Perm.Basic
import Mathlib.Data.List.Nodup

/-! Items dealt in turn to a number of places, and what each place gets. -/

namespace Dealing

universe u v
variable {α : Type u} {β : Type v}

/-- What a place gets, where the first item goes to the place of `turn`. -/
def dealt (count place : Nat) : Nat → List α → List α
  | _, [] => []
  | turn, item :: items =>
    if turn % count = place then item :: dealt count place (turn + 1) items else dealt count place (turn + 1) items

variable {count place turn : Nat}

theorem dealt_sublist (count place turn : Nat) (items : List α) : (dealt count place turn items).Sublist items := by
  induction items generalizing turn with
  | nil => exact .slnil
  | cons item items ih =>
    rw [dealt]
    split
    · exact (ih _).cons_cons item
    · exact (ih _).cons item

private theorem one_place {turn : Nat} (item : α) (inside : turn < count) :
    (List.range count).flatMap (fun place => if turn = place then [item] else []) = [item] := by
  induction count with
  | zero => exact absurd inside (Nat.not_lt_zero _)
  | succ count ih =>
    rw [List.range_succ, List.flatMap_append, List.flatMap_singleton]
    by_cases last : turn = count
    · have before : (List.range count).flatMap (fun place => if turn = place then [item] else []) = [] := by
        apply List.flatMap_eq_nil_iff.mpr
        intro place member
        exact if_neg (fun same => absurd (List.mem_range.mp member) (by omega))
      rw [before, if_pos last, List.nil_append]
    · rw [ih (by omega), if_neg last, List.append_nil]

theorem dealt_perm (positive : 0 < count) (turn : Nat) (items : List α) :
    ((List.range count).flatMap (fun place => dealt count place turn items)).Perm items := by
  induction items generalizing turn with
  | nil => simp [dealt]
  | cons item items ih =>
    have parts : (fun place => dealt count place turn (item :: items)) =
        fun place => (if turn % count = place then [item] else []) ++ dealt count place (turn + 1) items := by
      funext place
      rw [dealt]
      split <;> rfl
    rw [parts]
    refine (List.flatMap_append_perm _ _ _).symm.trans ?_
    rw [one_place item (Nat.mod_lt turn positive)]
    exact (ih (turn + 1)).cons item

theorem exists_unique_part {parts : Nat → List (List α)} {items : List α} (distinct : items.Nodup)
    (all : ((List.range count).flatMap (fun place => (parts place).flatten)).Perm items) {item : α} (member : item ∈ items) :
    ∃! located : Nat × Nat, located.1 < count ∧ ∃ part, (parts located.1)[located.2]? = some part ∧ item ∈ part := by
  obtain ⟨place, inside, here⟩ := List.mem_flatMap.mp (all.mem_iff.mpr member)
  obtain ⟨part, isPart, inPart⟩ := List.mem_flatten.mp here
  obtain ⟨index, found⟩ := List.getElem?_of_mem isPart
  obtain ⟨each, apart⟩ := List.nodup_flatMap.mp (all.nodup_iff.mpr distinct)
  refine ⟨(place, index), ⟨List.mem_range.mp inside, part, found, inPart⟩, ?_⟩
  rintro ⟨place', index'⟩ ⟨inside', part', found', inPart'⟩
  have same : place' = place := by
    by_contra different
    have symmetric : Std.Symm (Function.onFun List.Disjoint fun place => (parts place).flatten) :=
      ⟨fun _ _ separate _ first second => separate second first⟩
    have disjoint := apart.forall (List.mem_range.mpr inside') inside different
    exact disjoint (List.mem_flatten.mpr ⟨part', List.mem_of_getElem? found', inPart'⟩) here
  subst same
  obtain ⟨_, apartParts⟩ := List.nodup_flatten.mp (each place' inside)
  have sameIndex : index' = index := by
    obtain ⟨bound, rfl⟩ := List.getElem?_eq_some_iff.mp found
    obtain ⟨bound', rfl⟩ := List.getElem?_eq_some_iff.mp found'
    rw [List.pairwise_iff_getElem] at apartParts
    rcases Nat.lt_trichotomy index' index with before | same | after
    · exact absurd inPart (apartParts index' index bound' bound before inPart')
    · exact same
    · exact absurd inPart' (apartParts index index' bound bound' after inPart)
  rw [sameIndex]

end Dealing
