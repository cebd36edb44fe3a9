import Mathlib.Algebra.BigOperators.Ring.List
import Mathlib.Data.Option.NAry

/-! Sums of numbers of which some may be missing, and sums over the parts of a division. -/

namespace PartialSums
open List

section Total
variable {K ι : Type} [AddCommMonoid K]

/-- The sum, where there is one. -/
def total (values : List (Option K)) : Option K := values.foldr (Option.map₂ (· + ·)) (some 0)

@[simp] theorem total_nil : total ([] : List (Option K)) = some 0 := rfl

@[simp] theorem total_cons (value : Option K) (values : List (Option K)) :
    total (value :: values) = Option.map₂ (· + ·) value (total values) := rfl

theorem total_some (values : List K) : total (values.map some) = some values.sum := by
  induction values with
  | nil => rfl
  | cons value values ih =>
    rw [map_cons, total_cons, ih, sum_cons]
    rfl

theorem total_of_some {values : List ι} {value : ι → Option K} {number : ι → K}
    (each : ∀ item ∈ values, value item = some (number item)) :
    total (values.map value) = some (values.map number).sum := by
  rw [map_congr_left each, ← total_some, map_map]
  rfl

theorem total_missing {values : List (Option K)} (missing : none ∈ values) : total values = none := by
  induction values with
  | nil => cases missing
  | cons value values ih =>
    cases missing with
    | head => rfl
    | tail _ later =>
      rw [total_cons, ih later]
      exact Option.map₂_none_right _ _

theorem total_append (first second : List (Option K)) :
    total (first ++ second) = Option.map₂ (· + ·) (total first) (total second) := by
  induction first with
  | nil =>
    rw [nil_append, total_nil]
    cases total second with
    | none => rfl
    | some sum => exact congrArg some (zero_add sum).symm
  | cons value first ih =>
    rw [cons_append, total_cons, total_cons, ih]
    exact (Option.map₂_assoc add_assoc).symm

theorem total_flatten (parts : List (List (Option K))) : total parts.flatten = total (parts.map total) := by
  induction parts with
  | nil => rfl
  | cons part parts ih => rw [flatten_cons, total_append, ih, map_cons, total_cons]

theorem total_combined {combine : K → K → K} (zeros : combine 0 0 = 0)
    (sums : ∀ a b c d, combine (a + b) (c + d) = combine a c + combine b d) (items : List ι) (left right : ι → Option K) :
    total (items.map (fun item => Option.map₂ combine (left item) (right item))) =
      Option.map₂ combine (total (items.map left)) (total (items.map right)) := by
  induction items with
  | nil => exact congrArg some zeros.symm
  | cons item items ih =>
    rw [map_cons, map_cons, map_cons, total_cons, total_cons, total_cons, ih]
    cases left item with
    | none => rfl
    | some a =>
      cases right item with
      | none => cases total (items.map left) <;> rfl
      | some c =>
        cases total (items.map left) with
        | none => rfl
        | some b =>
          cases total (items.map right) with
          | none => rfl
          | some d => exact congrArg some (sums a b c d).symm

end Total

section Parts
variable {K ι : Type} [Semiring K]

theorem sum_uniform (term : ι → K) {scale : List ι → K} {whole : K} {parts : List (List ι)}
    (same : ∀ part ∈ parts, scale part = whole) :
    (parts.map (fun part => (part.map term).sum * scale part)).sum = (parts.flatten.map term).sum * whole := by
  induction parts with
  | nil => simp
  | cons part parts ih =>
    rw [map_cons, sum_cons, ih (fun later member => same later (mem_cons_of_mem _ member)),
      same part mem_cons_self, flatten_cons, map_append, sum_append, add_mul]

variable [DecidableEq ι]

theorem sum_elsewhere {item : ι} {part : List ι} (absent : item ∉ part) (value : K) :
    (part.map (fun other => if other = item then value else 0)).sum = 0 := by
  apply sum_eq_zero
  intro number member
  obtain ⟨other, found, rfl⟩ := mem_map.mp member
  apply if_neg
  rintro rfl
  exact absent found

theorem sum_here {item : ι} {part : List ι} (distinct : part.Nodup) (present : item ∈ part) (value : K) :
    (part.map (fun other => if other = item then value else 0)).sum = value := by
  obtain ⟨before, after, rfl⟩ := append_of_mem present
  have apart := nodup_append.mp distinct
  have unseen : item ∉ before := fun member => apart.2.2 item member item mem_cons_self rfl
  have unrepeated : item ∉ after := (nodup_cons.mp apart.2.1).1
  rw [map_append, sum_append, map_cons, sum_cons, sum_elsewhere unseen, sum_elsewhere unrepeated, if_pos rfl,
    zero_add, add_zero]

theorem sum_single {item : ι} {part : List ι} {parts : List (List ι)} (distinct : parts.flatten.Nodup) (member : part ∈ parts)
    (present : item ∈ part) (value : K) (scale : List ι → K) :
    (parts.map (fun part => (part.map (fun other => if other = item then value else 0)).sum * scale part)).sum =
      value * scale part := by
  obtain ⟨before, after, rfl⟩ := append_of_mem member
  rw [flatten_append, flatten_cons] at distinct
  have apart := nodup_append.mp distinct
  have later := nodup_append.mp apart.2.1
  have others : ∀ parts : List (List ι), (∀ other ∈ parts, item ∉ other) →
      (parts.map (fun part => (part.map (fun other => if other = item then value else 0)).sum * scale part)).sum = 0 := by
    intro parts absent
    apply sum_eq_zero
    intro number found
    obtain ⟨other, inside, rfl⟩ := mem_map.mp found
    rw [sum_elsewhere (absent other inside), zero_mul]
  have first : ∀ other ∈ before, item ∉ other := fun other inside found =>
    apart.2.2 item (mem_flatten_of_mem inside found) item (mem_append_left _ present) rfl
  have last : ∀ other ∈ after, item ∉ other := fun other inside found =>
    later.2.2 item present item (mem_flatten_of_mem inside found) rfl
  rw [map_append, sum_append, map_cons, sum_cons, others before first, others after last,
    sum_here later.1 present, zero_add, add_zero]

end Parts

end PartialSums
