import Mathlib.Data.List.Chain

/-! Packing items into bins in their order: an item is put behind the one before it while
it fits, and else a new bin is begun. -/

namespace NextFit
open List

universe u
variable {α : Type u}

def total (size : α → Nat) : List α → Nat
  | [] => 0
  | item :: items => size item + total size items

/-- Each item with its offset in its bin, from an offset in the first one. -/
def offsets (size : α → Nat) (capacity : Nat) : Nat → List α → List (Nat × α)
  | _, [] => []
  | offset, item :: items =>
    let here := if capacity < offset + size item then 0 else offset
    (here, item) :: offsets size capacity (here + size item) items

/-- A division into bins: what shares a bin fits into it, and the next bin begins with
what does not fit any more. -/
structure Division (size : α → Nat) (capacity : Nat) (items : List α) (bins : List (List α)) : Prop where
  all : bins.flatten = items
  some : ∀ bin ∈ bins, bin ≠ []
  fits : ∀ bin ∈ bins, 1 < bin.length → total size bin ≤ capacity
  full : bins.IsChain (fun bin next => ∀ item ∈ next.head?, capacity < total size bin + size item)

variable {size : α → Nat} {capacity : Nat}

theorem total_append (items items' : List α) : total size (items ++ items') = total size items + total size items' := by
  induction items with
  | nil => simp [total]
  | cons item items ih => simp [total, ih, Nat.add_assoc]

/-- The items of one bin one behind the other. -/
def behind (size : α → Nat) : Nat → List α → List (Nat × α)
  | _, [] => []
  | offset, item :: items => (offset, item) :: behind size (offset + size item) items

theorem mem_behind {offset place : Nat} {item : α} {items : List α} : (place, item) ∈ behind size offset items ↔
      ∃ before after, items = before ++ item :: after ∧ place = offset + total size before := by
  induction items generalizing offset with
  | nil => simp [behind]
  | cons first items ih =>
    rw [behind, mem_cons, ih]
    constructor
    · rintro (same | ⟨before, after, rfl, rfl⟩)
      · cases same
        exact ⟨[], items, rfl, rfl⟩
      · exact ⟨first :: before, after, rfl, by rw [total, Nat.add_assoc]⟩
    · rintro ⟨before, after, whole, rfl⟩
      cases before with
      | nil =>
        cases whole
        exact Or.inl rfl
      | cons _ before =>
        cases whole
        exact Or.inr ⟨before, after, rfl, by rw [total, Nat.add_assoc]⟩

private theorem offsets_bin {offset : Nat} (bin items : List α) (fits : offset + total size bin ≤ capacity) :
    offsets size capacity offset (bin ++ items) =
      behind size offset bin ++ offsets size capacity (offset + total size bin) items := by
  induction bin generalizing offset with
  | nil => rfl
  | cons item bin ih =>
    rw [total, ← Nat.add_assoc] at fits
    rw [cons_append, offsets, if_neg (by omega), ih fits, behind, total, Nat.add_assoc]
    rfl

private theorem offsets_first {bin : List α} (items : List α) (some : bin ≠ [])
    (fits : 1 < bin.length → total size bin ≤ capacity) :
    offsets size capacity 0 (bin ++ items) = behind size 0 bin ++ offsets size capacity (total size bin) items := by
  by_cases small : total size bin ≤ capacity
  · rw [offsets_bin bin items (by omega), Nat.zero_add]
  · cases bin with
    | nil => exact absurd rfl some
    | cons item bin =>
      cases bin with
      | nil => simp [offsets, behind, total]
      | cons other bin => exact absurd (fits (by simp)) small

theorem Division.offsets {items : List α} {bins : List (List α)} (division : Division size capacity items bins) :
    offsets size capacity 0 items = bins.flatMap (behind size 0) := by
  obtain ⟨rfl, some, fits, full⟩ := division
  induction bins with
  | nil => rfl
  | cons bin bins ih =>
    rw [flatten_cons, offsets_first _ (some bin mem_cons_self) (fits bin mem_cons_self), flatMap_cons,
      ← ih (fun other member => some other (mem_cons_of_mem _ member))
        (fun other member => fits other (mem_cons_of_mem _ member)) full.tail]
    congr 1
    -- the next bin begins at zero, since its first item does not fit behind this one
    cases bins with
    | nil => rfl
    | cons next bins =>
      cases next with
      | nil => exact absurd rfl (some [] (by simp))
      | cons item next =>
        have more := (isChain_cons_cons.mp full).1 item rfl
        rw [flatten_cons, cons_append, NextFit.offsets, NextFit.offsets, if_pos more]
        simp only [ite_self]

/-- Dividing items behind a bin that is begun. -/
def divide (size : α → Nat) (capacity : Nat) (bin : List α) : List α → List (List α)
  | [] => [bin]
  | item :: items =>
    if capacity < total size bin + size item then bin :: divide size capacity [item] items
    else divide size capacity (bin ++ [item]) items

private theorem divide_head (size : α → Nat) (capacity : Nat) (bin items : List α) : ∃ more bins, divide size capacity bin items = (bin ++ more) :: bins := by
  induction items generalizing bin with
  | nil => exact ⟨[], [], by rw [divide, append_nil]⟩
  | cons item items ih =>
    rw [divide]
    split
    · exact ⟨[], _, by rw [append_nil]⟩
    · obtain ⟨more, bins, same⟩ := ih (bin ++ [item])
      exact ⟨item :: more, bins, by rw [same, append_assoc, singleton_append]⟩

private theorem divide_division (bin items : List α) (some : bin ≠ [])
    (fits : 1 < bin.length → total size bin ≤ capacity) :
    Division size capacity (bin ++ items) (divide size capacity bin items) := by
  induction items generalizing bin with
  | nil => exact ⟨by simp [divide], by simpa [divide] using some, by simpa [divide] using fits, by simp [divide]⟩
  | cons item items ih =>
    rw [divide]
    split
    · rename_i full
      obtain ⟨all, rest, small, chain⟩ := ih [item] (by simp) (by simp)
      obtain ⟨more, bins, head⟩ := divide_head size capacity [item] items
      refine ⟨by rw [flatten_cons, all]; rfl, ?_, ?_, ?_⟩
      · exact forall_mem_cons.mpr ⟨some, rest⟩
      · exact forall_mem_cons.mpr ⟨fits, small⟩
      · rw [head] at chain ⊢
        refine isChain_cons_cons.mpr ⟨?_, chain⟩
        intro other isHead
        cases isHead
        exact full
    · rename_i room
      have division := ih (bin ++ [item]) (by simp) (fun _ => by rw [total_append, total, total]; omega)
      rwa [append_assoc, singleton_append] at division

/-- The bins of all items. -/
def bins (size : α → Nat) (capacity : Nat) : List α → List (List α)
  | [] => []
  | item :: items => divide size capacity [item] items

theorem bins_division (size : α → Nat) (capacity : Nat) (items : List α) :
    Division size capacity items (bins size capacity items) := by
  cases items with
  | nil => exact ⟨rfl, by simp [bins], by simp [bins], .nil⟩
  | cons item items => exact divide_division [item] items (by simp) (by simp)

theorem exists_division (size : α → Nat) (capacity : Nat) (items : List α) : ∃ bins, Division size capacity items bins :=
  ⟨_, bins_division size capacity items⟩

theorem forall_offsets_iff {items : List α} (holds : Nat → α → Prop) :
    (∀ placed ∈ offsets size capacity 0 items, holds placed.1 placed.2) ↔
      ∀ bins, Division size capacity items bins → ∀ bin ∈ bins, ∀ before item after, bin = before ++ item :: after →
        holds (total size before) item := by
  constructor
  · intro all bins division bin member before item after split
    apply all (total size before, item)
    rw [division.offsets]
    exact mem_flatMap.mpr ⟨bin, member, mem_behind.mpr ⟨before, after, split, (Nat.zero_add _).symm⟩⟩
  · intro all placed member
    obtain ⟨place, item⟩ := placed
    obtain ⟨bins, division⟩ := exists_division size capacity items
    rw [division.offsets] at member
    obtain ⟨bin, isBin, inBin⟩ := mem_flatMap.mp member
    obtain ⟨before, after, split, rfl⟩ := mem_behind.mp inBin
    rw [Nat.zero_add]
    exact all bins division bin isBin before item after split

end NextFit
