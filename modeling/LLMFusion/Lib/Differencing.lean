import Mathlib.Algebra.BigOperators.Group.List.Basic
import Mathlib.Algebra.Order.Monoid.Defs

/-! Multiway differencing. A pool of partial results is reduced to one by merging
any two of them; the order in which they are chosen is left open, so that a heap,
a queue, or any other policy refines the same relation. Two partial results are
merged by adding the bins of one, taken in reverse, to the bins of the other. -/

namespace Differencing
open List

universe u v
variable {σ : Type u}

/-- Some order of pairwise merges reduces the pool to one result. -/
inductive Reduces (merge : σ → σ → σ) : List σ → σ → Prop where
  | single (state : σ) : Reduces merge [state] state
  | step {pool rest : List σ} {first second result : σ}
      (chosen : (first :: second :: rest).Perm pool)
      (remaining : Reduces merge (merge first second :: rest) result) :
      Reduces merge pool result

section Reduces
variable {merge : σ → σ → σ} {pool : List σ} {result : σ}

theorem Reduces.additive {μ : Type v} [AddCommMonoid μ] (reduces : Reduces merge pool result)
    (measure : σ → μ) (adds : ∀ a b, measure (merge a b) = measure a + measure b) :
    measure result = (pool.map measure).sum := by
  induction reduces with
  | single state => simp
  | @step pool rest first second result chosen _ ih =>
    calc measure result = measure first + measure second + (rest.map measure).sum := by
          rw [ih, map_cons, sum_cons, adds]
      _ = ((first :: second :: rest).map measure).sum := by
          simp only [map_cons, sum_cons, add_assoc]
      _ = (pool.map measure).sum := (chosen.map measure).sum_eq

theorem Reduces.preserves {property : σ → Prop} (reduces : Reduces merge pool result)
    (start : ∀ state ∈ pool, property state)
    (kept : ∀ a b, property a → property b → property (merge a b)) : property result := by
  induction reduces with
  | single state => exact start state (by simp)
  | step chosen _ ih =>
    have old := fun state member => start state (chosen.mem_iff.mp member)
    apply ih
    intro state member
    rcases mem_cons.mp member with rfl | member
    · exact kept _ _ (old _ (by simp)) (old _ (by simp))
    · exact old state (by simp [member])

end Reduces

section Folding
variable {α : Type u}

/-- Add the second sequence of bins, in reverse, to the first. -/
def fold (op : α → α → α) (bins other : List α) : List α := List.zipWith op bins other.reverse

variable {bins other : List α}

@[simp] theorem fold_length (op : α → α → α)
    (same : other.length = bins.length) : (fold op bins other).length = bins.length := by
  simp [fold, same]

theorem getElem_fold (op : α → α → α) (index : Nat)
    (inside : index < (fold op bins other).length) (left : index < bins.length)
    (right : other.length - 1 - index < other.length) :
    (fold op bins other)[index] = op bins[index] other[other.length - 1 - index] := by
  simp [fold, getElem_reverse]

theorem sum_fold {μ : Type v} [AddCommMonoid μ] {op : α → α → α} (measure : α → μ)
    (adds : ∀ a b, measure (op a b) = measure a + measure b) (same : other.length = bins.length) :
    ((fold op bins other).map measure).sum = (bins.map measure).sum + (other.map measure).sum := by
  have aligned : ∀ left right : List α, right.length = left.length →
      ((zipWith op left right).map measure).sum = (left.map measure).sum + (right.map measure).sum := by
    intro left
    induction left with
    | nil => intro right same; cases right <;> simp_all
    | cons a left ih =>
      intro right same
      cases right with
      | nil => simp at same
      | cons b right =>
        simp only [zipWith_cons_cons, map_cons, sum_cons, adds,
          ih right (by simpa using same)]
        exact add_add_add_comm _ _ _ _
  rw [fold, aligned bins other.reverse (by simpa using same)]
  simp [sum_reverse]

/-- The bins that satisfy the predicate come first. -/
def FrontLoaded (p : α → Bool) (bins : List α) : Prop :=
  bins.Pairwise (fun a b => p b = true → p a = true)

theorem FrontLoaded.getElem_iff {p : α → Bool} {bins : List α} (front : FrontLoaded p bins)
    {index : Nat} (inside : index < bins.length) : p bins[index] = true ↔ index < bins.countP p := by
  induction bins generalizing index with
  | nil => simp at inside
  | cons bin bins ih =>
    obtain ⟨head, tail⟩ := pairwise_cons.mp front
    cases decided : p bin with
    | true =>
      cases index with
      | zero => simp [decided]
      | succ index =>
        simp only [getElem_cons_succ, countP_cons, decided, ite_true]
        rw [ih tail (by simpa using inside)]
        omega
    | false =>
      have none : bins.countP p = 0 := by
        rw [countP_eq_zero]
        intro other member holds
        have := head other member holds
        simp [decided] at this
      cases index with
      | zero => simp [decided, none]
      | succ index =>
        have bound : index < bins.length := by simpa using inside
        have fails := countP_eq_zero.mp none _ (getElem_mem bound)
        simp only [getElem_cons_succ, countP_cons, decided, none, fails]
        simp

/-- A sequence whose first `front` and last `back` bins satisfy the predicate
has at least that many such bins, up to its length. -/
theorem countP_ge {p : α → Bool} {bins : List α} (front back : Nat)
    (first : ∀ index (inside : index < bins.length), index < front → p bins[index] = true)
    (last : ∀ index (inside : index < bins.length), bins.length ≤ index + back → p bins[index] = true) :
    min (front + back) bins.length ≤ bins.countP p := by
  induction bins generalizing front with
  | nil => simp
  | cons bin bins ih =>
    have rest := ih (front - 1)
      (fun index inside bound => first (index + 1) (by simpa using inside) (by omega))
      (fun index inside bound => last (index + 1) (by simpa using inside) (by simp only [length_cons]; omega))
    simp only [countP_cons, length_cons]
    by_cases leading : 0 < front
    · have holds := first 0 (by simp) leading
      simp only [getElem_cons_zero] at holds
      simp only [holds, ite_true]
      omega
    · by_cases trailing : bins.length + 1 ≤ back
      · have holds := last 0 (by simp) (by simp only [length_cons]; omega)
        simp only [getElem_cons_zero] at holds
        simp only [holds, ite_true]
        omega
      · omega

theorem countP_fold {p : α → Bool} {op : α → α → α}
    (joins : ∀ a b, p (op a b) = (p a || p b)) (same : other.length = bins.length)
    (front : FrontLoaded p bins) (back : FrontLoaded p other) :
    min (bins.countP p + other.countP p) bins.length ≤ (fold op bins other).countP p := by
  have length := fold_length op same
  have bound : min (bins.countP p + other.countP p) (fold op bins other).length ≤
      (fold op bins other).countP p := countP_ge _ _
    (by
      intro index inside filled
      have left : index < bins.length := by omega
      rw [getElem_fold op index inside left (by omega), joins, (front.getElem_iff left).mpr filled]
      rfl)
    (by
      intro index inside filled
      have left : index < bins.length := by omega
      have right : other.length - 1 - index < other.length := by omega
      rw [getElem_fold op index inside left right, joins, (back.getElem_iff right).mpr (by omega)]
      exact Bool.or_true _)
  rwa [length] at bound

/-- No bin exceeds another by more than the bound. -/
def Within [Add α] [LE α] (bound : α) (bins : List α) : Prop :=
  ∀ a ∈ bins, ∀ b ∈ bins, a ≤ b + bound

/-- Folding one descending sequence onto another never widens the spread: the
larger bin of one side meets the smaller bin of the other. -/
theorem Within.fold [AddCommMonoid α] [LinearOrder α] [IsOrderedAddMonoid α] {bound : α}
    (left : Within bound bins) (right : Within bound other) (same : other.length = bins.length)
    (descending : bins.Pairwise (fun a b => b ≤ a)) (descending' : other.Pairwise (fun a b => b ≤ a)) :
    Within bound (fold (fun a b => a + b) bins other) := by
  have length := fold_length (fun a b : α => a + b) same
  have mono : ∀ {items : List α}, items.Pairwise (fun a b => b ≤ a) →
      ∀ {i j} (first : i < items.length) (second : j < items.length), i ≤ j → items[j] ≤ items[i] := by
    intro items sorted i j first second before
    rcases Nat.lt_or_eq_of_le before with before | rfl
    · exact pairwise_iff_getElem.mp sorted i j first second before
    · exact le_refl _
  intro a memberA b memberB
  obtain ⟨i, insideI, rfl⟩ := mem_iff_getElem.mp memberA
  obtain ⟨j, insideJ, rfl⟩ := mem_iff_getElem.mp memberB
  have iLeft : i < bins.length := by omega
  have jLeft : j < bins.length := by omega
  have iRight : other.length - 1 - i < other.length := by omega
  have jRight : other.length - 1 - j < other.length := by omega
  rw [getElem_fold _ i insideI iLeft iRight, getElem_fold _ j insideJ jLeft jRight]
  rcases Nat.le_total i j with before | after
  · calc bins[i] + other[other.length - 1 - i]
        ≤ (bins[j] + bound) + other[other.length - 1 - j] := by
          exact add_le_add (left _ (getElem_mem _) _ (getElem_mem _))
            (mono descending' jRight iRight (by omega))
      _ = bins[j] + other[other.length - 1 - j] + bound := by
          rw [add_right_comm]
  · calc bins[i] + other[other.length - 1 - i]
        ≤ bins[j] + (other[other.length - 1 - j] + bound) := by
          exact add_le_add (mono descending jLeft iLeft after)
            (right _ (getElem_mem _) _ (getElem_mem _))
      _ = bins[j] + other[other.length - 1 - j] + bound := by
          rw [add_assoc]

theorem Within.perm [Add α] [LE α] {bound : α}
    (within : Within bound bins) (perm : other.Perm bins) : Within bound other :=
  fun a memberA b memberB => within a (perm.mem_iff.mp memberA) b (perm.mem_iff.mp memberB)

theorem Within.le_average [AddCommMonoid α] [LinearOrder α] [IsOrderedAddMonoid α] {bound : α} {bins : List α}
    (within : Within bound bins) {bin : α} (member : bin ∈ bins) :
    bins.length • bin ≤ bins.sum + (bins.length - 1) • bound := by
  have rest : ∀ others : List α, (∀ other ∈ others, bin ≤ other + bound) →
      others.length • bin ≤ others.sum + others.length • bound := by
    intro others close
    induction others with
    | nil => simp
    | cons other others ih =>
      rw [length_cons, sum_cons, succ_nsmul', succ_nsmul']
      calc bin + others.length • bin
          ≤ (other + bound) + (others.sum + others.length • bound) :=
            add_le_add (close other (by simp)) (ih (fun a listed => close a (by simp [listed])))
        _ = other + others.sum + (bound + others.length • bound) := add_add_add_comm ..
  obtain ⟨before, after, rfl⟩ := append_of_mem member
  have perm : (before ++ bin :: after).Perm (bin :: (before ++ after)) := perm_middle
  have others := rest (before ++ after) (fun other listed =>
    within bin member other (perm.mem_iff.mpr (mem_cons_of_mem _ listed)))
  rw [perm.length_eq, perm.sum_eq, length_cons, sum_cons, succ_nsmul', Nat.add_sub_cancel, add_assoc]
  exact add_le_add_right others bin

end Folding

end Differencing
