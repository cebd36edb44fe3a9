import Mathlib.Data.List.Sort

/-! Sorting and extraction by a strict comparison. Only a Boolean `less` is
assumed, as in a language whose sort calls a user-defined comparison method.
The sorts are stable in both directions. -/

namespace Sorting

universe u
variable {α : Type u}

/-- A strict comparison whose incomparability is an equivalence. This is what a
stable sort needs; it is weaker than a linear order on the compared values. -/
structure Weak (less : α → α → Bool) : Prop where
  asymm : ∀ {a b}, less a b = true → less b a = false
  trans : ∀ {a b c}, less b a = false → less c b = false → less c a = false

/-- Compare by a numeric key first, then by another comparison. -/
def byKey (key : α → Nat) (less : α → α → Bool) (a b : α) : Bool :=
  if key a ≠ key b then key a < key b else less a b

theorem Weak.byKey {less : α → α → Bool} (weak : Weak less) (key : α → Nat) : Weak (byKey key less) := by
  constructor
  · intro a b smaller
    by_cases same : key a = key b
    · simp only [Sorting.byKey, same, ne_eq, not_true_eq_false, ite_false] at smaller ⊢
      exact weak.asymm smaller
    · have flipped : ¬ key b = key a := fun equal => same equal.symm
      simp only [Sorting.byKey, same, flipped, ne_eq, not_false_eq_true, ite_true,
        decide_eq_true_eq, decide_eq_false_iff_not] at smaller ⊢
      omega
  · intro a b c first second
    have keyed : ∀ x y, Sorting.byKey key less x y = false →
        key y < key x ∨ key x = key y ∧ less x y = false := by
      intro x y notLess
      by_cases same : key x = key y
      · exact Or.inr ⟨same, by simpa [Sorting.byKey, same] using notLess⟩
      · have bound : key y ≤ key x := by simpa [Sorting.byKey, same] using notLess
        exact Or.inl (by omega)
    have above : key a < key c → Sorting.byKey key less c a = false := by
      intro bound
      have different : key c ≠ key a := by omega
      simp only [Sorting.byKey, different, ne_eq, not_false_eq_true, ite_true, decide_eq_false_iff_not]
      omega
    rcases keyed _ _ first with below | ⟨equal, kept⟩
    · rcases keyed _ _ second with below' | ⟨equal', _⟩
      · exact above (by omega)
      · exact above (by omega)
    · rcases keyed _ _ second with below' | ⟨equal', kept'⟩
      · exact above (by omega)
      · simpa [Sorting.byKey, equal'.trans equal] using weak.trans kept kept'

/-- Lexicographic comparison of sequences: a proper prefix comes first. -/
def lexLess [DecidableEq α] (less : α → α → Bool) : List α → List α → Bool
  | _, [] => false
  | [], _ :: _ => true
  | a :: as, b :: bs => if a = b then lexLess less as bs else less a b

/-- For the elements of a sequence the comparison must decide every two
different values; otherwise two different sequences could be incomparable at
their first difference and comparable through a third. -/
theorem Weak.lexLess [DecidableEq α] {less : α → α → Bool} (weak : Weak less)
    (total : ∀ {a b}, less a b = false → less b a = false → a = b) : Weak (lexLess less) := by
  constructor
  · intro as
    induction as with
    | nil => intro bs smaller; cases bs <;> simp_all [Sorting.lexLess]
    | cons a as ih =>
      intro bs smaller
      cases bs with
      | nil => simp [Sorting.lexLess] at smaller
      | cons b bs =>
        by_cases same : a = b
        · subst b
          simp only [Sorting.lexLess, ite_true] at smaller ⊢
          exact ih smaller
        · have flipped : ¬ b = a := fun equal => same equal.symm
          simp only [Sorting.lexLess, same, flipped, ite_false] at smaller ⊢
          exact weak.asymm smaller
  · intro as
    induction as with
    | nil =>
      intro bs cs first second
      cases cs with
      | nil => rfl
      | cons c cs => cases bs <;> simp_all [Sorting.lexLess]
    | cons a as ih =>
      intro bs cs first second
      cases cs with
      | nil => cases bs <;> simp_all [Sorting.lexLess]
      | cons c cs =>
        cases bs with
        | nil => simp [Sorting.lexLess] at first
        | cons b bs =>
          by_cases ab : b = a
          · subst b
            simp only [Sorting.lexLess, ite_true] at first second ⊢
            by_cases same : c = a
            · simp only [same, ite_true] at second ⊢
              exact ih first second
            · simp only [same, ite_false] at second ⊢
              exact second
          · by_cases bc : c = b
            · subst c
              simpa only [Sorting.lexLess, ab, ite_false] using first
            · simp only [Sorting.lexLess, ab, bc, ite_false] at first second ⊢
              have kept := weak.trans first second
              split
              next same =>
                subst c
                exact False.elim (bc (total second first))
              next => exact kept

variable {less : α → α → Bool}

/-- Ascending stable sort: an element stays before a later one unless the later
one is smaller. -/
def sorted (less : α → α → Bool) (items : List α) : List α :=
  items.insertionSort (fun a b => less b a = false)

/-- Descending stable sort: incomparable elements keep their order. -/
def sortedReverse (less : α → α → Bool) (items : List α) : List α :=
  items.insertionSort (fun a b => less a b = false)

theorem sorted_perm (less : α → α → Bool) (items : List α) : (sorted less items).Perm items :=
  List.perm_insertionSort _ _

theorem sortedReverse_perm (less : α → α → Bool) (items : List α) : (sortedReverse less items).Perm items :=
  List.perm_insertionSort _ _

theorem Weak.total (weak : Weak less) (a b : α) : less a b = false ∨ less b a = false := by
  cases decided : less a b with
  | false => exact Or.inl rfl
  | true => exact Or.inr (weak.asymm decided)

theorem Weak.sorted_pairwise (weak : Weak less) (items : List α) :
    (sorted less items).Pairwise (fun a b => less b a = false) := by
  have : Std.Total (fun a b => less b a = false) := ⟨fun a b => weak.total b a⟩
  have : IsTrans α (fun a b => less b a = false) := ⟨fun _ _ _ first second => weak.trans first second⟩
  exact List.pairwise_insertionSort _ _

theorem Weak.sortedReverse_pairwise (weak : Weak less) (items : List α) :
    (sortedReverse less items).Pairwise (fun a b => less a b = false) := by
  have : Std.Total (fun a b => less a b = false) := ⟨weak.total⟩
  have : IsTrans α (fun a b => less a b = false) := ⟨fun _ _ _ first second => weak.trans second first⟩
  exact List.pairwise_insertionSort _ _

/-- The first element than which no other is smaller, and the other elements. -/
def popLeast (less : α → α → Bool) : List α → Option (α × List α)
  | [] => none
  | a :: rest => match popLeast less rest with
    | none => some (a, [])
    | some (least, others) => if less least a then some (least, a :: others) else some (a, rest)

theorem popLeast_perm {items rest : List α} {least : α}
    (popped : popLeast less items = some (least, rest)) : (least :: rest).Perm items := by
  induction items generalizing least rest with
  | nil => simp [popLeast] at popped
  | cons a items ih =>
    simp only [popLeast] at popped
    cases inner : popLeast less items with
    | none =>
      have empty : items = [] := by
        cases items with
        | nil => rfl
        | cons b items =>
          simp only [popLeast] at inner
          split at inner
          · cases inner
          · split at inner <;> cases inner
      simp only [inner] at popped
      cases popped
      rw [empty]
    | some result =>
      obtain ⟨smallest, others⟩ := result
      simp only [inner] at popped
      split at popped
      · cases popped
        exact (List.Perm.swap _ _ _).trans ((ih inner).cons a)
      · cases popped
        exact List.Perm.refl _

theorem popLeast_isSome (less : α → α → Bool) {items : List α} (nonempty : items ≠ []) :
    ∃ least rest, popLeast less items = some (least, rest) := by
  cases items with
  | nil => exact absurd rfl nonempty
  | cons a items =>
    simp only [popLeast]
    split
    · exact ⟨_, _, rfl⟩
    · split <;> exact ⟨_, _, rfl⟩

end Sorting
