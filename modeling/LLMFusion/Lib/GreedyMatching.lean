import LLMFusion.Lib.Fallible

/-! Demands that are served in turn, each with the first item that its test accepts. A test may fail,
and an item is taken once. -/

namespace GreedyMatching

universe u v w
variable {ε : Type u} {α : Type v} {β : Type w} (check : β → α → Except ε Bool)

/-- The items that are left when the first accepted one is taken. -/
def take (demand : β) : List α → Except ε (Option (List α))
  | [] => .ok none
  | item :: items =>
    match check demand item with
    | .error error => .error error
    | .ok true => .ok (some items)
    | .ok false => (take demand items).map (Option.map (item :: ·))

def serve : List β → List α → Except ε Bool
  | [], _ => .ok true
  | demand :: demands, items =>
    match take check demand items with
    | .error error => .error error
    | .ok none => .ok false
    | .ok (some rest) => serve demands rest

def Accepts (demand : β) (item : α) : Prop := check demand item = .ok true

/-- Each demand has an item of its own that it accepts. -/
def Matchable (demands : List β) (items : List α) : Prop :=
  ∃ order : List α, order.Perm items ∧ List.Forall₂ (Accepts check) demands order

/-- Whichever accepted items the first demands take, the tests of the next one return on those that
are left, and accept one of them. -/
def Unhindered : List β → List α → Prop
  | [], _ => True
  | demand :: demands, items =>
    (∀ item ∈ items, ∃ accepted, check demand item = .ok accepted) ∧ (∃ item ∈ items, Accepts check demand item) ∧
      ∀ item rest, items.Perm (item :: rest) → Accepts check demand item → Unhindered demands rest

variable {check} {demand : β} {demands : List β} {items rest : List α}

theorem Matchable.perm {order : List α} (matchable : Matchable check demands items) (shuffled : items.Perm order) :
    Matchable check demands order := by
  obtain ⟨matched, perm, related⟩ := matchable
  exact ⟨matched, perm.trans shuffled, related⟩

theorem Matchable.length_eq (matchable : Matchable check demands items) : demands.length = items.length := by
  obtain ⟨matched, perm, related⟩ := matchable
  exact related.length_eq.trans perm.length_eq

theorem take_first {item : α} (accepted : Accepts check demand item) : take check demand (item :: items) = .ok (some items) := by
  rw [take, accepted]

theorem take_perm (taken : take check demand items = .ok (some rest)) :
    ∃ item, Accepts check demand item ∧ items.Perm (item :: rest) := by
  induction items generalizing rest with
  | nil => cases taken
  | cons item items ih =>
    rw [take] at taken
    cases checked : check demand item with
    | error error =>
      rw [checked] at taken
      cases taken
    | ok accepted =>
      rw [checked] at taken
      cases accepted with
      | true =>
        cases taken
        exact ⟨item, checked, .refl _⟩
      | false =>
        obtain ⟨found, later, same⟩ := Fallible.map_eq_ok.mp taken
        obtain ⟨others, rfl, rfl⟩ := Option.map_eq_some_iff.mp same
        obtain ⟨other, accepted, perm⟩ := ih later
        exact ⟨other, accepted, (perm.cons item).trans (.swap other item others)⟩

theorem take_some (returns : ∀ item ∈ items, ∃ accepted, check demand item = .ok accepted)
    (some_accepts : ∃ item ∈ items, Accepts check demand item) : ∃ rest, take check demand items = .ok (some rest) := by
  induction items with
  | nil =>
    obtain ⟨item, inside, _⟩ := some_accepts
    exact (List.not_mem_nil inside).elim
  | cons item items ih =>
    obtain ⟨accepted, checked⟩ := returns item List.mem_cons_self
    cases accepted with
    | true => exact ⟨items, take_first checked⟩
    | false =>
      obtain ⟨other, inside, accepts⟩ := some_accepts
      have later : other ∈ items := by
        cases inside with
        | head => exact absurd (checked.symm.trans accepts) (by simp)
        | tail _ later => exact later
      obtain ⟨rest, taken⟩ := ih (fun other inside => returns other (List.mem_cons_of_mem _ inside)) ⟨other, later, accepts⟩
      refine ⟨item :: rest, ?_⟩
      rw [take, checked]
      exact congrArg (Except.map _) taken

theorem serve_cons (served : serve check (demand :: demands) items = .ok true) :
    ∃ rest, take check demand items = .ok (some rest) ∧ serve check demands rest = .ok true := by
  rw [serve] at served
  cases taken : take check demand items with
  | error error =>
    rw [taken] at served
    cases served
  | ok found =>
    rw [taken] at served
    cases found with
    | none => cases served
    | some rest => exact ⟨rest, rfl, served⟩

theorem serve_matchable (same : demands.length = items.length) (served : serve check demands items = .ok true) :
    Matchable check demands items := by
  induction demands generalizing items with
  | nil => exact ⟨[], by rw [List.length_eq_zero_iff.mp same.symm], .nil⟩
  | cons demand demands ih =>
    obtain ⟨rest, taken, served⟩ := serve_cons served
    obtain ⟨item, accepted, perm⟩ := take_perm taken
    have fewer : demands.length = rest.length := Nat.succ.inj (same.trans perm.length_eq)
    obtain ⟨order, shuffled, related⟩ := ih fewer served
    exact ⟨item :: order, (shuffled.cons item).trans perm.symm, .cons accepted related⟩

/-- No order of the items keeps the demands from being served exactly when no choice does. -/
theorem serve_iff_unhindered : (∀ order : List α, order.Perm items → serve check demands order = .ok true) ↔ Unhindered check demands items := by
  induction demands generalizing items with
  | nil => exact iff_of_true (fun _ _ => rfl) trivial
  | cons demand demands ih =>
    constructor
    · intro served
      refine ⟨?_, ?_, ?_⟩
      · intro item inside
        obtain ⟨before, after, rfl⟩ := List.append_of_mem inside
        obtain ⟨rest, taken, _⟩ := serve_cons (served (item :: (before ++ after)) List.perm_middle.symm)
        rw [take] at taken
        cases checked : check demand item with
        | error error =>
          rw [checked] at taken
          cases taken
        | ok accepted => exact ⟨accepted, rfl⟩
      · obtain ⟨rest, taken, _⟩ := serve_cons (served items (.refl _))
        obtain ⟨item, accepted, perm⟩ := take_perm taken
        exact ⟨item, perm.symm.subset List.mem_cons_self, accepted⟩
      · intro item rest perm accepted
        apply ih.mp
        intro order shuffled
        obtain ⟨others, taken, served⟩ := serve_cons (served (item :: order) ((shuffled.cons item).trans perm.symm))
        rw [take_first accepted] at taken
        cases taken
        exact served
    · rintro ⟨returns, some_accepts, later⟩ order shuffled
      have moved : ∃ item ∈ order, Accepts check demand item := by
        obtain ⟨item, inside, accepted⟩ := some_accepts
        exact ⟨item, shuffled.symm.subset inside, accepted⟩
      obtain ⟨rest, taken⟩ := take_some (fun item inside => returns item (shuffled.subset inside)) moved
      obtain ⟨item, accepted, perm⟩ := take_perm taken
      rw [serve, taken]
      exact ih.mpr (later item rest (shuffled.symm.trans perm) accepted) rest (.refl _)

theorem take_map {γ : Type v} (view : γ → α) (demand : β) (items : List γ) :
    take check demand (items.map view) = (take (fun demand item => check demand (view item)) demand items).map (Option.map (List.map view)) := by
  induction items with
  | nil => rfl
  | cons item items ih =>
    rw [List.map_cons, take, take]
    cases checked : check demand (view item) with
    | error error => rfl
    | ok accepted =>
      cases accepted with
      | true => rfl
      | false =>
        rw [ih]
        cases take (fun demand item => check demand (view item)) demand items with
        | error error => rfl
        | ok found => cases found <;> rfl

theorem serve_map {γ : Type v} (view : γ → α) (demands : List β) (items : List γ) :
    serve check demands (items.map view) = serve (fun demand item => check demand (view item)) demands items := by
  induction demands generalizing items with
  | nil => rfl
  | cons demand demands ih =>
    rw [serve, serve, take_map]
    cases take (fun demand item => check demand (view item)) demand items with
    | error error => rfl
    | ok found =>
      cases found with
      | none => rfl
      | some rest => exact ih rest

end GreedyMatching
