import Mathlib.Data.List.Basic

/-! Runs of a labelled transition system: the events in order and the state behind
them. An invariant may speak of the events so far. -/

namespace Runs

universe u v

/-- A run from a first state, with its events. -/
inductive Run {σ : Type u} {ε : Type v} (step : σ → ε → σ → Prop) (start : σ) : List ε → σ → Prop where
  | start : Run step start [] start
  | step {events : List ε} {state next : σ} {event : ε} (before : Run step start events state)
      (taken : step state event next) : Run step start (events ++ [event]) next

namespace Run
variable {σ : Type u} {ε : Type v} {step : σ → ε → σ → Prop} {start state final : σ} {events later : List ε}

theorem invariant (holds : List ε → σ → Prop) (initial : holds [] start)
    (keeps : ∀ events state event next, holds events state → step state event next → holds (events ++ [event]) next)
    (run : Run step start events state) : holds events state := by
  induction run with
  | start => exact initial
  | step _ taken ih => exact keeps _ _ _ _ ih taken

theorem mono {step' : σ → ε → σ → Prop} (more : ∀ state event next, step state event next → step' state event next)
    (run : Run step start events final) : Run step' start events final := by
  induction run with
  | start => exact .start
  | step _ taken ih => exact .step ih (more _ _ _ taken)

theorem single {event : ε} (taken : step start event final) : Run step start [event] final :=
  show Run step start ([] ++ [event]) final from .step .start taken

theorem split (run : Run step start (events ++ later) final) :
    ∃ middle, Run step start events middle ∧ Run step middle later final := by
  generalize isWhole : events ++ later = whole at run
  induction run generalizing later with
  | start =>
    obtain ⟨rfl, rfl⟩ := List.append_eq_nil_iff.mp isWhole
    exact ⟨start, .start, .start⟩
  | @step before state next event first taken ih =>
    rcases List.eq_nil_or_concat' later with rfl | ⟨init, last, rfl⟩
    · rw [List.append_nil] at isWhole
      exact ⟨next, isWhole ▸ .step first taken, .start⟩
    · rw [← List.append_assoc] at isWhole
      obtain ⟨same, last'⟩ := List.append_inj' isWhole rfl
      cases last'
      obtain ⟨middle, run, rest⟩ := ih same
      exact ⟨middle, run, .step rest taken⟩

theorem of_single {event : ε} (run : Run step start [event] final) : step start event final := by
  generalize isOne : [event] = events at run
  cases run with
  | start => cases isOne
  | step before taken =>
    obtain ⟨nothing, same⟩ := List.append_inj' (show [] ++ [event] = _ from isOne) rfl
    cases same
    subst nothing
    generalize isNone : [] = none at before
    cases before with
    | start => exact taken
    | step => simp at isNone

theorem at_event {event : ε} (run : Run step start (events ++ event :: later) final) :
    ∃ state next, Run step start events state ∧ step state event next ∧ Run step next later final := by
  obtain ⟨state, first, rest⟩ := run.split
  obtain ⟨next, one, rest⟩ := split (show Run step state ([event] ++ later) final from rest)
  exact ⟨state, next, first, one.of_single, rest⟩

/-- When every step makes a measure smaller, a run has at most as many steps as the measure says. -/
theorem bounded {measure : σ → Nat} (decreases : ∀ state event next, step state event next → measure next < measure state)
    (run : Run step start events final) : events.length + measure final ≤ measure start := by
  induction run with
  | start => simp
  | step _ taken ih =>
    have less := decreases _ _ _ taken
    rw [List.length_append, List.length_singleton]
    omega

theorem exists_stuck {measure : σ → Nat} (decreases : ∀ state event next, step state event next → measure next < measure state)
    (run : Run step start events state) : ∃ whole final, Run step start whole final ∧ ∀ event next, ¬ step final event next := by
  generalize size : measure state = bound
  induction bound using Nat.strongRecOn generalizing state events with
  | ind bound ih =>
    by_cases stuck : ∀ event next, ¬ step state event next
    · exact ⟨events, state, run, stuck⟩
    · push Not at stuck
      obtain ⟨event, next, taken⟩ := stuck
      have less := decreases _ _ _ taken
      exact ih (measure next) (size ▸ less) (run.step taken) rfl

end Run

end Runs
