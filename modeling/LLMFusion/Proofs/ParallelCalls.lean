import LLMFusion.BfclChecker
import LLMFusion.Lib.GreedyMatching

/-! Calls in parallel. Each possible answer takes the first call that it accepts and never gives it
back, so the order of the calls decides as soon as an answer has a choice that a later one has not. -/

namespace LLMFusion.BfclChecker
open List hiding take
open GreedyMatching
open ToolParser (Text)

variable {φ ω : Type} {python : Python φ ω} {funcDescriptions : Descriptions} {language : Language}

abbrev Call (φ ω : Type) := List (Text × Params φ ω)

abbrev PossibleAnswer (φ ω : Type) := List (Text × Answers φ ω)

/-- Whether a call is accepted for a possible answer, by the description of its function. -/
def accepts (python : Python φ ω) (funcDescriptions : Descriptions) (language : Language)
    (possibleAnswer : PossibleAnswer φ ω) (call : Call φ ω) : Except Crash Bool :=
  match possibleAnswer with
  | [] => .error .indexError
  | expected :: _ =>
    (simpleFunctionChecker python (findDescription funcDescriptions expected.1) call possibleAnswer language).map
      (fun verdict => decide (verdict = .valid))

def unmatched (matchedIndices : List Nat) (calls : List (Call φ ω × Nat)) : List (Call φ ω × Nat) :=
  calls.filter (fun call => decide (call.2 ∉ matchedIndices))

variable {matchedIndices : List Nat}

theorem unmatched_cons_of_mem {call : Call φ ω × Nat} (inside : call.2 ∈ matchedIndices)
    (calls : List (Call φ ω × Nat)) : unmatched matchedIndices (call :: calls) = unmatched matchedIndices calls :=
  filter_cons_of_neg (by simpa using inside)

theorem unmatched_cons_of_not_mem {call : Call φ ω × Nat} (outside : call.2 ∉ matchedIndices)
    (calls : List (Call φ ω × Nat)) : unmatched matchedIndices (call :: calls) = call :: unmatched matchedIndices calls :=
  filter_cons_of_pos (by simpa using outside)

variable {calls : List (Call φ ω × Nat)}

theorem unmatched_append {index : Nat}
    (absent : index ∉ calls.map Prod.snd) : unmatched (matchedIndices ++ [index]) calls = unmatched matchedIndices calls := by
  apply filter_congr
  intro call inside
  have other : call.2 ≠ index := fun same => absent (same ▸ mem_map_of_mem inside)
  simp [other]

/-- What the loop over the calls finds is what is taken of those that are not matched. -/
def Finds (matchedIndices : List Nat) (calls : List (Call φ ω × Nat)) :
    Except Crash (List (SubError φ ω) ⊕ Nat) → Except Crash (Option (List (Call φ ω × Nat)))
  | .error error => .error error
  | .ok (.inl _) => .ok none
  | .ok (.inr index) => .ok (some (unmatched (matchedIndices ++ [index]) calls))

theorem findMatch_index {description : Option FunctionDescription}
    {possibleAnswer : PossibleAnswer φ ω} {index : Nat}
    (found : findMatch python language matchedIndices description possibleAnswer calls = .ok (.inr index)) :
    index ∉ matchedIndices ∧ index ∈ calls.map Prod.snd := by
  induction calls with
  | nil => cases found
  | cons call calls ih =>
    rw [findMatch] at found
    split at found
    · exact ⟨(ih found).1, mem_cons_of_mem _ (ih found).2⟩
    · next free =>
      obtain ⟨verdict, _, found⟩ := Fallible.bind_eq_ok.mp found
      cases verdict with
      | valid =>
        cases found
        exact ⟨free, mem_cons_self⟩
      | invalid rejection =>
        obtain ⟨later, searched, found⟩ := Fallible.bind_eq_ok.mp found
        cases later with
        | inl errors => cases found
        | inr other =>
          cases found
          exact ⟨(ih searched).1, mem_cons_of_mem _ (ih searched).2⟩

theorem take_unmatched {expected : Text × Answers φ ω} {others : PossibleAnswer φ ω}
    (distinct : (calls.map Prod.snd).Nodup) :
    take (fun answer call => accepts python funcDescriptions language answer call.1) (expected :: others)
        (unmatched matchedIndices calls) =
      Finds matchedIndices calls (findMatch python language matchedIndices (findDescription funcDescriptions expected.1)
        (expected :: others) calls) := by
  induction calls with
  | nil => rfl
  | cons call calls ih =>
    obtain ⟨absent, distinct⟩ := nodup_cons.mp distinct
    specialize ih distinct
    rw [findMatch]
    by_cases inside : call.2 ∈ matchedIndices
    · rw [if_pos inside, unmatched_cons_of_mem inside, ih]
      have skipped : ∀ index, unmatched (matchedIndices ++ [index]) (call :: calls) = unmatched (matchedIndices ++ [index]) calls :=
        fun index => unmatched_cons_of_mem (mem_append_left _ inside) calls
      rcases findMatch python language matchedIndices _ _ calls with error | errors | index
      · rfl
      · rfl
      · exact congrArg (fun rest => Except.ok (some rest)) (skipped index).symm
    · rw [if_neg inside, unmatched_cons_of_not_mem inside, take, accepts]
      rcases simpleFunctionChecker python _ call.1 (expected :: others) language with error | valid | rejection
      · rfl
      · have kept : unmatched (matchedIndices ++ [call.2]) (call :: calls) = unmatched matchedIndices calls := by
          rw [unmatched_cons_of_mem (by simp), unmatched_append absent]
        exact congrArg (fun rest => Except.ok (some rest)) kept.symm
      · have shown : Except.map (fun verdict => decide (verdict = Verdict.valid))
            (Except.ok (Verdict.invalid rejection) : Except Crash Verdict) = .ok false := rfl
        rw [shown]
        dsimp only
        rw [ih]
        cases found : findMatch python language matchedIndices (findDescription funcDescriptions expected.1)
            (expected :: others) calls with
        | error error => rfl
        | ok later =>
          cases later with
          | inl errors => rfl
          | inr index =>
            obtain ⟨_, there⟩ := findMatch_index found
            have other : call.2 ∉ matchedIndices ++ [index] := by
              simp only [mem_append, mem_singleton, not_or]
              exact ⟨inside, fun same => absent (same ▸ there)⟩
            exact congrArg (fun rest => Except.ok (some rest)) (unmatched_cons_of_not_mem other calls).symm

theorem take_nil {rest : List (Call φ ω × Nat)} :
    take (fun answer call => accepts python funcDescriptions language answer call.1) [] calls ≠ .ok (some rest) := by
  intro taken
  cases calls with
  | nil => cases taken
  | cons call calls => cases taken

theorem matchAnswers_iff {modelOutput : List (Call φ ω)}
    {possibleAnswers : List (PossibleAnswer φ ω × Nat)} :
    matchAnswers python funcDescriptions language modelOutput matchedIndices possibleAnswers = .ok .valid ↔
      serve (fun answer call => accepts python funcDescriptions language answer call.1) (possibleAnswers.map Prod.fst)
        (unmatched matchedIndices modelOutput.zipIdx) = .ok true := by
  induction possibleAnswers generalizing matchedIndices with
  | nil => exact iff_of_true rfl rfl
  | cons answer possibleAnswers ih =>
    obtain ⟨possibleAnswer, number⟩ := answer
    rw [map_cons]
    cases possibleAnswer with
    | nil =>
      apply iff_of_false
      · intro matched
        cases matched
      · intro served
        obtain ⟨rest, taken, _⟩ := serve_cons served
        exact take_nil taken
    | cons expected others =>
      have distinct : (modelOutput.zipIdx.map Prod.snd).Nodup := by
        rw [zipIdx_map_snd]
        exact nodup_range'
      rw [serve, take_unmatched distinct, matchAnswers]
      dsimp only
      cases findMatch python language matchedIndices (findDescription funcDescriptions expected.1) (expected :: others)
          modelOutput.zipIdx with
      | error error => exact iff_of_false (fun matched => by cases matched) (fun served => by cases served)
      | ok found =>
        cases found with
        | inl errors => exact iff_of_false (fun matched => by cases matched) (fun served => by cases served)
        | inr index => exact ih

theorem parallelFunctionCheckerNoOrder_iff {modelOutput : List (Call φ ω)} {possibleAnswers : List (PossibleAnswer φ ω)} :
    parallelFunctionCheckerNoOrder python funcDescriptions language modelOutput possibleAnswers = .ok .valid ↔
      possibleAnswers.length = modelOutput.length ∧
        serve (accepts python funcDescriptions language) possibleAnswers modelOutput = .ok true := by
  rw [parallelFunctionCheckerNoOrder]
  split
  · next different => exact iff_of_false (fun valid => by cases valid) (fun served => different served.1.symm)
  · next same =>
    have all : unmatched [] modelOutput.zipIdx = modelOutput.zipIdx := filter_eq_self.mpr (by simp)
    rw [matchAnswers_iff, all, zipIdx_map_fst, ← serve_map, zipIdx_map_fst]
    exact (and_iff_right (not_not.mp same).symm).symm

/-- The calls are accepted in every order that matches exactly when the first answers cannot take, of the
calls that they accept, all that a later one could have. -/
theorem parallelFunctionCheckerNoOrder_order_iff (python : Python φ ω) (funcDescriptions : Descriptions) (language : Language)
    (modelOutput : List (Call φ ω)) (possibleAnswers : List (PossibleAnswer φ ω)) :
    (∀ order : List (Call φ ω), order.Perm modelOutput →
        (parallelFunctionCheckerNoOrder python funcDescriptions language order possibleAnswers = .ok .valid ↔
          Matchable (accepts python funcDescriptions language) possibleAnswers order)) ↔
      (Matchable (accepts python funcDescriptions language) possibleAnswers modelOutput →
        Unhindered (accepts python funcDescriptions language) possibleAnswers modelOutput) := by
  constructor
  · intro same matchable
    apply serve_iff_unhindered.mp
    intro order shuffled
    exact (parallelFunctionCheckerNoOrder_iff.mp ((same order shuffled).mpr (matchable.perm shuffled.symm))).2
  · intro unhindered order shuffled
    constructor
    · intro valid
      obtain ⟨same, served⟩ := parallelFunctionCheckerNoOrder_iff.mp valid
      exact serve_matchable same served
    · intro matchable
      apply parallelFunctionCheckerNoOrder_iff.mpr
      exact ⟨matchable.length_eq, serve_iff_unhindered.mpr (unhindered (matchable.perm shuffled)) order shuffled⟩

/-- Without floats and other objects, for texts in lower case. -/
def plain : Python Empty Empty where
  lower := id
  text _ := []
  repr _ := []
  floatEq _ _ := false
  intEqFloat _ _ := false
  toFloat _ := none
  className := Empty.elim
  equals := Empty.elim
  len := Empty.elim
  iterate := Empty.elim
  subscript := Empty.elim
  contains := Empty.elim
  javaTypeConverter _ _ _ := .error .valueError
  jsTypeConverter _ _ _ := .error .valueError

def funcName : Text := ['f']

def paramName : Text := ['x']

/-- `f(x: integer)` -/
def integerFunction : FunctionDescription := ⟨funcName, [(paramName, ⟨some "integer".toList, none⟩)], [paramName]⟩

/-- `f(x=value)` -/
def integerCall (value : Int) : Call Empty Empty := [(funcName, [(some paramName, .int value)])]

def integerAnswer (values : List Int) : PossibleAnswer Empty Empty := [(funcName, [(paramName, values.map .int)])]

theorem accepts_integer : accepts plain (.one integerFunction) .python (integerAnswer [1, 2]) (integerCall 2) = .ok true ∧
    accepts plain (.one integerFunction) .python (integerAnswer [1]) (integerCall 1) = .ok true := by
  constructor <;> rfl

/-- The first answer takes the call that the second one needs. -/
theorem parallelFunctionCheckerNoOrder_greedy :
    ¬ (parallelFunctionCheckerNoOrder plain (.one integerFunction) .python [integerCall 1, integerCall 2]
        [integerAnswer [1, 2], integerAnswer [1]] = .ok .valid ↔
      Matchable (accepts plain (.one integerFunction) .python) [integerAnswer [1, 2], integerAnswer [1]]
        [integerCall 1, integerCall 2]) := by
  intro same
  have matchable : Matchable (accepts plain (.one integerFunction) .python) [integerAnswer [1, 2], integerAnswer [1]]
      [integerCall 1, integerCall 2] :=
    ⟨[integerCall 2, integerCall 1], .swap _ _ _, .cons accepts_integer.1 (.cons accepts_integer.2 .nil)⟩
  have valid := (parallelFunctionCheckerNoOrder_iff.mp (same.mpr matchable)).2
  exact absurd valid (by decide +kernel)

end LLMFusion.BfclChecker
