import LLMFusion.Proofs.ParallelCalls

/-! The marker of an optional parameter. Only the check of dictionaries leaves it out; elsewhere it is
standardized and compared as if it were a value, and what is empty in the way of its type matches it. -/

namespace LLMFusion.BfclChecker
open Fallible
open ToolParser (Text)

variable {φ ω : Type} {python : Python φ ω} {param value : Value φ ω} {possibleAnswer : List (Value φ ω)}

theorem eq_marker (value : Value φ ω) : value.eq python marker = true ↔ value = marker := by
  cases value with
  | str text => simp [Value.eq, marker]
  | none | bool _ | int _ | float _ | list _ | tuple _ | dict _ | other _ => simp [Value.eq, Value.number, Value.numberEq, marker]

theorem marker_eq (value : Value φ ω) : Value.eq python marker value = true ↔ value = marker := by
  cases value with
  | str text => simp [Value.eq, marker, eq_comm]
  | none | bool _ | int _ | float _ | list _ | tuple _ | dict _ | other _ => simp [Value.eq, Value.number, Value.numberEq, marker]

/-- The answers that are not the marker. -/
def others (python : Python φ ω) (possibleAnswer : List (Value φ ω)) : List (Value φ ω) :=
  possibleAnswer.filter (fun answer => !answer.eq python marker)

theorem mem_others {answer : Value φ ω} : answer ∈ others python possibleAnswer ↔ answer ∈ possibleAnswer ∧ answer ≠ marker := by
  rw [others, List.mem_filter, Bool.not_eq_true', ← Bool.not_eq_true, eq_marker]

theorem others_marker : others python (marker :: possibleAnswer) = others python possibleAnswer :=
  List.filter_cons_of_neg (by simp [eq_marker])

theorem others_cons {answer : Value φ ω} (other : answer ≠ marker) :
    others python (answer :: possibleAnswer) = answer :: others python possibleAnswer :=
  List.filter_cons_of_pos (by rw [Bool.not_eq_true', ← Bool.not_eq_true, eq_marker]; exact other)

/-- An answer without items is reached before one that has no length. -/
def ReachesEmpty (python : Python φ ω) : List (Value φ ω) → Prop
  | [] => False
  | answer :: possibleAnswer =>
    answer.len python = .ok 0 ∨ (∃ count, answer.len python = .ok (count + 1)) ∧ ReachesEmpty python possibleAnswer

/-- When the marker is all that a value matches. -/
def TakesMarker (python : Python φ ω) (value : Value φ ω) (possibleAnswer : List (Value φ ω)) : Comparison → Prop
  | .dict => False
  | .listDict => value = .list [] ∧ ReachesEmpty python possibleAnswer ∧ ¬ ReachesEmpty python (others python possibleAnswer)
  | .string => ∃ text, value = .str text ∧ standardizeString python text = standardizeString python [] ∧
      ∀ other, .str other ∈ others python possibleAnswer → standardizeString python other ≠ standardizeString python []
  | .list => value = .list [] ∧
      ∀ answer ∈ others python possibleAnswer, ∃ first rest, answer.elements python = .ok (first :: rest)
  | .others => value = marker

theorem dictAnswers_others {result : Verdict} :
    dictAnswers python value result (others python possibleAnswer) = dictAnswers python value result possibleAnswer := by
  induction possibleAnswer generalizing result with
  | nil => rfl
  | cons answer possibleAnswer ih =>
    by_cases same : answer = marker
    · rw [same, others_marker, ih, dictAnswers, if_pos ((eq_marker _).mpr rfl)]
    · have different : ¬ answer.eq python marker = true := fun equal => same ((eq_marker _).mp equal)
      rw [others_cons same, dictAnswers, dictAnswers, if_neg different, if_neg different]
      simp only [ih]

theorem mem_standardizedTexts {standardized : Text} : standardized ∈ standardizedTexts python possibleAnswer ↔
      ∃ text, .str text ∈ possibleAnswer ∧ standardizeString python text = standardized := by
  induction possibleAnswer with
  | nil => simp [standardizedTexts]
  | cons answer possibleAnswer ih =>
    cases answer with
    | str text => simp [standardizedTexts, ih, eq_comm, or_and_right, exists_or]
    | none | bool _ | int _ | float _ | list _ | tuple _ | dict _ | other _ => simp [standardizedTexts, ih]

theorem stringChecker_iff {text : Text} : stringChecker python param (.str text) possibleAnswer = .ok .valid ↔
      ∃ other, .str other ∈ possibleAnswer ∧ standardizeString python other = standardizeString python text := by
  rw [stringChecker, ← mem_standardizedTexts, ← List.contains_iff_mem]
  split
  · next inside => exact iff_of_true rfl inside
  · next outside => exact iff_of_false (fun valid => by cases valid) outside

theorem standardizedElements_ok {answer : Value φ ω} {standardized : List (Value φ ω)} :
    standardizedElements python answer = .ok standardized ↔
      ∃ items, answer.elements python = .ok items ∧ items.map (standardize python) = standardized := by
  rw [standardizedElements, bind_eq_ok]
  simp only [pure, Except.pure, Except.ok.injEq]

theorem standardizedElements_marker : standardizedElements python (marker : Value φ ω) = .ok [] :=
  rfl

variable {items : List (Value φ ω)}

theorem listChecker_iff : listChecker python param (.list items) possibleAnswer = .ok .valid ↔
      (∀ answer ∈ possibleAnswer, ∃ standardized, standardizedElements python answer = .ok standardized) ∧
        ∃ answer ∈ possibleAnswer, ∃ standardized, standardizedElements python answer = .ok standardized ∧
          Value.eqList python (items.map (standardize python)) standardized = true := by
  rw [← mapM_ok_iff]
  have unfolded : listChecker python param (.list items) possibleAnswer =
      (possibleAnswer.mapM (standardizedElements python) >>= fun standardized =>
        if standardized.any (Value.eqList python (items.map (standardize python))) then .ok .valid
        else .ok (.invalid ⟨[invalidValue python param (.list items) possibleAnswer ".".toList], .valueList⟩)) := rfl
  rw [unfolded, bind_eq_ok]
  constructor
  · rintro ⟨standardized, returned, checked⟩
    refine ⟨⟨standardized, returned⟩, ?_⟩
    split at checked
    · next found =>
      obtain ⟨elements, inside, same⟩ := List.any_eq_true.mp found
      obtain ⟨answer, member, from_answer⟩ := forall₂_right (mapM_succeeded returned) inside
      exact ⟨answer, member, elements, from_answer, same⟩
    · cases checked
  · rintro ⟨⟨standardized, returned⟩, answer, member, elements, from_answer, same⟩
    refine ⟨standardized, returned, if_pos (List.any_eq_true.mpr ?_)⟩
    obtain ⟨other, inside, again⟩ := forall₂_left (mapM_succeeded returned) member
    cases from_answer.symm.trans again
    exact ⟨elements, inside, same⟩

theorem eqList_nil : Value.eqList python [] items = true ↔ items = [] := by
  cases items <;> simp [Value.eqList]

theorem listChecker_marker (marked : marker ∈ possibleAnswer) :
    (listChecker python param (.list items) possibleAnswer = .ok .valid ∧
        listChecker python param (.list items) (others python possibleAnswer) ≠ .ok .valid) ↔
      TakesMarker python (.list items) possibleAnswer .list := by
  rw [listChecker_iff, Ne, listChecker_iff, TakesMarker]
  constructor
  · rintro ⟨⟨returns, answer, member, elements, from_answer, same⟩, unmatched⟩
    have others_return : ∀ answer ∈ others python possibleAnswer, ∃ standardized, standardizedElements python answer = .ok standardized :=
      fun answer inside => returns answer (mem_others.mp inside).1
    have taken : answer = marker := by
      by_contra other
      exact unmatched ⟨others_return, answer, mem_others.mpr ⟨member, other⟩, elements, from_answer, same⟩
    rw [taken, standardizedElements_marker] at from_answer
    cases from_answer
    have empty : items = [] := by
      cases items with
      | nil => rfl
      | cons item items => cases same
    refine ⟨congrArg _ empty, ?_⟩
    intro answer inside
    obtain ⟨standardized, returned⟩ := others_return answer inside
    obtain ⟨elements, listed, shown⟩ := standardizedElements_ok.mp returned
    cases elements with
    | nil => exact (unmatched ⟨others_return, answer, inside, standardized, returned, by rw [empty, ← shown]; rfl⟩).elim
    | cons first rest => exact ⟨first, rest, listed⟩
  · rintro ⟨empty, different⟩
    cases empty
    have others_return : ∀ answer ∈ others python possibleAnswer, ∃ first rest, standardizedElements python answer = .ok (first :: rest) := by
      intro answer inside
      obtain ⟨first, rest, listed⟩ := different answer inside
      exact ⟨_, _, standardizedElements_ok.mpr ⟨first :: rest, listed, rfl⟩⟩
    refine ⟨⟨?_, marker, marked, [], standardizedElements_marker, rfl⟩, ?_⟩
    · intro answer inside
      by_cases same : answer = marker
      · exact ⟨[], same ▸ standardizedElements_marker⟩
      · obtain ⟨first, rest, returned⟩ := others_return answer (mem_others.mpr ⟨inside, same⟩)
        exact ⟨_, returned⟩
    · rintro ⟨_, answer, inside, elements, returned, same⟩
      obtain ⟨first, rest, listed⟩ := others_return answer inside
      cases returned.symm.trans listed
      exact absurd (eqList_nil.mp same) (List.cons_ne_nil _ _)

theorem stringChecker_marker {text : Text} (marked : marker ∈ possibleAnswer) :
    (stringChecker python param (.str text) possibleAnswer = .ok .valid ∧
        stringChecker python param (.str text) (others python possibleAnswer) ≠ .ok .valid) ↔
      TakesMarker python (.str text) possibleAnswer .string := by
  rw [stringChecker_iff, Ne, stringChecker_iff, TakesMarker]
  constructor
  · rintro ⟨⟨other, member, same⟩, unmatched⟩
    have taken : (Value.str other : Value φ ω) = marker := by
      by_contra different
      exact unmatched ⟨other, mem_others.mpr ⟨member, different⟩, same⟩
    cases taken
    exact ⟨text, rfl, same.symm, fun other inside equal => unmatched ⟨other, inside, equal.trans same⟩⟩
  · rintro ⟨_, equal, same, different⟩
    cases equal
    exact ⟨⟨[], marked, same.symm⟩, fun ⟨other, inside, equal⟩ => different other inside (equal.trans same)⟩

theorem within_marker (marked : marker ∈ possibleAnswer) :
    (within python value possibleAnswer = true ∧ ¬ within python value (others python possibleAnswer) = true) ↔ value = marker := by
  simp only [within, List.any_eq_true]
  constructor
  · rintro ⟨⟨answer, member, same⟩, unmatched⟩
    have taken : answer = marker := by
      by_contra other
      exact unmatched ⟨answer, mem_others.mpr ⟨member, other⟩, same⟩
    exact (eq_marker value).mp (taken ▸ same)
  · rintro rfl
    refine ⟨⟨marker, marked, (eq_marker _).mpr rfl⟩, ?_⟩
    rintro ⟨answer, inside, same⟩
    exact (mem_others.mp inside).2 ((marker_eq answer).mp same)

theorem listDictAnswers_nil {result : Verdict} (rejected : result ≠ .valid) :
    listDictAnswers python (.list []) result possibleAnswer = .ok .valid ↔ ReachesEmpty python possibleAnswer := by
  induction possibleAnswer generalizing result with
  | nil => exact iff_of_false (fun valid => rejected (Except.ok.inj valid)) id
  | cons answer possibleAnswer ih =>
    rw [listDictAnswers, ReachesEmpty]
    cases answer.len python with
    | error crash => exact iff_of_false (fun valid => by cases valid) (by simp)
    | ok count =>
      cases count with
      | zero => exact iff_of_true rfl (.inl rfl)
      | succ count =>
        rw [or_iff_right (by simp), and_iff_right ⟨count, rfl⟩]
        exact ih (by simp)

theorem listDictAnswers_others {item : Value φ ω} {result result' : Verdict}
    (rejected : result ≠ .valid) (rejected' : result' ≠ .valid) :
    listDictAnswers python (.list (item :: items)) result possibleAnswer = .ok .valid ↔
      listDictAnswers python (.list (item :: items)) result' (others python possibleAnswer) = .ok .valid := by
  induction possibleAnswer generalizing result result' with
  | nil => exact iff_of_false (fun valid => rejected (Except.ok.inj valid)) (fun valid => rejected' (Except.ok.inj valid))
  | cons answer possibleAnswer ih =>
    by_cases same : answer = marker
    · have skipped : listDictAnswers python (.list (item :: items)) result (marker :: possibleAnswer) =
          listDictAnswers python (.list (item :: items))
            (.invalid ⟨["Wrong number of dictionaries in the list.".toList], .listDictCount⟩) possibleAnswer := rfl
      rw [same, others_marker, skipped]
      exact ih (by simp) rejected'
    · rw [others_cons same, listDictAnswers, listDictAnswers]
      cases answer.len python with
      | error crash => exact Iff.rfl
      | ok count =>
        simp only [Value.len, ok_bind]
        split
        · exact ih (by simp) (by simp)
        · cases checkDicts python (.list (item :: items)) answer (List.range (item :: items).length) with
          | error crash => exact Iff.rfl
          | ok verdict =>
            cases verdict with
            | valid => exact Iff.rfl
            | invalid rejection => exact ih (by simp) (by simp)

theorem listDictChecker_marker : (listDictChecker python (.list items) possibleAnswer = .ok .valid ∧
        listDictChecker python (.list items) (others python possibleAnswer) ≠ .ok .valid) ↔
      TakesMarker python (.list items) possibleAnswer .listDict := by
  have rejected : Verdict.invalid ⟨[], .listDictUnclear⟩ ≠ .valid := by simp
  cases items with
  | nil =>
    rw [listDictChecker, listDictChecker, Ne, listDictAnswers_nil rejected, listDictAnswers_nil rejected, TakesMarker,
      and_iff_right rfl]
  | cons item items =>
    apply iff_of_false
    · rintro ⟨valid, unmatched⟩
      exact unmatched ((listDictAnswers_others rejected rejected).mp valid)
    · rintro ⟨equal, _⟩
      cases equal

def Fits (value : Value φ ω) : Comparison → Prop
  | .dict => True
  | .listDict => ∃ items, value = .list items
  | .string => ∃ text, value = .str text
  | .list => ∃ items, value = .list items
  | .others => True

theorem type_list (listed : value.type python = .list) : ∃ items, value = .list items := by
  cases value with
  | list items => exact ⟨items, rfl⟩
  | none | bool _ | int _ | float _ | str _ | tuple _ | dict _ | other _ => cases listed

theorem type_str (listed : value.type python = .str) : ∃ text, value = .str text := by
  cases value with
  | str text => exact ⟨text, rfl⟩
  | none | bool _ | int _ | float _ | list _ | tuple _ | dict _ | other _ => cases listed

theorem simpleTypeChecker_type {description : Text} {expected : PyType}
    (checked : simpleTypeChecker python param value possibleAnswer description expected = .ok false) :
    value.type python = expected := by
  rw [simpleTypeChecker] at checked
  split at checked
  · next same => exact same
  · split at checked <;> cases checked

theorem typeChecker_type {description : Text} {expected : PyType} {nested : Option PyType}
    (checked : typeChecker python param value possibleAnswer description expected nested = .ok false) :
    value.type python = expected := by
  cases nested with
  | none => exact simpleTypeChecker_type checked
  | some nested =>
    cases value with
    | list items =>
      rw [typeChecker] at checked
      split at checked
      · next same => exact same.symm
      · exact simpleTypeChecker_type checked
    | none | bool _ | int _ | float _ | str _ | tuple _ | dict _ | other _ => exact simpleTypeChecker_type checked

theorem typeChecker_fits {description : Text} {expected : PyType} {nested : Option PyType} {varies : Bool}
    (checked : typeChecker python param value possibleAnswer description expected nested = .ok varies) :
    Fits value (comparison expected nested varies) := by
  rw [comparison]
  cases varies with
  | true => exact trivial
  | false =>
    have type := typeChecker_type checked
    rw [if_neg Bool.false_ne_true]
    split
    · exact trivial
    · split
      · next listed => exact type_list (type.trans listed.1)
      · split
        · next text => exact type_str (type.trans text)
        · split
          · next listed => exact type_list (type.trans listed)
          · exact trivial

/-- A value that is accepted matches another answer unless the marker is all that it matches. -/
theorem compare_marker {against : Comparison} (fits : Fits value against) (marked : marker ∈ possibleAnswer) :
    (compare python param value possibleAnswer against = .ok .valid ∧
        compare python param value (others python possibleAnswer) against ≠ .ok .valid) ↔
      TakesMarker python value possibleAnswer against := by
  cases against with
  | dict =>
    refine iff_of_false ?_ id
    rintro ⟨valid, unmatched⟩
    exact unmatched (dictAnswers_others.trans valid)
  | listDict =>
    obtain ⟨items, rfl⟩ := fits
    exact listDictChecker_marker
  | string =>
    obtain ⟨text, rfl⟩ := fits
    exact stringChecker_marker marked
  | list =>
    obtain ⟨items, rfl⟩ := fits
    exact listChecker_marker marked
  | others =>
    have matched : ∀ answers, compare python param value answers .others = .ok .valid ↔ within python value answers = true := by
      intro answers
      rw [compare]
      split
      · next inside => exact iff_of_true rfl inside
      · next outside => exact iff_of_false (fun valid => by cases valid) outside
    rw [Ne, matched, matched]
    exact within_marker marked

variable {language : Language} {details : ParamDetails} {name : Text}

/-- A value that gets as far as being compared. -/
structure Compared (python : Python φ ω) (language : Language) (param value : Value φ ω) (details : ParamDetails)
    (possibleAnswer : List (Value φ ω)) where
  shown : Typed φ ω
  prepared : typed python language param value details = .ok (.ok shown)
  varies : Bool
  checked : typeChecker python param shown.value possibleAnswer shown.description shown.expected shown.nested = .ok varies

/-- With what it is compared. -/
def Compared.against (compared : Compared python language param value details possibleAnswer) : Comparison :=
  comparison compared.shown.expected compared.shown.nested compared.varies

theorem Compared.unique (first second : Compared python language param value details possibleAnswer) : first = second := by
  obtain ⟨shown, prepared, varies, checked⟩ := first
  obtain ⟨shown', prepared', varies', checked'⟩ := second
  cases prepared.symm.trans prepared'
  cases checked.symm.trans checked'
  rfl

/-- The value matches one of the answers, without the marker. -/
def MatchesOther (python : Python φ ω) (language : Language) (param value : Value φ ω) (details : ParamDetails)
    (possibleAnswer : List (Value φ ω)) : Prop :=
  ∃ compared : Compared python language param value details possibleAnswer,
    compare python param compared.shown.value (others python possibleAnswer) compared.against = .ok .valid

/-- The marker is all that the value matches. -/
def OnlyMarker (python : Python φ ω) (language : Language) (param value : Value φ ω) (details : ParamDetails)
    (possibleAnswer : List (Value φ ω)) : Prop :=
  ∃ compared : Compared python language param value details possibleAnswer,
    TakesMarker python compared.shown.value possibleAnswer compared.against

theorem checkParam_iff : checkParam python language param value details possibleAnswer = .ok .valid ↔
      ∃ compared : Compared python language param value details possibleAnswer,
        compare python param compared.shown.value possibleAnswer compared.against = .ok .valid := by
  rw [checkParam, bind_eq_ok]
  constructor
  · rintro ⟨prepared, returned, valid⟩
    cases prepared with
    | error rejection => cases valid
    | ok shown =>
      dsimp only at valid
      cases checked : typeChecker python param shown.value possibleAnswer shown.description shown.expected shown.nested with
      | error rejection =>
        rw [checked] at valid
        cases valid
      | ok varies =>
        rw [checked] at valid
        exact ⟨⟨shown, returned, varies, checked⟩, valid⟩
  · rintro ⟨compared, valid⟩
    refine ⟨.ok compared.shown, compared.prepared, ?_⟩
    dsimp only
    rw [compared.checked]
    exact valid

theorem checkParam_marker (marked : marker ∈ possibleAnswer) :
    (checkParam python language param value details possibleAnswer = .ok .valid →
        MatchesOther python language param value details possibleAnswer) ↔
      ¬ OnlyMarker python language param value details possibleAnswer := by
  rw [checkParam_iff]
  constructor
  · rintro matched ⟨compared, taken⟩
    obtain ⟨valid, unmatched⟩ := (compare_marker (typeChecker_fits compared.checked) marked).mpr taken
    obtain ⟨again, matched⟩ := matched ⟨compared, valid⟩
    rw [again.unique compared] at matched
    exact unmatched matched
  · rintro unmarked ⟨compared, valid⟩
    refine ⟨compared, ?_⟩
    by_contra unmatched
    exact unmarked ⟨compared, (compare_marker (typeChecker_fits compared.checked) marked).mp ⟨valid, unmatched⟩⟩

theorem checkParams_mem {paramDetails : List (Text × ParamDetails)} {answers : Answers φ ω} {modelParams : Params φ ω}
    (valid : checkParams python language paramDetails answers modelParams = .ok .valid)
    (supplied : (some name, value) ∈ modelParams) (described : Dictionary.get paramDetails name = some details)
    (answered : Dictionary.get answers name = some possibleAnswer) :
    checkParam python language (.str name) value details possibleAnswer = .ok .valid := by
  induction modelParams with
  | nil => exact (List.not_mem_nil supplied).elim
  | cons entry modelParams ih =>
    rw [checkParams] at valid
    split at valid
    · next first second found found' =>
      obtain ⟨verdict, checked, valid⟩ := bind_eq_ok.mp valid
      cases verdict with
      | invalid rejection => cases valid
      | valid =>
        cases supplied with
        | head =>
          cases found.symm.trans described
          cases found'.symm.trans answered
          exact checked
        | tail _ later => exact ih valid later
    · cases valid

/-- A call supplies a value of a parameter. -/
structure Supplies (description : FunctionDescription) (modelOutput : List (Text × Params φ ω))
    (answer : List (Text × Answers φ ω)) (name : Text) (value : Value φ ω) (details : ParamDetails)
    (possibleAnswer : List (Value φ ω)) : Prop where
  supplied : ∃ modelParams, Dictionary.get modelOutput description.name = some modelParams ∧
    Dictionary.get modelParams (some name) = some value
  described : Dictionary.get description.properties name = some details
  answered : ∃ first rest, answer = first :: rest ∧ Dictionary.get first.2 name = some possibleAnswer

theorem simpleFunctionChecker_param {description : FunctionDescription} {modelOutput : List (Text × Params φ ω)}
    {answer : List (Text × Answers φ ω)} (supplies : Supplies description modelOutput answer name value details possibleAnswer)
    (valid : simpleFunctionChecker python (some description) modelOutput answer language = .ok .valid) :
    checkParam python language (.str name) value details possibleAnswer = .ok .valid := by
  obtain ⟨modelParams, called, supplied⟩ := supplies.supplied
  obtain ⟨first, rest, rfl, answered⟩ := supplies.answered
  rw [simpleFunctionChecker, called] at valid
  dsimp only at valid
  split at valid
  · cases valid
  · obtain ⟨verdict, checked, valid⟩ := bind_eq_ok.mp valid
    cases verdict with
    | invalid rejection => cases valid
    | valid => exact checkParams_mem checked (Dictionary.get_some_mem supplied) supplies.described answered

theorem simpleFunctionChecker_single (funcName : Text)
    (valid : checkParam python language (.str name) value details possibleAnswer = .ok .valid) :
    simpleFunctionChecker python (some ⟨funcName, [(name, details)], []⟩) [(funcName, [(some name, value)])]
      [(funcName, [(name, possibleAnswer)])] language = .ok .valid := by
  have checked : checkParams python language [(name, details)] [(name, possibleAnswer)] [(some name, value)] = .ok .valid := by
    simp [checkParams, Dictionary.get, paramValue, valid, ok_bind]
  simp [simpleFunctionChecker, Dictionary.get, checked, missingOptional, ok_bind]
  rfl

/-- Accepted calls match another answer than the marker exactly when the marker is not all that the
value matches. -/
theorem simpleFunctionChecker_marker_iff (python : Python φ ω) (language : Language) (name : Text) (value : Value φ ω)
    (details : ParamDetails) (possibleAnswer : List (Value φ ω)) (marked : marker ∈ possibleAnswer) :
    (∀ (description : FunctionDescription) (modelOutput : List (Text × Params φ ω)) (answer : List (Text × Answers φ ω)),
        Supplies description modelOutput answer name value details possibleAnswer →
        simpleFunctionChecker python (some description) modelOutput answer language = .ok .valid →
        MatchesOther python language (.str name) value details possibleAnswer) ↔
      ¬ OnlyMarker python language (.str name) value details possibleAnswer := by
  rw [← checkParam_marker marked]
  constructor
  · intro matched valid
    refine matched ⟨[], [(name, details)], []⟩ [([], [(some name, value)])] [([], [(name, possibleAnswer)])] ?_
      (simpleFunctionChecker_single [] valid)
    exact ⟨⟨_, rfl, if_pos rfl⟩, if_pos rfl, _, _, rfl, if_pos rfl⟩
  · intro matched description modelOutput answer supplies valid
    exact matched (simpleFunctionChecker_param supplies valid)

def stringDetails : ParamDetails := ⟨some "string".toList, none⟩

/-- `["", "red"]` -/
def colours : List (Value Empty Empty) := [marker, .str "red".toList]

def comparedText (text : Text) : Compared plain .python (.str paramName) (.str text) stringDetails colours :=
  ⟨⟨.str text, "string".toList, .str, none⟩, rfl, false, rfl⟩

theorem simpleFunctionChecker_red :
    ¬ OnlyMarker plain .python (.str paramName) (.str "red".toList) stringDetails colours ∧
      ∀ (description : FunctionDescription) (modelOutput : List (Text × Params Empty Empty)) (answer : List (Text × Answers Empty Empty)),
        Supplies description modelOutput answer paramName (.str "red".toList) stringDetails colours →
        simpleFunctionChecker plain (some description) modelOutput answer .python = .ok .valid →
        MatchesOther plain .python (.str paramName) (.str "red".toList) stringDetails colours := by
  have unmarked : ¬ OnlyMarker plain .python (.str paramName) (.str "red".toList) stringDetails colours := by
    rintro ⟨compared, taken⟩
    rw [compared.unique (comparedText _)] at taken
    obtain ⟨text, same, empty, _⟩ := taken
    cases same
    exact absurd empty (by decide)
  refine ⟨unmarked, ?_⟩
  exact (simpleFunctionChecker_marker_iff plain .python paramName (.str "red".toList) stringDetails colours List.mem_cons_self).mpr unmarked

/-- A dash is accepted as a colour. -/
theorem simpleFunctionChecker_dash :
    simpleFunctionChecker plain (some ⟨funcName, [(paramName, stringDetails)], []⟩) [(funcName, [(some paramName, .str ['-'])])]
        [(funcName, [(paramName, colours)])] .python = .ok .valid ∧
      ¬ MatchesOther plain .python (.str paramName) (.str ['-']) stringDetails colours := by
  constructor
  · rfl
  · rintro ⟨compared, matched⟩
    rw [compared.unique (comparedText _)] at matched
    have listed : stringChecker plain (.str paramName) (.str ['-']) [.str "red".toList] = .ok .valid := matched
    exact absurd listed (by decide)

end LLMFusion.BfclChecker
