import LLMFusion.SandboxFusion
import Mathlib.Data.List.Count
import Mathlib.Algebra.Field.Rat

/-! The results do not depend on the order in which the calls complete: a case has its own outcome unless an earlier case ended
in a compile error. -/

namespace LLMFusion.SandboxFusion
open List

variable {J : Type} {python : Python J} {outcome : Case J → Outcome J} {cases : List (Case J)}

/-! ### The outcome of a case -/

/-- The result of a case by itself. -/
def ownResult (outcome : Case J → Outcome J) (case : Case J) : Result :=
  match outcome case with
  | .ok (resultStatus, _) => resultStatus
  | .error _ => .code (-1)

def ownMetadata (python : Python J) (outcome : Case J → Outcome J) (index : Nat) (case : Case J) : Metadata J :=
  match outcome case with
  | .ok (_, metadata) => metadata
  | .error exc => internalError python index case.stdinData case.expectedOutput exc

def FailsAt (outcome : Case J → Outcome J) (cases : List (Case J)) (index : Nat) : Prop :=
  ∃ case, cases[index]? = some case ∧ ownResult outcome case = compileError

/-- Some case before an index does. -/
def FailedBefore (outcome : Case J → Outcome J) (cases : List (Case J)) (index : Nat) : Prop :=
  ∃ case ∈ cases.take index, ownResult outcome case = compileError

instance (index : Nat) : Decidable (FailedBefore outcome cases index) :=
  inferInstanceAs (Decidable (∃ case ∈ cases.take index, ownResult outcome case = compileError))

variable {index : Nat}

theorem failedBefore_iff : FailedBefore outcome cases index ↔ ∃ place < index, FailsAt outcome cases place := by
  constructor
  · rintro ⟨case, member, failed⟩
    obtain ⟨place, found⟩ := mem_iff_getElem?.mp member
    rw [List.getElem?_take] at found
    split at found
    · next before => exact ⟨place, before, case, found, failed⟩
    · cases found
  · rintro ⟨place, before, case, found, failed⟩
    refine ⟨case, mem_iff_getElem?.mpr ⟨place, ?_⟩, failed⟩
    rw [List.getElem?_take_of_lt before, found]

/-! ### Recording -/

/-- The completed cases are recorded, and so is the first compile error among them. -/
structure Recorded (python : Python J) (outcome : Case J → Outcome J) (cases : List (Case J)) (done : List Nat)
    (progress : Progress J) : Prop where
  results : ∀ i, progress.results[i]? =
    cases[i]?.map (fun case => if i ∈ done then some (ownResult outcome case) else none)
  metadataList : ∀ i, progress.metadataList[i]? =
    cases[i]?.map (fun case => if i ∈ done then some (ownMetadata python outcome i case) else none)
  least : ∀ first, progress.firstCompileErrorIndex = some first →
    FailsAt outcome cases first ∧ ∀ i ∈ done, FailsAt outcome cases i → first ≤ i
  clean : progress.firstCompileErrorIndex = none → ∀ i ∈ done, ¬ FailsAt outcome cases i

theorem start_recorded : Recorded python outcome cases [] (start cases.length) := by
  have blank : ∀ {α : Type} (i : Nat), (replicate cases.length (none : Option α))[i]? =
      cases[i]?.map (fun _ => none) := by
    intro α i
    rw [List.getElem?_replicate]
    split
    · next inside => rw [List.getElem?_eq_getElem inside, Option.map_some]
    · next outside => rw [List.getElem?_eq_none (Nat.le_of_not_lt outside), Option.map_none]
  exact ⟨fun i => (blank i).trans (by simp), fun i => (blank i).trans (by simp),
    fun _ found => (by cases found),
    fun _ _ member => (not_mem_nil member).elim⟩

variable {done : List Nat}

theorem set_recorded {α : Type} {items : List (Option α)} (value : Nat → Case J → α)
    (recorded : ∀ i, items[i]? = cases[i]?.map (fun case => if i ∈ done then some (value i case) else none))
      {case : Case J} (found : cases[index]? = some case) (i : Nat) :
    (items.set index (some (value index case)))[i]? =
      cases[i]?.map (fun case => if i ∈ index :: done then some (value i case) else none) := by
  rw [List.getElem?_set]
  split
  · next same =>
    subst same
    have inside : index < items.length := by
      have here := recorded index
      rw [found, Option.map_some] at here
      exact (List.getElem?_eq_some_iff.mp here).1
    rw [if_pos inside, found, Option.map_some, if_pos mem_cons_self]
  · next other =>
    rw [recorded i]
    have same : (i ∈ index :: done) = (i ∈ done) :=
      propext ⟨fun member => (mem_cons.mp member).resolve_left (Ne.symm other), mem_cons_of_mem _⟩
    simp only [same]

theorem complete_found {case : Case J} (found : cases[index]? = some case) (progress : Progress J) :
    complete python outcome cases progress index =
      { results := progress.results.set index (some (ownResult outcome case))
        metadataList := progress.metadataList.set index (some (ownMetadata python outcome index case))
        firstCompileErrorIndex := if ownResult outcome case = compileError then
          some (earliest index progress.firstCompileErrorIndex) else progress.firstCompileErrorIndex } := by
  cases returned : outcome case with
  | error exc =>
    have own : ownResult outcome case = .code (-1) := by rw [ownResult, returned]
    have other : (Result.code (-1)) ≠ compileError := by decide
    simp only [complete, found, ownMetadata, returned, own, if_neg other]
  | ok values =>
    have own : ownResult outcome case = values.1 := by rw [ownResult, returned]
    simp only [complete, found, ownMetadata, returned, own]

variable {progress : Progress J}

theorem complete_recorded
    (recorded : Recorded python outcome cases done progress) (inside : index < cases.length) :
    Recorded python outcome cases (index :: done) (complete python outcome cases progress index) := by
  have found := List.getElem?_eq_getElem inside
  rw [complete_found found]
  refine ⟨set_recorded (fun _ => ownResult outcome) recorded.results found,
    set_recorded (ownMetadata python outcome) recorded.metadataList found, ?_, ?_⟩
  · intro first least
    by_cases failed : ownResult outcome cases[index] = compileError
    · have here : FailsAt outcome cases index := ⟨_, found, failed⟩
      rw [if_pos failed, Option.some.injEq] at least
      cases before : progress.firstCompileErrorIndex with
      | none =>
        rw [before, earliest] at least
        subst least
        refine ⟨here, fun i member fails => ?_⟩
        rcases mem_cons.mp member with rfl | earlier
        · exact Nat.le_refl _
        · exact (recorded.clean before i earlier fails).elim
      | some other =>
        obtain ⟨fails, smallest⟩ := recorded.least other before
        rw [before, earliest] at least
        split at least
        · next smaller =>
          subst least
          refine ⟨here, fun i member failsThere => ?_⟩
          rcases mem_cons.mp member with rfl | earlier
          · exact Nat.le_refl _
          · exact Nat.le_of_lt (Nat.lt_of_lt_of_le smaller (smallest i earlier failsThere))
        · next larger =>
          subst least
          refine ⟨fails, fun i member failsThere => ?_⟩
          rcases mem_cons.mp member with rfl | earlier
          · exact Nat.le_of_not_lt larger
          · exact smallest i earlier failsThere
    · rw [if_neg failed] at least
      obtain ⟨fails, smallest⟩ := recorded.least first least
      refine ⟨fails, fun i member failsThere => ?_⟩
      rcases mem_cons.mp member with rfl | earlier
      · obtain ⟨case, same, error⟩ := failsThere
        rw [found, Option.some.injEq] at same
        exact (failed (same ▸ error)).elim
      · exact smallest i earlier failsThere
  · intro none i member failsThere
    by_cases failed : ownResult outcome cases[index] = compileError
    · rw [if_pos failed] at none
      cases none
    · rw [if_neg failed] at none
      rcases mem_cons.mp member with rfl | earlier
      · obtain ⟨case, same, error⟩ := failsThere
        rw [found, Option.some.injEq] at same
        exact failed (same ▸ error)
      · exact recorded.clean none i earlier failsThere

theorem foldl_recorded {order done : List Nat}
    (recorded : Recorded python outcome cases done progress) (inside : ∀ index ∈ order, index < cases.length) :
    Recorded python outcome cases (order.reverse ++ done)
        (order.foldl (complete python outcome cases) progress) := by
  induction order generalizing done progress with
  | nil => exact recorded
  | cons index order ih =>
    have next := ih (complete_recorded recorded (inside index mem_cons_self))
      (fun other member => inside other (mem_cons_of_mem _ member))
    rw [reverse_cons, append_assoc]
    exact next

/-! ### Rewriting -/

/-- `metadata["status"] = "compile_error_skipped"` -/
def skipped (metadata : Metadata J) : Metadata J :=
  Indexing.insert "status" (.text "compile_error_skipped") metadata

/-- The cases after the first compile error and before an index are rewritten, the others are as recorded. -/
structure Rewritten (python : Python J) (outcome : Case J → Outcome J) (cases : List (Case J))
    (first stop : Nat)
    (progress : Progress J) : Prop where
  results : ∀ i, progress.results[i]? = cases[i]?.map (fun case =>
    some (if first < i ∧ i < stop then compileError else ownResult outcome case))
  metadataList : ∀ i, progress.metadataList[i]? = cases[i]?.map (fun case =>
    some (if first < i ∧ i < stop ∧ ownResult outcome case ≠ compileError then skipped
      (ownMetadata python outcome i case)
      else ownMetadata python outcome i case))

theorem skip_rewritten {first stop : Nat} (rewritten : Rewritten python outcome cases first stop progress)
    (after : first < stop) (inside : stop < cases.length) :
    Rewritten python outcome cases first (stop + 1) (skip python cases progress stop) := by
  have found := List.getElem?_eq_getElem inside
  have result : progress.results[stop]? = some (some (ownResult outcome cases[stop])) := by
    rw [rewritten.results stop, found, Option.map_some, if_neg (fun within => Nat.lt_irrefl _ within.2)]
  have metadata : progress.metadataList[stop]? = some (some (ownMetadata python outcome stop cases[stop])) := by
    rw [rewritten.metadataList stop, found, Option.map_some, if_neg (fun within => Nat.lt_irrefl _ within.2.1)]
  have elsewhere : ∀ i, i ≠ stop → ((first < i ∧ i < stop + 1) ↔ (first < i ∧ i < stop)) := by
    intro i other
    omega
  simp only [skip, found]
  by_cases failed : ownResult outcome cases[stop] = compileError
  · have same : progress.results[stop]? = some (some compileError) := by rw [result, failed]
    rw [if_neg (not_not_intro same)]
    constructor
    · intro i
      rw [rewritten.results i]
      by_cases here : i = stop
      · subst here
        rw [found, Option.map_some, Option.map_some, failed, ite_self, ite_self]
      · simp only [elsewhere i here]
    · intro i
      rw [rewritten.metadataList i]
      by_cases here : i = stop
      · subst here
        rw [found, Option.map_some, Option.map_some, if_neg (fun within => within.2.2 failed),
          if_neg (fun within => within.2.2 failed)]
      · simp only [← and_assoc, elsewhere i here]
  · have other : progress.results[stop]? ≠ some (some compileError) := by
      rw [result]
      exact fun same => failed (Option.some.inj (Option.some.inj same))
    rw [if_pos other]
    constructor
    · intro i
      rw [List.getElem?_set]
      split
      · next here =>
        subst here
        rw [if_pos (List.getElem?_eq_some_iff.mp result).1, found, Option.map_some,
          if_pos ⟨after, Nat.lt_succ_self _⟩]
      · next there =>
        rw [rewritten.results i]
        simp only [elsewhere i (Ne.symm there)]
    · intro i
      rw [List.getElem?_set]
      split
      · next here =>
        subst here
        rw [if_pos (List.getElem?_eq_some_iff.mp metadata).1, found, Option.map_some,
          if_pos ⟨after, Nat.lt_succ_self _, failed⟩, metadata]
        rfl
      · next there =>
        rw [rewritten.metadataList i]
        simp only [← and_assoc, elsewhere i (Ne.symm there)]

theorem foldl_rewritten {first : Nat} (size : Nat)
    (rewritten : Rewritten python outcome cases first (first + 1) progress) (inside : first + 1 + size ≤ cases.length) :
    Rewritten python outcome cases first (first + 1 + size)
      ((range' (first + 1) size).foldl (skip python cases) progress) := by
  induction size with
  | zero => exact rewritten
  | succ size ih =>
    rw [range'_1_concat, foldl_append]
    have inner := ih (by omega)
    exact skip_rewritten inner (show first < first + 1 + size by omega)
      (show first + 1 + size < cases.length by omega)

/-! ### The results -/

/-- The case's own result, unless a case before it ended in a compile error. -/
def finalResult (outcome : Case J → Outcome J) (cases : List (Case J)) (i : Nat) (case : Case J) : Result :=
  if FailedBefore outcome cases i then compileError else ownResult outcome case

/-- The case's own metadata; the status tells of a result that is rewritten. -/
def finalMetadata (python : Python J) (outcome : Case J → Outcome J) (cases : List (Case J)) (i : Nat)
    (case : Case J) :
    Metadata J :=
  if FailedBefore outcome cases i ∧ ownResult outcome case ≠ compileError then skipped
    (ownMetadata python outcome i case)
  else ownMetadata python outcome i case

theorem failsAt_inside (fails : FailsAt outcome cases index) : index < cases.length := by
  obtain ⟨case, found, _⟩ := fails
  exact (List.getElem?_eq_some_iff.mp found).1

theorem recorded_all {α : Type} {items : List (Option α)} (value : Nat → Case J → α)
    (recorded : ∀ i, items[i]? = cases[i]?.map (fun case => if i ∈ done then some (value i case) else none))
    (all : ∀ i < cases.length, i ∈ done) (i : Nat) :
        items[i]? = cases[i]?.map (fun case => some (value i case)) := by
  rw [recorded i]
  by_cases inside : i < cases.length
  · simp only [if_pos (all i inside)]
  · rw [List.getElem?_eq_none (Nat.le_of_not_lt inside), Option.map_none, Option.map_none]

theorem postProcess_recorded
    (recorded : Recorded python outcome cases done progress)
    (all : ∀ i < cases.length, i ∈ done) :
    (∀ i, (postProcess python cases progress).results[i]? =
      cases[i]?.map (fun case => some (finalResult outcome cases i case))) ∧
      ∀ i, (postProcess python cases progress).metadataList[i]? =
        cases[i]?.map (fun case => some (finalMetadata python outcome cases i case)) := by
  have results := recorded_all (fun _ => ownResult outcome) recorded.results all
  have metadata := recorded_all (ownMetadata python outcome) recorded.metadataList all
  cases least : progress.firstCompileErrorIndex with
  | none =>
    have clean : ∀ i, ¬ FailedBefore outcome cases i := by
      intro i failed
      obtain ⟨place, _, fails⟩ := failedBefore_iff.mp failed
      exact recorded.clean least place (all place (failsAt_inside fails)) fails
    simp only [postProcess, least, finalResult, finalMetadata, clean, false_and, if_false]
    exact ⟨results, metadata⟩
  | some first =>
    obtain ⟨fails, smallest⟩ := recorded.least first least
    have inside := failsAt_inside fails
    have before : ∀ i, FailedBefore outcome cases i ↔ first < i := by
      intro i
      rw [failedBefore_iff]
      constructor
      · rintro ⟨place, earlier, failsThere⟩
        exact Nat.lt_of_le_of_lt (smallest place (all place (failsAt_inside failsThere)) failsThere) earlier
      · exact fun later => ⟨first, later, fails⟩
    have none : ∀ i, ¬ (first < i ∧ i < first + 1) := fun i => by omega
    have begun : Rewritten python outcome cases first (first + 1) progress := by
      refine ⟨fun i => ?_, fun i => ?_⟩
      · simp only [none i, if_false]
        exact results i
      · simp only [← and_assoc, none i, false_and, if_false]
        exact metadata i
    have ended := foldl_rewritten (cases.length - (first + 1)) begun (by omega)
    have whole : first + 1 + (cases.length - (first + 1)) = cases.length := by omega
    rw [whole] at ended
    have within : ∀ i case, cases[i]? = some case → i < cases.length :=
      fun i case found => (List.getElem?_eq_some_iff.mp found).1
    simp only [postProcess, least]
    refine ⟨fun i => ?_, fun i => ?_⟩
    · rw [ended.results i]
      cases found : cases[i]? with
      | none => rfl
      | some case => simp only [Option.map_some, finalResult, before i, within i case found, and_true]
    · rw [ended.metadataList i]
      cases found : cases[i]? with
      | none => rfl
      | some case => simp only [Option.map_some, finalMetadata, before i, within i case found, true_and]

section Settled
variable (python : Python J) (outcome : Case J → Outcome J) (cases : List (Case J))

def finalResults : List Result := cases.zipIdx.map (fun entry => finalResult outcome cases entry.2 entry.1)

def finalMetadataList : List (Metadata J) := cases.zipIdx.map
    (fun entry => finalMetadata python outcome cases entry.2 entry.1)

theorem settled_eq {α : Type} {items : List (Option α)} {value : Nat → Case J → α}
    (settled : ∀ i, items[i]? = cases[i]?.map (fun case => some (value i case))) :
    items = (cases.zipIdx.map (fun entry => value entry.2 entry.1)).map some := by
  apply ext_getElem?
  intro i
  rw [settled i, List.getElem?_map, List.getElem?_map, List.getElem?_zipIdx, Option.map_map, Option.map_map,
    Nat.zero_add]
  rfl

theorem results_settled {order : List Nat} (every : order.Perm (range cases.length)) :
    (postProcess python cases (order.foldl (complete python outcome cases) (start cases.length))).results =
        (finalResults outcome cases).map some ∧ (postProcess python cases (order.foldl (complete python outcome cases)
        (start cases.length))).metadataList = (finalMetadataList python outcome cases).map some := by
  have begun : Recorded python outcome cases [] (start cases.length) := start_recorded
  have recorded := foldl_recorded begun (fun index member => mem_range.mp (every.mem_iff.mp member))
  have all : ∀ i < cases.length, i ∈ order.reverse ++ [] := by
    intro i inside
    rw [append_nil, mem_reverse]
    exact every.mem_iff.mpr (mem_range.mpr inside)
  obtain ⟨results, metadata⟩ := postProcess_recorded recorded all
  exact ⟨settled_eq cases results, settled_eq cases metadata⟩

end Settled

/-- Inputs and outputs of one length, and as many assertions. -/
structure TestCases.Has (testCases : TestCases J) (inputs outputs : List J) (assertCases : List String) :
    Prop where
  outputs_length : inputs.length = outputs.length
  assertCases_length : assertCases.length = inputs.length
  assertCases : testCases.assertCase.getD (List.replicate inputs.length "") = assertCases
  outputs : testCases.outputs = some outputs
  inputs : testCases.inputs = some inputs

theorem submitted_length {testCases : TestCases J} {inputs outputs : List J} {assertCases : List String}
    (has : testCases.Has inputs outputs assertCases) (generation : String) :
    (submitted inputs outputs assertCases generation).length = inputs.length := by
  rw [submitted, length_map, length_zipIdx, length_zip, length_zip, ← has.outputs_length,
    has.assertCases_length, Nat.min_self, Nat.min_self]

theorem checkCorrectness_settled {testCases : TestCases J} {inputs outputs : List J} {assertCases : List String}
    (has : testCases.Has inputs outputs assertCases) {order : List Nat} (every : order.Perm (range inputs.length))
    (generation : String) : checkCorrectness python outcome order testCases generation =
      ((finalResults outcome (submitted inputs outputs assertCases generation)).map some,
        (finalMetadataList python outcome (submitted inputs outputs assertCases generation)).map some) := by
  have size := submitted_length has generation
  simp only [checkCorrectness, has.inputs, has.outputs, has.assertCases]
  split
  · next none =>
    have empty : submitted inputs outputs assertCases generation = [] :=
      length_eq_zero_iff.mp (size.trans none)
    rw [empty]
    rfl
  · rw [if_neg (not_not_intro has.outputs_length), if_neg (not_not_intro has.assertCases_length), ← size]
    rw [← size] at every
    obtain ⟨results, metadata⟩ := results_settled python outcome _ every
    rw [results, metadata]

theorem scoreOf_settled (passAll : Bool) (results : List Result) :
    scoreOf passAll (results.map some) =
      if passAll then (if results ≠ [] ∧ ∀ result ∈ results, result = .passed then 1 else 0)
      else (results.count .passed : Rat) / results.length := by
  have counted : (results.map some).count (some Result.passed) = results.count .passed :=
    count_map_of_injective results some (Option.some_injective _) .passed
  have whole : results.count .passed = results.length ↔ ∀ result ∈ results, result = .passed :=
    count_eq_length.trans (forall₂_congr (fun _ _ => eq_comm))
  by_cases none : results = []
  · subst none
    cases passAll <;> simp [scoreOf]
  · have some : results.map Option.some ≠ [] := fun empty => none (map_eq_nil_iff.mp empty)
    rw [scoreOf, if_neg some, counted, length_map]
    cases passAll with
    | false => rfl
    | true => simp only [whole, none, ne_eq, not_false_eq_true, true_and, if_true]

/-- The calls may complete in any order: a case has its own outcome unless an earlier case ended in a compile error, and the
score is the fraction of the cases that are `True`; with `pass_all` it tells whether there are cases and all of them are. -/
theorem computeScore_settled (python : Python J) (outcome : Case J → Outcome J) {testCases : TestCases J}
    {inputs outputs : List J}
    {assertCases : List String} (has : testCases.Has inputs outputs assertCases) {order : List Nat}
    (every : order.Perm (List.range inputs.length)) (solution : String) :
    checkCorrectness python outcome order testCases solution =
        ((finalResults outcome (submitted inputs outputs assertCases solution)).map some,
          (finalMetadataList python outcome (submitted inputs outputs assertCases solution)).map some) ∧
      ∀ (jsonLoads : String → Option (TestCases J)) (completion : String) (given : TestCases J ⊕ String)
        (passAll : Bool),
        extractSolution python completion = some solution →
        (given.elim some jsonLoads).bind (completeTestCases python) = some testCases →
        (computeScore python outcome order jsonLoads completion given passAll).1 =
          if passAll then
            (if finalResults outcome (submitted inputs outputs assertCases solution) ≠ [] ∧
              ∀ result ∈ finalResults outcome (submitted inputs outputs assertCases solution), result =
                .passed then 1 else 0)
          else ((finalResults outcome (submitted inputs outputs assertCases solution)).count .passed : Rat) / inputs.length := by
  have checked : checkCorrectness python outcome order testCases solution =
      ((finalResults outcome (submitted inputs outputs assertCases solution)).map some,
        (finalMetadataList python outcome (submitted inputs outputs assertCases solution)).map some) :=
    checkCorrectness_settled has every solution
  refine ⟨checked, fun jsonLoads completion given passAll extracted completed => ?_⟩
  obtain ⟨loaded, parsed, complete⟩ := Option.bind_eq_some_iff.mp completed
  have size : (finalResults outcome (submitted inputs outputs assertCases solution)).length =
      inputs.length := by
    rw [finalResults, List.length_map, List.length_zipIdx, submitted_length has]
  simp only [computeScore, extracted, parsed, complete, checked]
  rw [scoreOf_settled, size]

/-- Values as texts. -/
def textPython : Python String := ⟨"None", id, id, fun text => text ≠ "None", id, fun _ => false⟩

/-- The second case does not compile, the first one passes. -/
def secondFails (case : Case String) : Outcome String :=
  if case.index = 1 then .ok (compileError, []) else .ok (.passed, [])

def threeCases : TestCases String := ⟨some ["1", "2", "3"], some ["1", "2", "3"], none⟩

theorem threeCases_has : threeCases.Has ["1", "2", "3"] ["1", "2", "3"] ["", "", ""] :=
  ⟨rfl, rfl, rfl, rfl, rfl⟩

theorem computeScore_threeCases :
    (computeScore textPython secondFails [2, 1, 0]
      (fun _ => none) "```python\nrun()\n```" (.inl threeCases) false).1 =
      ((finalResults secondFails (submitted ["1", "2", "3"] ["1", "2", "3"]
        ["", "", ""] "\nrun()\n")).count .passed : Rat) / 3 :=
  (computeScore_settled textPython secondFails threeCases_has
    (show [2, 1, 0].Perm (List.range 3) by decide) "\nrun()\n").2
    (fun _ => none) "```python\nrun()\n```" (.inl threeCases) false (by decide) rfl

/-- Without test cases all of them are `True`, but the score is not one. -/
theorem computeScore_noCases :
    (∀ result ∈ finalResults secondFails [], result = .passed) ∧
      (computeScore textPython secondFails []
        (fun _ => none) "```python\nrun()\n```" (.inl ⟨some [], some [], none⟩) true).1 ≠
        1 := by
  refine ⟨fun _ member => (List.not_mem_nil member).elim, ?_⟩
  decide

end LLMFusion.SandboxFusion
