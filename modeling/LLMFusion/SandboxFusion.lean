import LLMFusion.BoxedAnswer
import LLMFusion.Lib.Splitting
import Mathlib.Data.Rat.Defs

/-! Scoring of generated code in a sandbox. The test cases run at the same time and are recorded as they complete; after a
compile error all later cases count as compile errors. -/

namespace LLMFusion.SandboxFusion
open BoxedAnswer (split)

/-- `True`, `False` or an error code -/
inductive Result where
  | passed
  | failed
  | code (code : Int)
  deriving DecidableEq

def compileError : Result := .code (-4)

/-- What Python does with the values of a test case, which are `J`. -/
structure Python (J : Type) where
  none : J
  ofText : String → J
  str : J → String
  truthy : J → Bool
  strip : String → String
  isalpha : String → Bool

inductive MetaValue (J : Type) where
  | none
  | number (number : Nat)
  | text (text : String)
  | other (value : J)

abbrev Metadata (J : Type) := List (String × MetaValue J)

/-- What `_process_single_case` returns, or the text of its exception. -/
abbrev Outcome (J : Type) := Except String (Result × Metadata J)

/-- `in_outs`; a key may be missing. -/
structure TestCases (J : Type) where
  inputs : Option (List J)
  outputs : Option (List J)
  assertCase : Option (List String)

/-- One call of `_process_single_case`. -/
structure Case (J : Type) where
  index : Nat
  stdinData : J
  expectedOutput : J
  code : String

variable {J : Type} (python : Python J)

/-! ### The cases as they complete -/

/-- The local variables of `check_correctness` while the cases complete. -/
structure Progress (J : Type) where
  results : List (Option Result)
  metadataList : List (Option (Metadata J))
  firstCompileErrorIndex : Option Nat

def start (numCases : Nat) : Progress J :=
  ⟨List.replicate numCases none, List.replicate numCases none, none⟩

def internalError (index : Nat) (input expectedOutput : J) (exc : String) : Metadata J :=
  [("case_index", .number index), ("input", .text (python.str input)),
    ("expected_output", if python.truthy expectedOutput then .text (python.str expectedOutput) else .none),
    ("api_request_error", .text ("Internal execution error: " ++ exc)), ("status", .text "internal_error")]

/-- `first_compile_error_index` after a compile error at an index. -/
def earliest (index : Nat) : Option Nat → Nat
  | none => index
  | some first => if index < first then index else first

/-- A future that completes. -/
def complete (outcome : Case J → Outcome J) (cases : List (Case J)) (progress : Progress J) (index : Nat) :
    Progress J :=
  match cases[index]? with
  | none => progress
  | some case =>
    match outcome case with
    | .ok (resultStatus, metadata) =>
      { results := progress.results.set index (some resultStatus)
        metadataList := progress.metadataList.set index (some metadata)
        firstCompileErrorIndex :=
          if resultStatus = compileError then some (earliest index progress.firstCompileErrorIndex)
          else progress.firstCompileErrorIndex }
    | .error exc =>
      { progress with
        results := progress.results.set index (some (.code (-1)))
        metadataList := progress.metadataList.set index
          (some (internalError python index case.stdinData case.expectedOutput exc)) }

/-! ### After the last one -/

def skippedError (case : Case J) : Metadata J :=
  [("case_index", .number case.index), ("input", .text (python.str case.stdinData)),
    ("expected_output", if python.truthy case.expectedOutput then .text
      (python.str case.expectedOutput) else .none),
    ("api_request_error", .none), ("status", .text "compile_error_skipped")]

/-- `metadata_list[i]["status"] = "compile_error_skipped"`, for new metadata where there are none -/
def skipMetadata (case : Case J) : Option (Metadata J) → Metadata J
  | none => skippedError python case
  | some metadata => Indexing.insert "status" (.text "compile_error_skipped") metadata

/-- The cases after the first compile error are rewritten. -/
def skip (cases : List (Case J)) (progress : Progress J) (i : Nat) : Progress J :=
  match cases[i]? with
  | none => progress
  | some case =>
    if progress.results[i]? ≠ some (some compileError) then
      { progress with
        results := progress.results.set i (some compileError)
        metadataList := progress.metadataList.set i
          (some (skipMetadata python case (progress.metadataList[i]?.join))) }
    else progress

def postProcess (cases : List (Case J)) (progress : Progress J) : Progress J :=
  match progress.firstCompileErrorIndex with
  | none => progress
  | some first => (List.range' (first + 1) (cases.length - (first + 1))).foldl (skip python cases) progress

/-! ### Correctness and score -/

/-- The cases that are submitted. -/
def submitted (inputs outputs : List J) (assertCases : List String) (generation : String) : List (Case J) :=
  (inputs.zip (outputs.zip assertCases)).zipIdx.map (fun entry =>
    ⟨entry.2, entry.1.1, entry.1.2.1, generation ++ "\n\n" ++ entry.1.2.2⟩)

def mismatch (numCases : Nat) : List (Option Result) × List (Option (Metadata J)) :=
  (List.replicate numCases (some (.code (-1))), (List.range numCases).map (fun i =>
    some [("error", .text "Input/output count mismatch"), ("case_index", .number i)]))

/-- `order` is the order in which the futures complete. -/
def checkCorrectness (outcome : Case J → Outcome J) (order : List Nat) (inOuts : TestCases J)
    (generation : String) :
    List (Option Result) × List (Option (Metadata J)) :=
  match inOuts.inputs, inOuts.outputs with
  | some inputs, some expectedOutputs =>
    let numCases := inputs.length
    let assertCases := inOuts.assertCase.getD (List.replicate numCases "")
    if numCases = 0 then ([], [])
    else if inputs.length ≠ expectedOutputs.length then mismatch numCases
    else if assertCases.length ≠ numCases then mismatch numCases
    else
      let cases := submitted inputs expectedOutputs assertCases generation
      let progress := postProcess python cases (order.foldl (complete python outcome cases) (start numCases))
      (progress.results, progress.metadataList)
  | _, _ => ([some (.code (-1))], [some [("error", .text "Invalid input/output data")]])

/-- The code of a completion; `none` without a code block. -/
def extractSolution (completion : String) : Option String :=
  let fenced := split "```python".toList completion.toList
  let parts := split "```".toList completion.toList
  if 1 < fenced.length then some (String.ofList ((split "```".toList (fenced.getLastD [])).headD []))
  else if 1 < parts.length then
    let solution := parts.getD 1 []
    match Splitting.cut '\n' solution with
    | some (firstLine, rest) =>
      if python.isalpha (python.strip (String.ofList firstLine)) then some (String.ofList rest)
      else some (String.ofList solution)
    | none => some (String.ofList solution)
  else none

/-- The missing inputs and outputs of assertions; `none` when the structure is invalid. -/
def completeTestCases (testCases : TestCases J) : Option (TestCases J) :=
  match testCases.assertCase with
  | some assertCases => some
      { testCases with
        inputs := some (testCases.inputs.getD (assertCases.map (fun _ => python.ofText "")))
        outputs := some (testCases.outputs.getD (assertCases.map (fun _ => python.none))) }
  | none => if testCases.inputs.isSome && testCases.outputs.isSome then some testCases else none

/-- `score` for the results of all cases -/
def scoreOf (passAll : Bool) (resList : List (Option Result)) : Rat :=
  if resList = [] then 0
  else
    let passedCount := resList.count (some .passed)
    if passAll then (if passedCount = resList.length then 1 else 0) else passedCount / resList.length

/-- `compute_score` with `continuous=False`; `test_cases` is a dictionary or the text of one. -/
def computeScore (outcome : Case J → Outcome J) (order : List Nat) (jsonLoads : String → Option (TestCases J))
    (completion : String) (testCases : TestCases J ⊕ String) (passAll : Bool) :
      Rat × List (Option (Metadata J)) :=
  let error (text : String) : Rat × List (Option (Metadata J)) := (0, [some [("error", .text text)]])
  match extractSolution python completion with
  | none => error "Invalid completion (missing code block)"
  | some solution =>
    match testCases.elim some jsonLoads with
    | none => error "Invalid test_cases JSON format"
    | some testCases =>
      match completeTestCases python testCases with
      | none => error "Invalid test_cases structure (missing inputs/outputs)"
      | some testCases =>
        let checked := checkCorrectness python outcome order testCases solution
        (scoreOf passAll checked.1, checked.2)

end LLMFusion.SandboxFusion
