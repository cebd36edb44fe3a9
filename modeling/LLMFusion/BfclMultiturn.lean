import LLMFusion.Lib.Dictionary
import LLMFusion.ToolParser

/-! The BFCL multi-turn checker. The calls of the model and those of the ground truth are executed on instances of their own,
but an instance may keep a reference to an object of its module, which all instances share. -/

namespace LLMFusion.BfclMultiturn
open ToolParser (Text)

inductive Crash where
  | unsupportedClass (className : String)
  | keyError
  | attributeError

/-- A dictionary of instances by their class; `Own` is what an instance has for itself. -/
abbrev Instances (Own : Type) := List (String × Own)

/-- The backend classes. `Shared` are the objects of the modules that instances may keep references to, `Value` the values of
attributes. -/
structure Backends (Config Own Shared Value : Type) where
  /-- The public methods of a class. -/
  methods : String → List String
  create : String → Own
  /-- `_load_scenario` of a copy of the configuration -/
  loadScenario : String → Own → Config → (longContext : Bool) → Own
  emptyConfig : Config
  /-- `eval` with the instances as locals, and the result as a text or the text of the exception -/
  eval : String → Instances Own → Shared → Except String String × Instances Own × Shared
  keeps_names : ∀ processed instances shared, (eval processed instances shared).2.1.map Prod.fst =
    instances.map Prod.fst
  vars : Own → List String
  getattr : Own → Shared → String → Option Value
  has_vars : ∀ own shared, ∀ name ∈ vars own, (getattr own shared name).isSome
  /-- The characters of words and the blanks. -/
  isWord : Char → Bool
  isSpace : Char → Bool

variable {Config Own Shared Value : Type} [DecidableEq Value] (backends : Backends Config Own Shared Value)

def classMapping : List String :=
  ["GorillaFileSystem", "MathAPI", "MessageAPI", "TwitterAPI", "TicketAPI", "TradingBot", "TravelAPI",
    "VehicleControlAPI"]

def statelessClasses : List String := ["MathAPI"]

def forbiddenCalls : List String := ["kill", "exit", "quit", "remove", "unlink", "popen", "Popen", "run"]

/-- `name.startswith("_")` -/
def isPrivate (name : String) : Bool := name.toList.head? = some '_'

/-! ### Execution -/

def makeInstances (initialConfig : Option (List (String × Config))) (longContext : Bool) :
    List String → Instances Own → Except Crash (Instances Own)
  | [], instances => .ok instances
  | className :: involvedClasses, instances =>
    if className ∈ classMapping then
      let instance' := backends.create className
      let loaded :=
        if className ∈ statelessClasses then instance'
        else
          let classInitialConfig := (Dictionary.get (initialConfig.getD []) className).getD backends.emptyConfig
          backends.loadScenario className instance' classInitialConfig longContext
      makeInstances initialConfig longContext involvedClasses (Indexing.insert className loaded instances)
    else .error (.unsupportedClass className)

/-- Every public method with its class, by the names of the classes; a later class is taken first. -/
def buildMethodMapping (classNames : List String) : List (String × String) :=
  classNames.reverse.flatMap (fun className =>
    ((backends.methods className).filter (fun name => !isPrivate name)).map (·, className))

/-- A name with its class before it. -/
def replaceFunction (methodMapping : List (String × String)) (word : Text) : Text :=
  match Dictionary.get methodMapping (String.ofList word) with
  | some className => className.toList ++ '.' :: word
  | none => word

/-- Whether a word may be a name. -/
def isName : Text → Bool
  | [] => false
  | c :: _ => c.isAlpha || c = '_'

/-- The substitution of `\b([a-zA-Z_]\w*)\s*(?=\()`, with the word and the blanks before the rest of the text. -/
def substitute (methodMapping : List (String × String)) : Text → Text → Text → Text
  | word, blanks, [] => word ++ blanks
  | word, blanks, c :: text =>
    if backends.isWord c then
      if blanks = [] then substitute methodMapping (word ++ [c]) [] text
      else word ++ blanks ++ substitute methodMapping [c] [] text
    else if backends.isSpace c ∧ word ≠ [] then substitute methodMapping word (blanks ++ [c]) text
    else if c = '(' ∧ isName word then replaceFunction methodMapping word ++ c :: substitute methodMapping []
      [] text
    else word ++ blanks ++ c :: substitute methodMapping [] [] text

def processMethodCalls (functionCallString : String) (methodMapping : List (String × String)) : String :=
  String.ofList (substitute backends methodMapping [] [] functionCallString.toList)

/-- What is called, up to the first bracket and after the first dot. -/
def headOf (processed : Text) : Text :=
  let head := processed.takeWhile (· ≠ '(')
  if '.' ∈ head then ((head.dropWhile (· ≠ '.')).tail).takeWhile (· ≠ '.') else head

/-- Execute one call. -/
def executeCall (methodMapping : List (String × String)) (funcCall : String) (instances : Instances Own)
    (shared : Shared) :
    String × Instances Own × Shared :=
  let processed := processMethodCalls backends funcCall methodMapping
  let head := String.ofList (headOf processed.toList)
  if head ∈ forbiddenCalls then
    ("Error during execution: Function call " ++ head ++ " is not allowed.", instances, shared)
  else
    match backends.eval processed instances shared with
    | (.ok result, after) => (result, after)
    | (.error exception, after) => ("Error during execution: " ++ exception, after)

def executeWith (methodMapping : List (String × String)) :
    List String → Instances Own → Shared → List String × Instances Own × Shared
  | [], instances, shared => ([], instances, shared)
  | funcCall :: funcCallList, instances, shared =>
    let executed := executeCall backends methodMapping funcCall instances shared
    let rest := executeWith methodMapping funcCallList executed.2.1 executed.2.2
    (executed.1 :: rest.1, rest.2)

def executeCalls (funcCallList : List String) (instances : Instances Own) (shared : Shared) :
    List String × Instances Own × Shared :=
  executeWith backends (buildMethodMapping backends (instances.map Prod.fst)) funcCallList instances shared

def isEmptyExecuteResponse : List (List String) → Bool
  | [] => true
  | [step] => step.isEmpty
  | _ => false

/-- The steps of a turn. -/
def executeSteps : List (List String) → Instances Own → Shared → List String × Instances Own × Shared
  | [], instances, shared => ([], instances, shared)
  | step :: steps, instances, shared =>
    let executed := executeCalls backends step instances shared
    let rest := executeSteps steps executed.2.1 executed.2.2
    (executed.1 ++ rest.1, rest.2)

/-! ### The checks -/

inductive Verdict where
  | valid
  | emptyTurnModelResponse (turnIndex : Nat)
  | instanceStateMismatch (className : String) (differences : List String)
  | executionResponseMismatch (turnIndex : Nat) (missingItems : List String)
  deriving DecidableEq

/-- The attributes in which two instances differ. -/
def differing (shared : Shared) (model groundTruth : Own) : List String → Except Crash (List String)
  | [] => .ok []
  | attrName :: attrNames =>
    match backends.getattr model shared attrName, backends.getattr groundTruth shared attrName with
    | some modelAttr, some groundTruthAttr => do
      let differences ← differing shared model groundTruth attrNames
      return if modelAttr = groundTruthAttr then differences else attrName :: differences
    | _, _ => .error .attributeError

/-- `_compare_instances`, of the public attributes -/
def compareInstances (shared : Shared) (model groundTruth : Own) : Except Crash (List String) :=
  differing backends shared model groundTruth ((backends.vars groundTruth).filter (fun name => !isPrivate name))

/-- `none` when all states are the same. -/
def stateChecker (shared : Shared) (modelInstances : Instances Own) :
    Instances Own → Except Crash (Option Verdict)
  | [] => .ok none
  | (className, groundTruth) :: rest =>
    match Dictionary.get modelInstances className with
    | none => .error .keyError
    | some model => do
      let differences ← compareInstances backends shared model groundTruth
      if differences.isEmpty then stateChecker shared modelInstances rest
      else return some (.instanceStateMismatch className differences)

/-- `_is_subsequence_unordered`: the items of the first list that are missing in the second one. -/
def missingItems : List String → List String → List String
  | [], _ => []
  | item :: list1, list2 =>
    if item ∈ list2 then missingItems list1 (list2.erase item) else item :: missingItems list1 list2

/-- The loop over the turns, with the results of the model so far. -/
def checkTurns (turnIndex : Nat) (results : List String) (modelInstances groundTruthInstances : Instances Own)
    (shared : Shared)
    (modelDecoded : List (List (List String))) : List (List String) → Except Crash Verdict
  | [] => .ok .valid
  | groundTruthList :: groundTruth => do
    let modelResponseList := modelDecoded.headD []
    let model := executeSteps backends modelResponseList modelInstances shared
    let reference := executeCalls backends groundTruthList groundTruthInstances model.2.2
    let results := results ++ model.1
    let shared := reference.2.2
    if groundTruthList ≠ [] ∧ isEmptyExecuteResponse modelResponseList then return .emptyTurnModelResponse turnIndex
    if groundTruthList = [] then
      checkTurns (turnIndex + 1) results model.2.1 reference.2.1 shared modelDecoded.tail groundTruth
    else
      match ← stateChecker backends shared model.2.1 reference.2.1 with
      | some mismatch => return mismatch
      | none =>
        let missing := missingItems reference.1 results
        if missing.isEmpty then
          checkTurns (turnIndex + 1) results model.2.1 reference.2.1 shared modelDecoded.tail groundTruth
        else return .executionResponseMismatch turnIndex missing

def multiTurnChecker (modelDecoded : List (List (List String))) (groundTruth : List (List String))
    (initialConfig : Option (List (String × Config))) (involvedClasses : List String) (longContext : Bool)
      (shared : Shared) :
    Except Crash Verdict := do
  let modelInstances ← makeInstances backends initialConfig longContext involvedClasses []
  let groundTruthInstances ← makeInstances backends initialConfig longContext involvedClasses []
  checkTurns backends 0 [] modelInstances groundTruthInstances shared modelDecoded groundTruth

end LLMFusion.BfclMultiturn
