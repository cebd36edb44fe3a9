import LLMFusion.Lib.Dictionary
import LLMFusion.ToolParser

/-! The checker of function calls that are parsed already. A possible answer has a list of values for
each parameter, and the empty text in it marks a parameter that may be left out. Calls hold values
that Python builds; `φ` are its floats and `ω` its other objects. -/

namespace LLMFusion.BfclChecker
open ToolParser (Text)

inductive Crash where
  | attributeError
  | indexError
  | keyError
  | notImplementedError
  | overflowError
  | typeError
  | valueError
  deriving DecidableEq, Repr

/-- What `type` returns. -/
inductive PyType where
  | none
  | bool
  | int
  | float
  | str
  | list
  | tuple
  | dict
  | set
  | other (name : Text)
  deriving DecidableEq, Repr

/-- `__name__` -/
def PyType.name : PyType → Text
  | .none => "NoneType".toList
  | .bool => "bool".toList
  | .int => "int".toList
  | .float => "float".toList
  | .str => "str".toList
  | .list => "list".toList
  | .tuple => "tuple".toList
  | .dict => "dict".toList
  | .set => "set".toList
  | .other name => name

/-- `str` of a type -/
def PyType.text (type : PyType) : Text := "<class '".toList ++ type.name ++ "'>".toList

inductive Value (φ ω : Type) where
  | none
  | bool (value : Bool)
  | int (value : Int)
  | float (value : φ)
  | str (text : Text)
  | list (items : List (Value φ ω))
  | tuple (items : List (Value φ ω))
  | dict (entries : List (Value φ ω × Value φ ω))
  | other (object : ω)

/-- What Python does with floats and with its other objects. These have classes of their own, and are
not equal to texts; none of them has `items`. -/
structure Python (φ ω : Type) where
  lower : Text → Text
  /-- `str` of a value -/
  text : Value φ ω → Text
  repr : Value φ ω → Text
  floatEq : φ → φ → Bool
  intEqFloat : Int → φ → Bool
  /-- `None` where the integer is too large. -/
  toFloat : Int → Option φ
  className : ω → Text
  equals : ω → Value φ ω → Bool
  len : ω → Except Crash Nat
  iterate : ω → Except Crash (List (Value φ ω))
  subscript : ω → Value φ ω → Except Crash (Value φ ω)
  contains : ω → Value φ ω → Except Crash Bool
  javaTypeConverter : Text → Text → Option Text → Except Crash (Value φ ω)
  jsTypeConverter : Text → Text → Option Text → Except Crash (Value φ ω)

variable {φ ω : Type} (python : Python φ ω)

namespace Value

def type : Value φ ω → PyType
  | .none => .none
  | .bool _ => .bool
  | .int _ => .int
  | .float _ => .float
  | .str _ => .str
  | .list _ => .list
  | .tuple _ => .tuple
  | .dict _ => .dict
  | .other object => .other (python.className object)

/-- A boolean is a number, too. -/
def number : Value φ ω → Option (Int ⊕ φ)
  | .bool value => some (.inl value.toInt)
  | .int value => some (.inl value)
  | .float value => some (.inr value)
  | _ => Option.none

def numberEq : Option (Int ⊕ φ) → Option (Int ⊕ φ) → Bool
  | some (.inl first), some (.inl second) => first = second
  | some (.inl first), some (.inr second) => python.intEqFloat first second
  | some (.inr first), some (.inl second) => python.intEqFloat second first
  | some (.inr first), some (.inr second) => python.floatEq first second
  | _, _ => false

mutual

/-- `==` -/
def eq : Value φ ω → Value φ ω → Bool
  | .none, .none => true
  | .str first, .str second => first = second
  | .list first, .list second => eqList first second
  | .tuple first, .tuple second => eqList first second
  | .dict first, .dict second => first.length = second.length && eqDict first second
  | .other _, .str _ => false
  | .str _, .other _ => false
  | .other object, second => python.equals object second
  | first, .other object => python.equals object first
  | first, second => numberEq python first.number second.number

def eqList : List (Value φ ω) → List (Value φ ω) → Bool
  | [], [] => true
  | first :: firsts, second :: seconds => eq first second && eqList firsts seconds
  | _, _ => false

/-- Every entry of the first one is an entry of the second one. -/
def eqDict : List (Value φ ω × Value φ ω) → List (Value φ ω × Value φ ω) → Bool
  | [], _ => true
  | (key, value) :: entries, others =>
    others.any (fun entry => eq key entry.1 && eq value entry.2) && eqDict entries others

end

def len : Value φ ω → Except Crash Nat
  | .str text => .ok text.length
  | .list items => .ok items.length
  | .tuple items => .ok items.length
  | .dict entries => .ok entries.length
  | .other object => python.len object
  | _ => .error .typeError

/-- `list(value)` -/
def iterate : Value φ ω → Except Crash (List (Value φ ω))
  | .str text => .ok (text.map (fun c => .str [c]))
  | .list items => .ok items
  | .tuple items => .ok items
  | .dict entries => .ok (entries.map Prod.fst)
  | .other object => python.iterate object
  | _ => .error .typeError

/-- `value.items()` -/
def items : Value φ ω → Except Crash (List (Value φ ω × Value φ ω))
  | .dict entries => .ok entries
  | _ => .error .attributeError

/-- `key in container` -/
def contains (container key : Value φ ω) : Except Crash Bool :=
  match container with
  | .str text =>
    match key with
    | .str word => .ok (word <:+: text)
    | _ => .error .typeError
  | .list items => .ok (items.any (eq python key))
  | .tuple items => .ok (items.any (eq python key))
  | .dict entries => .ok (entries.any (fun entry => eq python key entry.1))
  | .other object => python.contains object key
  | _ => .error .typeError

/-- The item at an index, which is an integer or a boolean. -/
def item (items : List (Value φ ω)) (key : Value φ ω) : Except Crash (Value φ ω) :=
  match key.number with
  | some (.inl index) =>
    match Indexing.getItem items index with
    | some value => .ok value
    | Option.none => .error .indexError
  | _ => .error .typeError

/-- `container[key]` -/
def subscript (container key : Value φ ω) : Except Crash (Value φ ω) :=
  match container with
  | .str text => item (text.map (fun c => .str [c])) key
  | .list items => item items key
  | .tuple items => item items key
  | .dict entries =>
    match entries.find? (fun entry => eq python key entry.1) with
    | some entry => .ok entry.2
    | Option.none => .error .keyError
  | .other object => python.subscript object key
  | _ => .error .typeError

/-- The values that a loop over `range(len(container))` reads. -/
def elements (container : Value φ ω) : Except Crash (List (Value φ ω)) := do
  (List.range (← len python container)).mapM (fun index => subscript python container (.int index))

end Value

/-- `""`, for a parameter that may be left out. -/
def marker : Value φ ω := .str []

inductive ErrorType where
  /-- `type_error:simple` -/
  | typeSimple
  /-- `type_error:nested` -/
  | typeNested
  /-- `type_error:java` -/
  | typeJava
  /-- `type_error:js` -/
  | typeJs
  /-- `value_error:string` -/
  | valueString
  /-- `value_error:list/tuple` -/
  | valueList
  /-- `value_error:dict_key` -/
  | dictKey
  /-- `value_error:dict_value` -/
  | dictValue
  /-- `value_error:list_dict_count` -/
  | listDictCount
  /-- `value_error:others` -/
  | valueOthers
  /-- `dict_checker:unclear` -/
  | dictUnclear
  /-- `list_dict_checker:unclear` -/
  | listDictUnclear
  /-- `simple_function_checker:wrong_func_name` -/
  | wrongFuncName
  /-- `simple_function_checker:missing_required` -/
  | missingRequired
  /-- `simple_function_checker:unexpected_param` -/
  | unexpectedParam
  /-- `simple_function_checker:missing_optional` -/
  | missingOptional
  deriving DecidableEq, Repr

structure Rejection where
  error : List Text
  errorType : ErrorType
  deriving DecidableEq, Repr

inductive Verdict where
  | valid
  | invalid (rejection : Rejection)
  deriving DecidableEq, Repr

/-- `repr` of a list -/
def reprList (values : List (Value φ ω)) : Text := python.repr (.list values)

def possibleAnswerType (possibleAnswer : List (Value φ ω)) : Option PyType :=
  (possibleAnswer.find? (fun answer => !answer.eq python marker)).map (Value.type python)

/-- Whether the answers have another type than the one that is expected. -/
def isVariable (possibleAnswer : List (Value φ ω)) (expected : PyType) : Bool :=
  (possibleAnswerType python possibleAnswer).any (· ≠ expected)

def incorrectType (param : Value φ ω) (value : Value φ ω) (description : Text) : Text :=
  "Incorrect type for parameter ".toList ++ python.repr param ++ ". Expected type ".toList ++ description ++
    ", got ".toList ++ (value.type python).name ++ ". Parameter value: ".toList ++ python.repr value ++ ".".toList

/-- The check without a nested type: whether the value is one of a variable. -/
def simpleTypeChecker (param value : Value φ ω) (possibleAnswer : List (Value φ ω)) (description : Text)
    (expected : PyType) : Except Rejection Bool :=
  if value.type python = expected then .ok (isVariable python possibleAnswer expected)
  else if possibleAnswerType python possibleAnswer = some (value.type python) then .ok true
  else .error ⟨[incorrectType python param value description], .typeSimple⟩

/-- An answer that is not a list accepts the items of every list. -/
def nestedTypes (param : Value φ ω) (items : List (Value φ ω)) (nested : PyType) : Value φ ω → Bool
  | .list answers => items.all (fun item => (simpleTypeChecker python param item answers nested.text nested).isOk)
  | _ => true

def nestedTypeFailed (param value : Value φ ω) (description : Text) (nested : PyType) : Text :=
  "Nested type checking failed for parameter ".toList ++ python.repr param ++ ". Expected outer type ".toList ++
    description ++ " with inner type ".toList ++ nested.text ++ ". Parameter value: ".toList ++ python.repr value ++
    ".".toList

/-- Only lists have a nested type. -/
def typeChecker (param value : Value φ ω) (possibleAnswer : List (Value φ ω)) (description : Text) (expected : PyType) :
    Option PyType → Except Rejection Bool
  | none => simpleTypeChecker python param value possibleAnswer description expected
  | some nested =>
    match value with
    | .list items =>
      if expected = .list then
        if possibleAnswer.any (nestedTypes python param items nested) then .ok (isVariable python possibleAnswer expected)
        else if possibleAnswerType python possibleAnswer = some .list then
          .error ⟨[nestedTypeFailed python param value description nested], .typeNested⟩
        else
          .error ⟨[nestedTypeFailed python param value description nested,
            incorrectType python param value description], .typeSimple⟩
      else simpleTypeChecker python param value possibleAnswer description expected
    | _ => simpleTypeChecker python param value possibleAnswer description expected

def dropped : Text := " ,./-_*^".toList

def standardizeString (inputString : Text) : Text :=
  (python.lower (inputString.filter (· ∉ dropped))).map (fun c => if c = '\'' then '"' else c)

def standardize : Value φ ω → Value φ ω
  | .str text => .str (standardizeString python text)
  | value => value

/-- `in` a list of values -/
def within (value : Value φ ω) (values : List (Value φ ω)) : Bool := values.any (value.eq python)

def invalidValue (param value : Value φ ω) (expected : List (Value φ ω)) (after : Text) : Text :=
  "Invalid value for parameter ".toList ++ python.repr param ++ ": ".toList ++ python.repr value ++
    ". Expected one of ".toList ++ reprList python expected ++ after

/-- The texts among the possible answers, standardized. -/
def standardizedTexts : List (Value φ ω) → List Text
  | [] => []
  | .str text :: answers => standardizeString python text :: standardizedTexts answers
  | _ :: answers => standardizedTexts answers

def stringChecker (param modelOutput : Value φ ω) (possibleAnswer : List (Value φ ω)) : Except Crash Verdict :=
  match modelOutput with
  | .str text =>
    if (standardizedTexts python possibleAnswer).contains (standardizeString python text) then .ok .valid
    else .ok (.invalid ⟨[invalidValue python param modelOutput possibleAnswer ". Case insensitive.".toList], .valueString⟩)
  | _ => .error .typeError

def standardizedElements (answer : Value φ ω) : Except Crash (List (Value φ ω)) := do
  return (← answer.elements python).map (standardize python)

def listChecker (param modelOutput : Value φ ω) (possibleAnswer : List (Value φ ω)) : Except Crash Verdict := do
  let standardizeModelOutput := (← modelOutput.iterate python).map (standardize python)
  let standardizePossibleAnswer ← possibleAnswer.mapM (standardizedElements python)
  if standardizePossibleAnswer.any (Value.eqList python standardizeModelOutput) then return .valid
  return .invalid ⟨[invalidValue python param modelOutput possibleAnswer ".".toList], .valueList⟩

/-- The loop over the entries of the model output. -/
def checkEntries (possibleAnswer : Value φ ω) : List (Value φ ω × Value φ ω) → Except Crash Verdict
  | [] => .ok .valid
  | entry :: entries => do
    if ← possibleAnswer.contains python entry.1 then
      let standardizePossibleAnswer ← standardizedElements python (← possibleAnswer.subscript python entry.1)
      if within python (standardize python entry.2) standardizePossibleAnswer then checkEntries possibleAnswer entries
      else return .invalid ⟨[invalidValue python entry.1 entry.2 standardizePossibleAnswer ".".toList], .dictValue⟩
    else return .invalid ⟨["Unexpected dict key parameter: '".toList ++ python.text entry.1 ++ "'.".toList], .dictKey⟩

/-- The loop over the entries of the possible answer. -/
def checkMissing (modelOutput : Value φ ω) : List (Value φ ω × Value φ ω) → Except Crash Verdict
  | [] => .ok .valid
  | entry :: entries => do
    if ← modelOutput.contains python entry.1 then checkMissing modelOutput entries
    else if ← entry.2.contains python marker then checkMissing modelOutput entries
    else return .invalid ⟨["Missing dict key parameter: '".toList ++ python.text entry.1 ++ "'.".toList], .dictKey⟩

/-- The result of both loops. -/
def Verdict.and : Verdict → Verdict → Verdict
  | .valid, second => second
  | first, .valid => first
  | .invalid first, .invalid second => .invalid ⟨first.error ++ second.error, second.errorType⟩

def dictAnswers (modelOutput : Value φ ω) (result : Verdict) : List (Value φ ω) → Except Crash Verdict
  | [] => .ok result
  | possibleAnswer :: possibleAnswers =>
    if possibleAnswer.eq python marker then dictAnswers modelOutput result possibleAnswers
    else do
      let entries ← checkEntries python possibleAnswer (← modelOutput.items)
      let missing ← checkMissing python modelOutput (← possibleAnswer.items)
      if entries.and missing = .valid then return .valid
      dictAnswers modelOutput (entries.and missing) possibleAnswers

def dictChecker (modelOutput : Value φ ω) (possibleAnswers : List (Value φ ω)) : Except Crash Verdict :=
  dictAnswers python modelOutput (.invalid ⟨[], .dictUnclear⟩) possibleAnswers

/-- The loop over the dictionaries of the model output. -/
def checkDicts (modelOutput possibleAnswer : Value φ ω) : List Nat → Except Crash Verdict
  | [] => .ok .valid
  | dictIndex :: rest => do
    let value ← modelOutput.subscript python (.int dictIndex)
    let answer ← possibleAnswer.subscript python (.int dictIndex)
    match ← dictChecker python value [answer] with
    | .valid => checkDicts modelOutput possibleAnswer rest
    | rejected => return rejected

def listDictAnswers (modelOutput : Value φ ω) (result : Verdict) : List (Value φ ω) → Except Crash Verdict
  | [] => .ok result
  | possibleAnswer :: possibleAnswers => do
    let count ← modelOutput.len python
    if count ≠ (← possibleAnswer.len python) then
      listDictAnswers modelOutput (.invalid ⟨["Wrong number of dictionaries in the list.".toList], .listDictCount⟩)
        possibleAnswers
    else
      match ← checkDicts python modelOutput possibleAnswer (List.range count) with
      | .valid => return .valid
      | rejected => listDictAnswers modelOutput rejected possibleAnswers

def listDictChecker (modelOutput : Value φ ω) (possibleAnswers : List (Value φ ω)) : Except Crash Verdict :=
  listDictAnswers python modelOutput (.invalid ⟨[], .listDictUnclear⟩) possibleAnswers

/-- What a value is compared with. -/
inductive Comparison where
  | dict
  | listDict
  | string
  | list
  | others
  deriving DecidableEq, Repr

def comparison (expected : PyType) (nested : Option PyType) (isVariable : Bool) : Comparison :=
  if isVariable then .others
  else if expected = .dict then .dict
  else if expected = .list ∧ nested = some .dict then .listDict
  else if expected = .str then .string
  else if expected = .list then .list
  else .others

def compare (param value : Value φ ω) (possibleAnswer : List (Value φ ω)) : Comparison → Except Crash Verdict
  | .dict => dictChecker python value possibleAnswer
  | .listDict => listDictChecker python value possibleAnswer
  | .string => stringChecker python param value possibleAnswer
  | .list => listChecker python param value possibleAnswer
  | .others =>
    if within python value possibleAnswer then .ok .valid
    else .ok (.invalid ⟨[invalidValue python param value possibleAnswer ".".toList], .valueOthers⟩)

def pythonTypeMapping : List (Text × PyType) :=
  [("string".toList, .str), ("integer".toList, .int), ("float".toList, .float), ("boolean".toList, .bool),
    ("array".toList, .list), ("tuple".toList, .list), ("dict".toList, .dict), ("any".toList, .str)]

def pythonNestedTypeCheckList : List Text := ["array".toList, "tuple".toList]

def nestedConversionTypeList : List Text := ["Array".toList, "ArrayList".toList, "array".toList]

def javaTypeConversion : List (Text × PyType) :=
  [("byte".toList, .int), ("short".toList, .int), ("integer".toList, .int), ("float".toList, .float),
    ("double".toList, .float), ("long".toList, .int), ("boolean".toList, .bool), ("char".toList, .str),
    ("Array".toList, .list), ("ArrayList".toList, .list), ("Set".toList, .set), ("HashMap".toList, .dict),
    ("Hashtable".toList, .dict), ("Queue".toList, .list), ("Stack".toList, .list), ("String".toList, .str),
    ("any".toList, .str)]

def jsTypeConversion : List (Text × PyType) :=
  [("String".toList, .str), ("integer".toList, .int), ("float".toList, .float), ("Bigint".toList, .int),
    ("Boolean".toList, .bool), ("dict".toList, .dict), ("array".toList, .list), ("any".toList, .str)]

inductive Language where
  | java
  | javascript
  | python
  | unsupported
  deriving DecidableEq, Repr

structure ParamDetails where
  type : Option Text
  /-- The type of its items. -/
  itemsType : Option Text
  deriving DecidableEq, Repr

structure FunctionDescription where
  name : Text
  properties : List (Text × ParamDetails)
  required : List Text
  deriving DecidableEq, Repr

/-- The arguments of a call. `**` gives one without a name. -/
abbrev Params (φ ω : Type) := List (Option Text × Value φ ω)

/-- The values that each parameter may have. -/
abbrev Answers (φ ω : Type) := List (Text × List (Value φ ω))

def paramValue : Option Text → Value φ ω
  | some name => .str name
  | none => .none

def key {α : Type} (found : Option α) : Except Crash α :=
  match found with
  | some value => .ok value
  | none => .error .keyError

/-- A value as the type check gets it, with the types that are expected. -/
structure Typed (φ ω : Type) where
  value : Value φ ω
  description : Text
  expected : PyType
  nested : Option PyType

def notText (param value : Value φ ω) (errorType : ErrorType) : Rejection :=
  ⟨[incorrectType python param value "String".toList], errorType⟩

/-- The branch of a language whose values are texts in its own syntax. -/
def convert (table : List (Text × PyType)) (converter : Text → Text → Option Text → Except Crash (Value φ ω))
    (errorType : ErrorType) (param value : Value φ ω) (details : ParamDetails) (description : Text) :
    Except Crash (Except Rejection (Typed φ ω)) := do
  let expected ← key (Dictionary.get table description)
  match value with
  | .str text =>
    if nestedConversionTypeList.contains description then
      let nestedType ← key details.itemsType
      let nested ← key (Dictionary.get table nestedType)
      return .ok ⟨← converter text description (some nestedType), description, expected, some nested⟩
    else return .ok ⟨← converter text description none, description, expected, none⟩
  | _ => return .error (notText python param value errorType)

/-- A tuple becomes a list, and an integer a float where one is expected. -/
def pythonValue (description : Text) : Value φ ω → Except Crash (Value φ ω)
  | .tuple items => .ok (if description = "tuple".toList then .list items else .tuple items)
  | .int value =>
    if description = "float".toList then
      match python.toFloat value with
      | some float => .ok (.float float)
      | none => .error .overflowError
    else .ok (.int value)
  | value => .ok value

def typed (language : Language) (param value : Value φ ω) (details : ParamDetails) :
    Except Crash (Except Rejection (Typed φ ω)) := do
  let description ← key details.type
  match language with
  | .java => convert python javaTypeConversion python.javaTypeConverter .typeJava param value details description
  | .javascript => convert python jsTypeConversion python.jsTypeConverter .typeJs param value details description
  | .python =>
    let expected ← key (Dictionary.get pythonTypeMapping description)
    if pythonNestedTypeCheckList.contains description then
      let nested ← key (Dictionary.get pythonTypeMapping (← key details.itemsType))
      return .ok ⟨← pythonValue python description value, description, expected, some nested⟩
    else return .ok ⟨← pythonValue python description value, description, expected, none⟩
  | .unsupported => throw .valueError

/-- The body of the loop over the parameters. -/
def checkParam (language : Language) (param value : Value φ ω) (details : ParamDetails)
    (possibleAnswer : List (Value φ ω)) : Except Crash Verdict := do
  match ← typed python language param value details with
  | .error rejection => return .invalid rejection
  | .ok typed =>
    match typeChecker python param typed.value possibleAnswer typed.description typed.expected typed.nested with
    | .error rejection => return .invalid rejection
    | .ok isVariable =>
      compare python param typed.value possibleAnswer (comparison typed.expected typed.nested isVariable)

def unexpectedParam (param : Option Text) : Verdict :=
  .invalid ⟨["Unexpected parameter: ".toList ++ python.repr (paramValue param) ++ ".".toList], .unexpectedParam⟩

def checkParams (language : Language) (paramDetails : List (Text × ParamDetails)) (possibleAnswer : Answers φ ω) :
    Params φ ω → Except Crash Verdict
  | [] => .ok .valid
  | entry :: modelParams =>
    match entry.1.bind (Dictionary.get paramDetails), entry.1.bind (Dictionary.get possibleAnswer) with
    | some details, some answers => do
      match ← checkParam python language (paramValue entry.1) entry.2 details answers with
      | .valid => checkParams language paramDetails possibleAnswer modelParams
      | rejected => return rejected
    | _, _ => .ok (unexpectedParam python entry.1)

/-- A parameter that the call does not have and that has to be there. -/
def missingOptional (possibleAnswer : Answers φ ω) (modelParams : Params φ ω) : Verdict :=
  match possibleAnswer.find? (fun entry => some entry.1 ∉ modelParams.map Prod.fst ∧ ¬ within python marker entry.2) with
  | some entry =>
    .invalid ⟨["Optional parameter ".toList ++ python.repr (.str entry.1) ++
      " not provided and not marked as optional.".toList], .missingOptional⟩
  | none => .valid

def missingRequired (param : Text) : Verdict :=
  .invalid ⟨["Missing required parameter: ".toList ++ python.repr (.str param) ++ ".".toList], .missingRequired⟩

def wrongFuncName (funcName : Text) : Verdict :=
  .invalid ⟨["Function name ".toList ++ python.repr (.str funcName) ++ " not found in model output.".toList], .wrongFuncName⟩

def simpleFunctionChecker (funcDescription : Option FunctionDescription) (modelOutput : List (Text × Params φ ω))
    (possibleAnswer : List (Text × Answers φ ω)) (language : Language) : Except Crash Verdict :=
  match possibleAnswer, funcDescription with
  | [], _ => .error .indexError
  | _, none => .error .typeError
  | answer :: _, some description =>
    match Dictionary.get modelOutput description.name with
    | none => .ok (wrongFuncName python description.name)
    | some modelParams =>
      match description.required.find? (fun param => some param ∉ modelParams.map Prod.fst) with
      | some param => .ok (missingRequired python param)
      | none => do
        match ← checkParams python language description.properties answer.2 modelParams with
        | .valid => return missingOptional python answer.2 modelParams
        | rejected => return rejected

/-- A description of one function, or those of several ones. -/
inductive Descriptions where
  | one (description : FunctionDescription)
  | list (descriptions : List FunctionDescription)

def findDescription : Descriptions → Text → Option FunctionDescription
  | .one description, _ => some description
  | .list descriptions, name => descriptions.find? (fun description => description.name = name)

/-- Why a call was not taken. -/
structure SubError (φ ω : Type) where
  index : Nat
  rejection : Rejection
  modelOutputItem : List (Text × Params φ ω)
  possibleAnswerItem : List (Text × Answers φ ω)

inductive ParallelVerdict (φ ω : Type) where
  | valid
  /-- `parallel_function_checker_no_order:wrong_count` -/
  | wrongCount (error : Text)
  /-- `parallel_function_checker_no_order:cannot_find_match` -/
  | cannotFindMatch (error : Text) (subErrors : List (SubError φ ω))

variable (funcDescriptions : Descriptions) (language : Language)

/-- The loop over the calls: the first one that is accepted, and why the others were not. -/
def findMatch (matchedIndices : List Nat) (funcDescription : Option FunctionDescription)
    (possibleAnswer : List (Text × Answers φ ω)) :
    List (List (Text × Params φ ω) × Nat) → Except Crash (List (SubError φ ω) ⊕ Nat)
  | [] => .ok (.inl [])
  | call :: calls =>
    if call.2 ∈ matchedIndices then findMatch matchedIndices funcDescription possibleAnswer calls
    else do
      match ← simpleFunctionChecker python funcDescription call.1 possibleAnswer language with
      | .valid => return .inr call.2
      | .invalid rejection =>
        match ← findMatch matchedIndices funcDescription possibleAnswer calls with
        | .inl errors => return .inl (⟨call.2, rejection, call.1, possibleAnswer⟩ :: errors)
        | .inr index => return .inr index

def natText (number : Nat) : Text := Nat.toDigits 10 number

def noMatch (consideredIndices : List Nat) (answer : Nat) : Text :=
  "Could not find a matching function among index [".toList ++
    List.intercalate ", ".toList (consideredIndices.map natText) ++ "] of model output for index ".toList ++
    natText answer ++ " of possible answers.".toList

/-- The loop over the possible answers. -/
def matchAnswers (modelOutput : List (List (Text × Params φ ω))) (matchedIndices : List Nat) :
    List (List (Text × Answers φ ω) × Nat) → Except Crash (ParallelVerdict φ ω)
  | [] => .ok .valid
  | answer :: possibleAnswers =>
    match answer.1 with
    | [] => .error .indexError
    | expected :: _ => do
      let funcDescription := findDescription funcDescriptions expected.1
      match ← findMatch python language matchedIndices funcDescription answer.1 modelOutput.zipIdx with
      | .inr index => matchAnswers modelOutput (matchedIndices ++ [index]) possibleAnswers
      | .inl errors =>
        let consideredIndices := (List.range modelOutput.length).filter (· ∉ matchedIndices)
        return .cannotFindMatch (noMatch consideredIndices answer.2) errors

def parallelFunctionCheckerNoOrder (modelOutput : List (List (Text × Params φ ω)))
    (possibleAnswers : List (List (Text × Answers φ ω))) : Except Crash (ParallelVerdict φ ω) :=
  if modelOutput.length ≠ possibleAnswers.length then .ok (.wrongCount "Wrong number of functions.".toList)
  else matchAnswers python funcDescriptions language modelOutput [] possibleAnswers.zipIdx

end LLMFusion.BfclChecker
