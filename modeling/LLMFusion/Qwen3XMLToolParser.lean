import LLMFusion.ToolParser

/-! The tool calls of Qwen3-Coder, which are written with tags. What is between the tags is cut out
level by level, up to the end of the text where the closing tag is missing, and a value is read by the
declared type of its parameter. -/

namespace LLMFusion.Qwen3XMLToolParser
open Regex ToolParser

variable {ω : Type}

inductive Failure where
  /-- `substring not found` -/
  | valueError
  /-- `'NoneType' object is not iterable`, or an object that is not JSON serializable -/
  | typeError
  deriving DecidableEq, Repr

def toolCallStartToken : Text := "<tool_call>".toList

def toolCallEndToken : Text := "</tool_call>".toList

def toolCallPrefix : Text := "<function=".toList

def functionEnd : Text := "</function>".toList

def parameterStart : Text := "<parameter=".toList

def parameterEnd : Text := "</parameter>".toList

/-- `opening(.*?)closing|opening(.*)$`, where a dot is any character -/
def tagRegex (opening closing : Text) (greed : Greed) : Pattern Char :=
  ((Pattern.literal opening).seq (((Pattern.many .reluctant (fun _ => true)).capture 1).seq (Pattern.literal closing))).alt
    ((Pattern.literal opening).seq (((Pattern.many greed (fun _ => true)).capture 2).seq (Pattern.final '\n')))

def toolCallRegex : Pattern Char := tagRegex toolCallStartToken toolCallEndToken .reluctant

def toolCallFunctionRegex : Pattern Char := tagRegex toolCallPrefix functionEnd .greedy

def toolCallParameterRegex : Pattern Char := tagRegex parameterStart parameterEnd .reluctant

/-- `match[0] if match[0] else match[1]`, where a group that did not match is empty -/
def matchText (groups : List (Nat × Text)) : Text :=
  let first := (group groups 1).getD []
  if first = [] then (group groups 2).getD [] else first

/-- A schema; the type of a property is its `str`. -/
structure Tool where
  type : Text
  name : Text
  properties : List (Text × Text)

def getArgumentsConfig (tools : Option (List Tool)) (funcName : Text) : Except Failure (List (Text × Text)) :=
  match tools with
  | none => .error .typeError
  | some tools =>
    match tools.find? (fun config => config.type = "function".toList ∧ config.name = funcName) with
    | some config => .ok config.properties
    | none => .ok []

def stringTypes : List Text := ["string", "str", "text", "varchar", "char", "enum"].map String.toList

def intTypes : List Text := ["int", "uint", "long", "short", "unsigned"].map String.toList

def floatTypes : List Text := ["num", "float"].map String.toList

def boolTypes : List Text := ["boolean", "bool", "binary"].map String.toList

def startsWith (paramType : Text) (beginnings : List Text) : Bool := beginnings.any (fun beginning => beginning <+: paramType)

variable (python : Python ω)

def convertInt (paramValue : Text) : Value ω :=
  match python.int paramValue with
  | some value => .int value
  | none => .str paramValue

/-- A float without a fraction is an integer; one that `int` refuses stays a string. -/
def convertFloat (paramValue : Text) : Value ω :=
  match python.float paramValue with
  | none => .str paramValue
  | some floatParamValue =>
    match python.truncate floatParamValue with
    | none => .str paramValue
    | some whole => if python.equalsInt floatParamValue whole then .int whole else .other floatParamValue

def convertLiteral (paramValue : Text) : Value ω :=
  match python.literalEval paramValue with
  | some value => value
  | none => .str paramValue

def convertObject (paramType paramValue : Text) : Value ω :=
  if paramType = "object".toList ∨ startsWith paramType ["dict".toList] then
    match python.loads paramValue with
    | some value => value
    | none => convertLiteral python paramValue
  else convertLiteral python paramValue

def convertParamValue (paramValue paramName : Text) (paramConfig : List (Text × Text)) : Value ω :=
  if python.lower paramValue = "null".toList then .null
  else
    match paramConfig.lookup paramName with
    | none => .str paramValue
    | some type =>
      let paramType := python.lower (python.strip type)
      if paramType ∈ stringTypes then .str paramValue
      else if startsWith paramType intTypes then convertInt python paramValue
      else if startsWith paramType floatTypes then convertFloat python paramValue
      else if paramType ∈ boolTypes then .bool (python.lower paramValue = "true".toList)
      else convertObject python paramType paramValue

/-- The text before the first `>`, and the text behind it. -/
def cut (text : Text) : Except Failure (Text × Text) :=
  if '>' ∈ text then .ok (text.takeWhile (· ≠ '>'), (text.dropWhile (· ≠ '>')).tail) else .error .valueError

/-- Remove one newline before the value and one behind it. -/
def stripNewlines (paramValue : Text) : Text :=
  let paramValue := if paramValue.head? = some '\n' then paramValue.tail else paramValue
  if paramValue.getLast? = some '\n' then paramValue.dropLast else paramValue

/-- The body of the loop over the parameters. -/
def parseParameter (paramConfig : List (Text × Text)) (groups : List (Nat × Text)) : Except Failure (Text × Value ω) := do
  let parameter ← cut (matchText groups)
  return (parameter.1, convertParamValue python (stripNewlines parameter.2) parameter.1 paramConfig)

/-- `json.dumps` raises for an object that it does not know. -/
def dumps (arguments : Dict ω) : Except Failure (Dict ω) :=
  if ∀ argument ∈ arguments, ∀ object ∈ argument.2.object?, python.dumpable object = true then .ok arguments
  else .error .typeError

def parseXmlFunctionCall (tools : Option (List Tool)) (functionCallStr : Text) : Except Failure (FunctionCall ω) := do
  let function ← cut functionCallStr
  let paramConfig ← getArgumentsConfig tools function.1
  let parameters ← (toolCallParameterRegex.findGroups function.2).mapM (parseParameter python paramConfig)
  let arguments ← dumps python (Indexing.fromEntries parameters)
  return ⟨function.1, arguments⟩

def getFunctionCalls (modelOutput : Text) : List Text :=
  let rawToolCalls := (toolCallRegex.findGroups modelOutput).map matchText
  -- Back-off strategy if no tool_call tags found
  let rawToolCalls := if rawToolCalls = [] then [modelOutput] else rawToolCalls
  rawToolCalls.flatMap (fun toolCall => (toolCallFunctionRegex.findGroups toolCall).map matchText)

/-- The content before the tool calls. -/
def content (text : Text) : Text :=
  match find toolCallStartToken text with
  | some contentIndex => text.take contentIndex
  | none => (find toolCallPrefix text).elim text.dropLast text.take

def extractToolCalls (tools : Option (List Tool)) (text : Text) : Text × List (FunctionCall ω) :=
  if toolCallStartToken <:+: text then
    let functionCalls := getFunctionCalls text
    if functionCalls = [] then (text, [])
    else
      match functionCalls.mapM (parseXmlFunctionCall python tools) with
      | .ok toolCalls => (content text, toolCalls)
      | .error _ => (text, [])
  else (text, [])

end LLMFusion.Qwen3XMLToolParser
