import LLMFusion.ToolParser

/-! The tool calls of Gemma 4: `<|tool_call>call:`, the name of the function, the arguments between
braces, and `<tool_call|>`. -/

namespace LLMFusion.Gemma4ToolParser
open Regex ToolParser

variable {ω : Type} (python : Python ω)

def toolCallStartToken : Text := "<|tool_call>".toList

def toolCallEndToken : Text := "<tool_call|>".toList

/-- What stands before the name of a function. -/
def toolCallOpening : Text := "<|tool_call>call:".toList

/-- What a string argument stands between. -/
def stringMarker : Text := "<|\"|>".toList

/-- `<\|tool_call>call:(\w+)\{(.*?)\}<tool_call\|>`, where a dot is any character -/
def toolCallRegex : Pattern Char :=
  (Pattern.literal toolCallOpening).seq <|
    ((Pattern.plus python.isWord).capture 1).seq <|
      (Pattern.literal "\x7b".toList).seq <|
        ((Pattern.many .reluctant (fun _ => true)).capture 2).seq (Pattern.literal ('\x7d' :: toolCallEndToken))

/-- `(?:<\|"\|>(.*?)<\|"\|>|([^,}]*))`, where a dot is any character but a newline -/
def valueRegex : Pattern Char :=
  ((Pattern.literal stringMarker).seq <|
    ((Pattern.many .reluctant (fun c => c ≠ '\n')).capture 2).seq (Pattern.literal stringMarker)).alt
  ((Pattern.many .greedy (fun c => c ≠ ',' ∧ c ≠ '\x7d')).capture 3)

/-- `(\w+):`, and the value -/
def argRegex : Pattern Char :=
  ((Pattern.plus python.isWord).capture 1).seq <| (Pattern.literal ":".toList).seq valueRegex

def parseBare (bareVal : Text) : Value ω :=
  let bareVal := python.strip bareVal
  if python.lower bareVal = "true".toList then .bool true
  else if python.lower bareVal = "false".toList then .bool false
  else if python.lower bareVal = "null".toList then .null
  else
    match python.int bareVal with
    | some value => .int value
    | none =>
      match python.float bareVal with
      | some value => .other value
      | none => .str bareVal

/-- The body of the loop of `_parse_arguments`: the entry that it writes. -/
def parseArgument (groups : List (Nat × Text)) : Option (Text × Value ω) :=
  let key := (group groups 1).getD []
  match group groups 2, group groups 3 with
  | some strVal, _ => some (key, .str strVal)
  | none, some bareVal => some (key, parseBare python bareVal)
  | none, none => none

def parseArguments (argsStr : Text) : Dict ω :=
  Indexing.fromEntries (((argRegex python).findGroups argsStr).filterMap (parseArgument python))

/-- A text that comes without its padding tokens. -/
def unpadded (padToken : Option Text) (text : Text) : Text :=
  match padToken with
  | some padToken => if padToken = [] then text else remove padToken text
  | none => text

/-- `text` is what the tokenizer decodes, special tokens included. -/
def extractToolCalls (padToken : Option Text) (text : Text) : Text × List (FunctionCall ω) :=
  let text := unpadded padToken text
  if toolCallStartToken <:+: text then
    let toolCalls := (toolCallRegex python).findGroups text
    if toolCalls = [] then (text, [])
    else
      (before toolCallStartToken text, toolCalls.map (fun groups =>
        ⟨(group groups 1).getD [], parseArguments python ((group groups 2).getD [])⟩))
  else (text, [])

end LLMFusion.Gemma4ToolParser
