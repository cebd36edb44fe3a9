import LLMFusion.ToolParser

/-! The boxed answer at the end of a solution. A box is written with braces or with a space behind
it, and the scorers of the exact and of the rule-based tasks cut it out with the same function. -/

namespace LLMFusion.BoxedAnswer
open ToolParser

def solutionClipChars : Nat := 300

/-- `model_output[-_SOLUTION_CLIP_CHARS:]` -/
def clip (modelOutput : Text) : Text := Indexing.fromIndex modelOutput (-(solutionClipChars : Int))

def boxed : Text := "\\boxed".toList

def boxedSpace : Text := "\\boxed ".toList

def boxedBrace : Text := "\\boxed\x7b".toList

def fbox : Text := "\\fbox".toList

def fboxBrace : Text := "\\fbox\x7b".toList

/-- `string.rfind(word)` -/
def rfind (word : Text) : Text → Option Nat
  | [] => if word = [] then some 0 else none
  | c :: text =>
    match rfind word text with
    | some index => some (index + 1)
    | none => if word <+: c :: text then some 0 else none

/-- The pieces behind the skipped characters; the first of them is under way. -/
def splitFrom (word : Text) : Nat → Text → Text → List Text
  | _, piece, [] => [piece]
  | skip + 1, piece, _ :: text => splitFrom word skip piece text
  | 0, piece, c :: text =>
    if word <+: c :: text then piece :: splitFrom word (word.length - 1) [] text else splitFrom word 0 (piece ++ [c]) text

/-- `string.split(word)` -/
def split (word text : Text) : List Text := splitFrom word 0 [] text

/-- Where the braces that are opened are closed again, the loop over `i`. -/
def rightBrace : Int → Text → Option Nat
  | _, [] => none
  | numLeftBracesOpen, c :: text =>
    let numLeftBracesOpen := if c = '\x7b' then numLeftBracesOpen + 1 else numLeftBracesOpen
    if c = '\x7d' then
      if numLeftBracesOpen - 1 = 0 then some 0 else (rightBrace (numLeftBracesOpen - 1) text).map (· + 1)
    else (rightBrace numLeftBracesOpen text).map (· + 1)

/-- `string[idx : right_brace_idx + 1]` -/
def braced (string : Text) (idx : Nat) : Option Text :=
  (rightBrace 0 (string.drop idx)).map (fun rightBraceIdx => (string.drop idx).take (rightBraceIdx + 1))

def lastBoxedOnlyString (string : Text) : Option Text :=
  if boxedSpace <:+: string then
    some (boxedSpace ++ (((split boxedSpace string).getLastD []).takeWhile (· ≠ '$')))
  else
    match rfind boxed string with
    | some idx => braced string idx
    | none =>
      match rfind fbox string with
      | some idx => braced string idx
      | none => none

def removeBoxed (s : Text) : Option Text :=
  if s.take boxedBrace.length = boxedBrace ∧ s.getLast? = some '\x7d' then some (s.drop boxedBrace.length).dropLast else none

variable {ω : Type} (python : Python ω)

def extractBoxedContent : Option Text → Option Text
  | none => none
  | some boxedStr =>
    if boxedBrace <+: boxedStr then removeBoxed boxedStr
    else if fboxBrace <+: boxedStr then removeBoxed (boxedBrace ++ boxedStr.drop fboxBrace.length)
    else if boxedSpace <+: boxedStr then some (python.strip (boxedStr.drop boxedSpace.length))
    else none

end LLMFusion.BoxedAnswer
