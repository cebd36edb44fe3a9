import LLMFusion.Lib.Regex
import LLMFusion.Lib.Indexing
import Mathlib.Data.List.DropRight

/-! What the tool parsers share. A text is a list of characters, a function call has its arguments
as they are before `json.dumps` writes them, and `ω` are the other objects that Python parses. -/

namespace LLMFusion.ToolParser

abbrev Text := List Char

inductive Value (ω : Type) where
  | str (text : Text)
  | null
  | bool (value : Bool)
  | int (value : Int)
  | other (object : ω)
  deriving DecidableEq, Repr

def Value.object? {ω : Type} : Value ω → Option ω
  | .other object => some object
  | _ => none

/-- The entries of a dictionary, in the order in which the keys were first inserted. -/
abbrev Dict (ω : Type) := List (Text × Value ω)

structure FunctionCall (ω : Type) where
  name : Text
  arguments : Dict ω
  deriving DecidableEq, Repr

/-- `str` of an integer -/
def intText : Int → Text
  | .ofNat value => Nat.toDigits 10 value
  | .negSucc value => '-' :: Nat.toDigits 10 (value + 1)

/-- An integer that has no more digits than `sys.get_int_max_str_digits()`; zero is no limit. -/
def Readable (maxStrDigits : Nat) (value : Int) : Prop :=
  maxStrDigits = 0 ∨ (Nat.toDigits 10 value.natAbs).length ≤ maxStrDigits

/-- What Python says of characters and of the texts of its objects. Of the tables of Unicode only
ASCII is fixed. -/
structure Python (ω : Type) where
  /-- `\w` -/
  isWord : Char → Bool
  isSpace : Char → Bool
  lower : Text → Text
  /-- `None` where `int` raises; the same for the other ones. -/
  int : Text → Option Int
  float : Text → Option ω
  /-- `int` of a float -/
  truncate : ω → Option Int
  equalsInt : ω → Int → Bool
  loads : Text → Option (Value ω)
  literalEval : Text → Option (Value ω)
  /-- Whether `json.dumps` takes the object. -/
  dumpable : ω → Bool
  maxStrDigits : Nat
  isWord_ascii : ∀ c, c.toNat < 128 → isWord c = (c.isAlphanum || c = '_')
  isSpace_printable : ∀ c, 32 < c.toNat → c.toNat < 127 → isSpace c = false
  lower_ascii : ∀ text : Text, (∀ c ∈ text, c.toNat < 128) → lower text = text.map Char.toLower
  int_intText : ∀ value, Readable maxStrDigits value → int (intText value) = some value
  int_readable : ∀ text value, int text = some value → Readable maxStrDigits value

/-- `text.strip()` -/
def Python.strip {ω : Type} (python : Python ω) (text : Text) : Text :=
  (text.dropWhile python.isSpace).rdropWhile python.isSpace

/-- `match.group(number)` -/
def group (groups : List (Nat × Text)) (number : Nat) : Option Text := groups.lookup number

/-- `text.find(word)` -/
def find (word : Text) : Text → Option Nat
  | [] => if word = [] then some 0 else none
  | c :: text => if word <+: c :: text then some 0 else (find word text).map (· + 1)

/-- The text behind the skipped characters, without the word. -/
def removeFrom (word : Text) : Nat → Text → Text
  | _, [] => []
  | skip + 1, _ :: text => removeFrom word skip text
  | 0, c :: text => if word <+: c :: text then removeFrom word (word.length - 1) text else c :: removeFrom word 0 text

/-- `text.replace(word, "")` -/
def remove (word text : Text) : Text := removeFrom word 0 text

/-- The text before the first of the words. -/
def before (word text : Text) : Text := (find word text).elim text text.take

end LLMFusion.ToolParser
