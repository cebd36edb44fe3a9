import Mathlib
import LLMFusion.TorchFunctional
import LLMFusion.Lib.Grouping
import LLMFusion.Lib.Indexing

/-! Group labels as indices of groups, and statistics of the groups. Labels are the
elements of a numpy array. -/

namespace LLMFusion.Groupwise
open TorchFunctional Grouping Indexing

/-! ### Labels -/

/-- An element of an array of objects. -/
inductive Label where
  | int (value : Int)
  | text (value : String)
  deriving DecidableEq, Repr

/-- An array of labels, by its `dtype`. Integers of fewer bits are as those of 64. -/
inductive Index where
  | signed (labels : List (BitVec 64))
  | unsigned (labels : List (BitVec 64))
  | text (labels : List String)
  | objects (labels : List Label)

/-- The elements, as the keys of a dictionary. -/
def Index.labels : Index → List Label
  | signed labels => labels.map (fun label => .int label.toInt)
  | unsigned labels => labels.map (fun label => .int label.toNat)
  | text labels => labels.map .text
  | objects labels => labels

/-- `str.isspace` -/
def isSpace (c : Char) : Bool :=
  let n := c.toNat
  (0x9 ≤ n && n ≤ 0xD) || (0x1C ≤ n && n ≤ 0x20) || n == 0x85 || n == 0xA0 || n == 0x1680 ||
    (0x2000 ≤ n && n ≤ 0x200A) || n == 0x2028 || n == 0x2029 || n == 0x202F || n == 0x205F || n == 0x3000

def digit (c : Char) : Nat := c.toNat - '0'.toNat

/-- Digits, with single underscores between them. -/
def readDigits (value : Nat) : List Char → Option Nat
  | [] => some value
  | c :: rest =>
    if c.isDigit then readDigits (10 * value + digit c) rest
    else match rest with
      | [] => none
      | d :: rest => if c = '_' ∧ d.isDigit then readDigits (10 * value + digit d) rest else none

def readNat : List Char → Option Nat
  | [] => none
  | c :: rest => if c.isDigit then readDigits (digit c) rest else none

/-- `int(text)`, where the digits are those of ASCII. -/
def pythonInt (text : List Char) : Option Int :=
  let stripped := ((text.dropWhile isSpace).reverse.dropWhile isSpace).reverse
  match stripped with
  | '+' :: rest => (readNat rest).map (fun value : Nat => (value : Int))
  | '-' :: rest => (readNat rest).map (fun value : Nat => -(value : Int))
  | rest => (readNat rest).map (fun value : Nat => (value : Int))

/-- An integer in the range of `np.int64`; another one overflows. -/
def int64 (value : Int) : Option Int := if -2 ^ 63 ≤ value ∧ value < 2 ^ 63 then some value else none

/-- What `astype(np.int64)` makes of an element. -/
def coerce : Label → Option Int
  | .int value => int64 value
  | .text value => (pythonInt value.toList).bind int64

/-- `np.unique(labels, return_inverse=True)[1]` -/
def uniqueInverse {α : Type} [LinearOrder α] (labels : List α) : List Nat :=
  let unique := labels.dedup.mergeSort (fun a b => decide (a ≤ b))
  labels.map (fun label => unique.idxOf label)

def Label.toInt? : Label → Option Int
  | .int value => some value
  | .text _ => none

def Label.toText? : Label → Option String
  | .int _ => none
  | .text value => some value

/-- `str(label)` -/
def Label.str : Label → String
  | .int value => toString value
  | .text value => value

/-- Integers and strings do not compare: then all labels are made strings. -/
def factorize (labels : List Label) : List Nat :=
  match labels.mapM Label.toInt?, labels.mapM Label.toText? with
  | some ints, _ => uniqueInverse ints
  | none, some texts => uniqueInverse texts
  | none, none => uniqueInverse (labels.map Label.str)

def asTorchIndex (index : Index) : List Int :=
  match index with
  | .signed labels => labels.map BitVec.toInt
  | .unsigned labels => labels.map BitVec.toInt
  | index =>
    match index.labels.mapM coerce with
    | some coerced => coerced
    | none => (factorize index.labels).map (fun inv : Nat => (inv : Int))

/-! ### Statistics -/

section Statistics
variable {K : Type} [Field K] [LinearOrder K]

/-- `torch.zeros(G).index_add_(0, gidx, values)`, with no negative index. -/
def indexAdd (G : Nat) (gidx : List Nat) (values : List K) : List K :=
  (List.range G).map (fun g => (members (gidx.zip values) g).sum)

/-- The means, the standard deviations and the counts of the groups. -/
structure GroupStatistics (K : Type) where
  mean : List K
  std : List K
  count : List K

def groupMeanStd (sqrt : K → K) (scores : List K) (gidx : List Int) (eps : K) : Except Failure (GroupStatistics K) := do
  if scores.length ≠ gidx.length then throw (.lengthMismatch scores.length gidx.length)
  let G : Int := match gidx.max? with
    | some largest => largest + 1
    | none => 0
  if G = 0 then return ⟨[], [], []⟩
  if G < 0 then throw (.negativeDimension G)
  if gidx.any (· < 0) then throw .indexOutOfRange
  let gidx := gidx.map Int.toNat
  let count := indexAdd G.toNat gidx (scores.map (fun _ => 1))
  let s1 := indexAdd G.toNat gidx scores
  let mean := List.zipWith (fun s n => s / max n 1) s1 count
  let centered := List.zipWith (fun score g => score - mean.getD g 0) scores gidx
  let varNum := indexAdd G.toNat gidx (centered.map (fun c => c * c))
  let denom := count.map (fun n => max (n - 1) 1)
  let var := List.zipWith (fun v d => v / d) varNum denom
  let std := var.map (fun v => sqrt (max v eps))
  -- Singleton groups
  return {
    mean := List.zipWith (fun m n => if n ≤ 1 then 0 else m) mean count
    std := List.zipWith (fun s n => if n ≤ 1 then 1 else s) std count
    count := count }

end Statistics

end LLMFusion.Groupwise
