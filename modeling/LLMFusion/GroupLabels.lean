import LLMFusion.Groupwise

/-! Group labels of every kind as indices: floats, UUIDs and tensors besides integers and strings. A label
vector is the tensor that it is, or the array that `np.asarray` makes of it. -/

namespace LLMFusion.Groupwise

/-- Finite floats: the value of each, and what `str` makes of it. -/
structure Floats (F : Type) where
  value : F → ℚ
  repr : F → String

/-- An element of an array of objects. -/
inductive PyLabel (F : Type) where
  | int (value : Int)
  | float (value : F)
  | text (value : String)
  | uuid (value : BitVec 128)

/-- A label vector by its `dtype`. Integers of fewer bits are as those of 64. -/
inductive LabelVector (F : Type) where
  /-- A tensor of integers or of booleans. -/
  | intTensor (labels : List (BitVec 64))
  | floatTensor (labels : List F)
  | signed (labels : List (BitVec 64))
  | unsigned (labels : List (BitVec 64))
  | bools (labels : List Bool)
  | floats (labels : List F)
  | texts (labels : List String)
  | objects (labels : List (PyLabel F))

section Conversions
variable {F : Type} (floats : Floats F)

/-- `np.rint` and `torch.round`: halves go to the even neighbour. -/
def rint (x : ℚ) : Int :=
  let n := ⌊x + 1 / 2⌋
  if x + 1 / 2 = n ∧ n % 2 = 1 then n - 1 else n

/-- `int(x)` -/
def truncate (x : ℚ) : Int := if 0 ≤ x then ⌊x⌋ else ⌈x⌉

/-- `allclose(x, rint(x), rtol=0.0, atol=1e-6)` at one element -/
def nearInteger (x : ℚ) : Bool := decide (|x - rint x| ≤ 1 / 10 ^ 6)

/-- `astype(np.int64)` of a float, which gives the least integer where there is none. -/
def toInt64 (n : Int) : Int := (int64 n).getD (-2 ^ 63)

/-- What `astype(np.int64)` makes of a string, when it does not raise. -/
def readText (text : String) : Option Int := (pythonInt text.toList).bind int64

/-- A hexadecimal digit. -/
def hexDigit (n : Nat) : Char := "0123456789abcdef".toList.getD n '0'

/-- The hexadecimal digits of a UUID, the first one first. -/
def uuidDigits (value : BitVec 128) : List Char :=
  (List.range 32).map (fun place => hexDigit (value.toNat / 16 ^ (31 - place) % 16))

/-- `str(uuid)` -/
def uuidStr (value : BitVec 128) : String :=
  let digits := uuidDigits value
  String.ofList (digits.take 8 ++ ['-'] ++ (digits.drop 8).take 4 ++ ['-'] ++ (digits.drop 12).take 4 ++ ['-'] ++
    (digits.drop 16).take 4 ++ ['-'] ++ digits.drop 20)

namespace PyLabel

/-- What `astype(np.int64)` makes of an object, when it does not raise. -/
def coerce : PyLabel F → Option Int
  | int value => int64 value
  | float value => int64 (truncate (floats.value value))
  | text value => readText value
  | uuid value => int64 value.toNat

/-- `str(label)` -/
def str : PyLabel F → String
  | int value => toString value
  | float value => floats.repr value
  | text value => value
  | uuid value => uuidStr value

def toNumber? : PyLabel F → Option ℚ
  | int value => some value
  | float value => some (floats.value value)
  | _ => none

def toText? : PyLabel F → Option String
  | text value => some value
  | _ => none

def toUuid? : PyLabel F → Option Nat
  | uuid value => some value.toNat
  | _ => none

end PyLabel

/-- `np.unique`, which raises when two labels do not compare; then all labels are made strings. -/
def factorizeLabels (labels : List (PyLabel F)) : List Nat :=
  match labels.mapM (PyLabel.toNumber? floats), labels.mapM PyLabel.toText?, labels.mapM PyLabel.toUuid? with
  | some numbers, _, _ => uniqueInverse numbers
  | none, some texts, _ => uniqueInverse texts
  | none, none, some uuids => uniqueInverse uuids
  | none, none, none => uniqueInverse (labels.map (PyLabel.str floats))

/-- `inv.astype(np.int64)` -/
def asIndex (inverse : List Nat) : List Int := inverse.map (fun inv : Nat => (inv : Int))

/-- `as_torch_index` of every label vector. -/
def LabelVector.asTorchIndex : LabelVector F → List Int
  | intTensor labels => labels.map BitVec.toInt
  | floatTensor labels =>
    if labels.all (fun label => nearInteger (floats.value label)) then
      labels.map (fun label => toInt64 (rint (floats.value label)))
    else asIndex (uniqueInverse (labels.map floats.repr))
  | signed labels => labels.map BitVec.toInt
  | unsigned labels => labels.map BitVec.toInt
  | bools labels => labels.map (fun label => if label then 1 else 0)
  | LabelVector.floats labels =>
    if labels.all (fun label => nearInteger (floats.value label)) then
      labels.map (fun label => toInt64 (rint (floats.value label)))
    else labels.map (fun label => toInt64 (truncate (floats.value label)))
  | texts labels =>
    match labels.mapM readText with
    | some coerced => coerced
    | none => asIndex (uniqueInverse labels)
  | objects labels =>
    match labels.mapM (PyLabel.coerce floats) with
    | some coerced => coerced
    | none => asIndex (factorizeLabels floats labels)

end Conversions

end LLMFusion.Groupwise
