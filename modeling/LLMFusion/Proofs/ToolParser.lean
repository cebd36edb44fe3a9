import LLMFusion.ToolParser

/-! Characters of numbers, texts without a word, and a Python that knows the characters of ASCII. -/

namespace LLMFusion.ToolParser
open Regex

variable {ω : Type} {python : Python ω}

theorem each_char {p : Char → Prop} [DecidablePred p] {text : Text} (all : text.all (fun c => decide (p c)) = true) :
    ∀ c ∈ text, p c :=
  fun c member => of_decide_eq_true (List.all_eq_true.mp all c member)

theorem option_char {p : Char → Prop} [DecidablePred p] {last : Option Char} (all : last.all (fun c => decide (p c)) = true) :
    ∀ c ∈ last, p c := by
  intro c member
  cases member
  exact of_decide_eq_true all

theorem word_ascii (c : Char) (ascii : c.toNat < 128) (punctuation : (c.isAlphanum || c = '_') = false) :
    python.isWord c = false := by
  rw [python.isWord_ascii c ascii, punctuation]

theorem word_absent {c : Char} {word : Text} (all : ∀ c ∈ word, python.isWord c = true) (other : python.isWord c = false) :
    c ∉ word := by
  intro member
  rw [all c member] at other
  cases other

theorem strip_spaces (python : Python ω) (text : Text) : ∃ front behind, text = front ++ (python.strip text ++ behind) ∧
    (∀ c ∈ front, python.isSpace c = true) ∧ ∀ c ∈ behind, python.isSpace c = true := by
  have split : python.strip text ++ (text.dropWhile python.isSpace).rtakeWhile python.isSpace = text.dropWhile python.isSpace :=
    List.rdropWhile_append_rtakeWhile
  refine ⟨text.takeWhile python.isSpace, (text.dropWhile python.isSpace).rtakeWhile python.isSpace, ?_, ?_, ?_⟩
  · rw [split, List.takeWhile_append_dropWhile]
  · exact fun c member => List.mem_takeWhile_imp member
  · exact fun c member => List.mem_rtakeWhile_imp member

theorem toDigits_char {value : Nat} {c : Char} (member : c ∈ Nat.toDigits 10 value) : 48 ≤ c.toNat ∧ c.toNat ≤ 57 := by
  have digit := Nat.isDigit_of_mem_toDigits (by decide) (by decide) member
  simpa [Char.isDigit, UInt32.le_iff_toNat_le] using digit

theorem intText_char {value : Int} {c : Char} (member : c ∈ intText value) : (48 ≤ c.toNat ∧ c.toNat ≤ 57) ∨ c.toNat = 45 := by
  cases value with
  | ofNat value => exact Or.inl (toDigits_char member)
  | negSucc value =>
    cases List.mem_cons.mp member with
    | inl same => exact Or.inr (same ▸ rfl)
    | inr member => exact Or.inl (toDigits_char member)

theorem free_absent {c : Char} {word text : Text} (member : c ∈ word) (absent : c ∉ text) : Free word text :=
  fun occurs => absent (occurs.subset member)

theorem remove_free {word : Text} (free : Free word text) : remove word text = text := by
  rw [remove]
  induction text with
  | nil => rfl
  | cons c text ih =>
    have missed : ¬ word <+: c :: text := fun here => free here.isInfix
    rw [removeFrom, if_neg missed, ih (free.suffix (List.suffix_cons c text))]

/-- The number of some digits. -/
def readDigits (digits : Text) : Option Nat :=
  if digits ≠ [] ∧ digits.all Char.isDigit then some (Nat.ofDigitChars 10 digits 0) else none

theorem readDigits_toDigits (value : Nat) : readDigits (Nat.toDigits 10 value) = some value := by
  have digits : (Nat.toDigits 10 value).all Char.isDigit = true :=
    List.all_eq_true.mpr (fun c member => Nat.isDigit_of_mem_toDigits (by decide) (by decide) member)
  rw [readDigits, if_pos ⟨Nat.toDigits_ne_nil, digits⟩, Nat.ofDigitChars_ten_toDigits]

def readInt (text : Text) : Option Int :=
  if text.head? = some '-' then (readDigits text.tail).map (fun value => -Int.ofNat value) else (readDigits text).map Int.ofNat

theorem readInt_intText (value : Int) : readInt (intText value) = some value := by
  cases value with
  | ofNat value =>
    have digits : ¬ (intText (.ofNat value)).head? = some '-' := by
      intro sign
      have digit := toDigits_char (List.mem_of_mem_head? sign)
      exact absurd digit.1 (by decide)
    rw [readInt, if_neg digits, intText, readDigits_toDigits]
    rfl
  | negSucc value =>
    rw [readInt, intText, List.head?_cons, if_pos rfl, List.tail_cons, readDigits_toDigits]
    rfl

/-- A Python that knows the characters of ASCII, and no other objects. -/
def ascii : Python Empty where
  isWord := fun c => c.isAlphanum || c = '_'
  isSpace := fun c => c.toNat ≤ 32
  lower := List.map Char.toLower
  int := readInt
  float := fun _ => none
  truncate := fun _ => none
  equalsInt := fun _ _ => false
  loads := fun _ => none
  literalEval := fun _ => none
  dumpable := fun _ => false
  maxStrDigits := 0
  isWord_ascii := fun _ _ => rfl
  isSpace_printable := fun _ above _ => decide_eq_false (Nat.not_le.mpr above)
  lower_ascii := fun _ _ => rfl
  int_intText := fun value _ => readInt_intText value
  int_readable := fun _ _ _ => Or.inl rfl

end LLMFusion.ToolParser
