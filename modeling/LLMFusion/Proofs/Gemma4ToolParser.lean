import LLMFusion.Gemma4ToolParser
import LLMFusion.Proofs.ToolParser

/-! When the arguments that are written for Gemma 4 are read back. A string without a newline is found
between its markers, whatever else is in it. One with a newline is taken for a bare value from its
marker on; and where a part of another one looks like the same argument, that other one is longer and
has a newline itself, so the longest of them is never read. -/

namespace LLMFusion.Gemma4ToolParser
open List
open Regex ToolParser

variable {ω : Type} {python : Python ω}

/-! ### The documented format -/

def renderValue : Value ω → Text
  | .str text => stringMarker ++ (text ++ stringMarker)
  | .null => "null".toList
  | .bool value => if value then "true".toList else "false".toList
  | .int value => intText value
  | .other _ => []

def renderArgument (argument : Text × Value ω) : Text := argument.1 ++ (":".toList ++ renderValue argument.2)

/-- What stands behind an argument. -/
def renderBehind (arguments : Dict ω) : Text := arguments.flatMap (fun argument => ',' :: renderArgument argument)

def renderArguments : Dict ω → Text
  | [] => []
  | argument :: arguments => renderArgument argument ++ renderBehind arguments

/-- A string without the marker and the tags, an integer, a boolean or null. -/
def Plain : Value ω → Prop
  | .str text => Free stringMarker text ∧ Free toolCallStartToken text ∧ Free toolCallEndToken text
  | .other _ => False
  | _ => True

instance : DecidablePred (@Plain ω) := fun value =>
  match value with
  | .str text => inferInstanceAs (Decidable (Free stringMarker text ∧ Free toolCallStartToken text ∧ Free toolCallEndToken text))
  | .other _ => isFalse (fun impossible => impossible)
  | .null | .bool _ | .int _ => isTrue trivial

/-- A call of a function whose name and keys are of word characters. -/
structure Call (python : Python ω) where
  name : Text
  arguments : Dict ω
  name_word : ∀ c ∈ name, python.isWord c = true
  keys_word : ∀ argument ∈ arguments, ∀ c ∈ argument.1, python.isWord c = true
  distinct : (arguments.map Prod.fst).Nodup
  plain : ∀ argument ∈ arguments, Plain argument.2

namespace Call

def functionCall (call : Call python) : FunctionCall ω := ⟨call.name, call.arguments⟩

def render (call : Call python) : Text :=
  toolCallOpening ++ (call.name ++ ("\x7b".toList ++ (renderArguments call.arguments ++
    ('\x7d' :: toolCallEndToken))))

end Call

def render (calls : List (Call python)) : Text := calls.flatMap Call.render

/-! ### Characters -/

/-- The characters of numbers and constants: digits, the sign and small letters. -/
def Bare (c : Char) : Prop := (48 ≤ c.toNat ∧ c.toNat ≤ 57) ∨ c.toNat = 45 ∨ (97 ≤ c.toNat ∧ c.toNat ≤ 122)

instance (c : Char) : Decidable (Bare c) := inferInstanceAs (Decidable (_ ∨ _ ∨ _))

theorem Bare.ne {c other : Char} (bare : Bare c) (different : ¬ Bare other) : c ≠ other :=
  fun same => different (same ▸ bare)

theorem Bare.ascii {c : Char} (bare : Bare c) : c.toNat < 128 := by
  unfold Bare at bare
  omega

theorem Bare.isSpace {c : Char} (bare : Bare c) : python.isSpace c = false := by
  unfold Bare at bare
  exact python.isSpace_printable c (by omega) (by omega)

theorem renderValue_bare {value : Value ω} (plain : Plain value) (bare : ∀ text, value ≠ .str text) :
    ∀ c ∈ renderValue value, Bare c := by
  cases value with
  | str text => exact absurd rfl (bare text)
  | null =>
    have all : ∀ c ∈ "null".toList, Bare c := each_char (by decide)
    exact all
  | bool value =>
    have all : ∀ c ∈ "true".toList ++ "false".toList, Bare c := each_char (by decide)
    cases value with
    | true => exact fun c member => all c (mem_append_left _ member)
    | false => exact fun c member => all c (mem_append_right _ member)
  | int value => exact fun c member => (intText_char member).imp_right Or.inl
  | other object => exact plain.elim

/-! ### Reading a bare value back -/

theorem strip_bare {text : Text} (bare : ∀ c ∈ text, Bare c) : python.strip text = text := by
  have front : text.dropWhile python.isSpace = text := by
    cases text with
    | nil => rfl
    | cons c text => exact dropWhile_cons_of_neg (by simp [(bare c mem_cons_self).isSpace])
  rw [Python.strip, front]
  by_cases empty : text = []
  · rw [empty, rdropWhile_nil]
  · rw [rdropWhile_eq_self_iff]
    intro some
    simp [(bare _ (getLast_mem some)).isSpace]

theorem toLower_digit {c : Char} (digit : (48 ≤ c.toNat ∧ c.toNat ≤ 57) ∨ c.toNat = 45) : c.toLower = c := by
  have upper : ¬ (c.val ≥ 'A'.val ∧ c.val ≤ 'Z'.val) := by
    intro upper
    have bound : 65 ≤ c.toNat := UInt32.le_iff_toNat_le.mp upper.1
    omega
  exact dif_neg upper

theorem lower_intText (value : Int) : python.lower (intText value) = intText value := by
  have ascii : ∀ c ∈ intText value, c.toNat < 128 := by
    intro c member
    have digit := intText_char member
    omega
  rw [python.lower_ascii _ ascii]
  calc (intText value).map Char.toLower = (intText value).map id :=
        map_congr_left (fun c member => toLower_digit (intText_char member))
    _ = intText value := map_id _

theorem intText_ne {value : Int} {c : Char} {word : Text} (letter : 97 ≤ c.toNat) (member : c ∈ word) :
    intText value ≠ word := by
  intro constant
  have digit := intText_char (constant ▸ member)
  omega

theorem parseBare_int {value : Int} (readable : Readable python.maxStrDigits value) :
    parseBare python (intText value) = .int value := by
  have strip : python.strip (intText value) = intText value :=
    strip_bare (fun c member => (intText_char member).imp_right Or.inl)
  have noTrue : intText value ≠ "true".toList := @intText_ne value 't' _ (by decide) (by decide)
  have noFalse : intText value ≠ "false".toList := @intText_ne value 'f' _ (by decide) (by decide)
  have noNull : intText value ≠ "null".toList := @intText_ne value 'n' _ (by decide) (by decide)
  simp only [parseBare, strip, lower_intText, noTrue, noFalse, noNull, if_false, python.int_intText value readable]

theorem parseBare_constant {word : Text} (bare : ∀ c ∈ word, Bare c) (small : word.map Char.toLower = word) :
    python.lower (python.strip word) = word := by
  rw [strip_bare bare, python.lower_ascii word (fun c member => (bare c member).ascii), small]

theorem parseBare_render {value : Value ω} (plain : Plain value) (bare : ∀ text, value ≠ .str text)
    (readable : ∀ number, value = .int number → Readable python.maxStrDigits number) :
    parseBare python (renderValue value) = value := by
  have chars := renderValue_bare plain bare
  cases value with
  | str text => exact absurd rfl (bare text)
  | null =>
    have constant : python.lower (python.strip "null".toList) = "null".toList := parseBare_constant chars (by decide)
    rw [renderValue, parseBare, constant, if_neg (by decide), if_neg (by decide), if_pos rfl]
  | bool value =>
    cases value with
    | true =>
      have constant : python.lower (python.strip "true".toList) = "true".toList := parseBare_constant chars (by decide)
      rw [renderValue, if_pos rfl, parseBare, constant, if_pos rfl]
    | false =>
      have constant : python.lower (python.strip "false".toList) = "false".toList := parseBare_constant chars (by decide)
      rw [renderValue, if_neg Bool.false_ne_true, parseBare, constant, if_neg (by decide), if_pos rfl]
  | int value => exact parseBare_int (readable value rfl)
  | other object => exact plain.elim

/-! ### What is found first -/

theorem first_value_str {text : Text} (free : Free stringMarker text) (line : '\n' ∉ text) (rest : Text) :
    (valueRegex.run (renderValue (.str text : Value ω) ++ rest)).head? =
      some ⟨renderValue (.str text : Value ω), rest, [(2, text)]⟩ := by
  have all : ∀ c ∈ text, decide (c ≠ '\n') = true := by
    intro c member
    exact decide_eq_true (fun same => line (same ▸ member))
  have closed := first_reluctant 2 all free (by decide) rest
  have opened := first_literal_seq stringMarker closed
  rw [renderValue, append_assoc, append_assoc]
  exact first_alt_left opened

theorem renderValue_head {value : Value ω} (plain : Plain value) (bare : ∀ text, value ≠ .str text) {rest : Text}
    (ends : ∀ c ∈ rest.head?, c = ',' ∨ c = '\x7d') : ¬ stringMarker <+: renderValue value ++ rest := by
  intro opened
  have first : (renderValue value ++ rest).head? = some '<' := by
    obtain ⟨later, joined⟩ := opened
    rw [← joined]
    rfl
  rw [head?_append, Option.or_eq_some_iff] at first
  cases first with
  | inl here => exact absurd rfl ((renderValue_bare plain bare '<' (mem_of_mem_head? here)).ne (by decide))
  | inr here =>
    cases ends '<' here.2 with
    | inl same => exact absurd same (by decide)
    | inr same => exact absurd same (by decide)

theorem first_value_bare {value : Value ω} (plain : Plain value) (bare : ∀ text, value ≠ .str text) {rest : Text}
    (ends : ∀ c ∈ rest.head?, c = ',' ∨ c = '\x7d') :
    (valueRegex.run (renderValue value ++ rest)).head? = some ⟨renderValue value, rest, [(3, renderValue value)]⟩ := by
  have all : ∀ c ∈ renderValue value, decide (c ≠ ',' ∧ c ≠ '\x7d') = true := by
    intro c member
    have char := renderValue_bare plain bare c member
    exact decide_eq_true ⟨char.ne (by decide), char.ne (by decide)⟩
  have ended : ∀ c ∈ rest.head?, decide (c ≠ ',' ∧ c ≠ '\x7d') = false := by
    intro c member
    exact decide_eq_false (fun stays => (ends c member).elim stays.1 stays.2)
  rw [valueRegex, first_alt_right (run_literal_missed (renderValue_head plain bare ends) _)]
  exact first_capture 3 (first_greedy_ends all ended)

/-- How an argument is found: a string by its second group, and another value by its third. -/
def argumentGroups (argument : Text × Value ω) : List (Nat × Text) :=
  match argument.2 with
  | .str text => [(1, argument.1), (2, text)]
  | value => [(1, argument.1), (3, renderValue value)]

/-- An argument that is found in its text and read back from there. -/
structure Faithful (python : Python ω) (argument : Text × Value ω) : Prop where
  key : argument.1 ≠ []
  line : ∀ text, argument.2 = .str text → '\n' ∉ text
  readable : ∀ value, argument.2 = .int value → Readable python.maxStrDigits value

variable {argument : Text × Value ω} {rest : Text}

theorem first_argument (word : ∀ c ∈ argument.1, python.isWord c = true) (plain : Plain argument.2)
    (faithful : Faithful python argument) (ends : ∀ c ∈ rest.head?, c = ',' ∨ c = '\x7d') :
    ((argRegex python).run (renderArgument argument ++ rest)).head? =
      some ⟨renderArgument argument, rest, argumentGroups argument⟩ := by
  obtain ⟨key, value⟩ := argument
  have found : (valueRegex.run (renderValue value ++ rest)).head? =
      some ⟨renderValue value, rest, (argumentGroups (key, value)).tail⟩ := by
    cases value with
    | str text => exact first_value_str plain.1 (faithful.line text rfl) rest
    | null => exact first_value_bare plain (by simp) ends
    | bool value => exact first_value_bare plain (by simp) ends
    | int value => exact first_value_bare plain (by simp) ends
    | other object => exact plain.elim
  have colon : ∀ c ∈ (":".toList ++ (renderValue value ++ rest)).head?, python.isWord c = false := by
    intro c member
    cases member
    exact word_ascii ':' (by decide) (by decide)
  have named := first_seq_first (first_capture 1 (first_plus faithful.key word colon)) (first_literal_seq ":".toList found)
  rw [renderArgument, append_assoc, append_assoc]
  refine named.trans (congrArg some ?_)
  cases value <;> rfl

theorem argRegex_missed {c : Char} (other : python.isWord c = false) (later : Text) : (argRegex python).run (c :: later) = [] := by
  simp [argRegex, Pattern.run, Pattern.plus, other]

theorem renderBehind_head {arguments : Dict ω} : ∀ c ∈ (renderBehind arguments).head?, c = ',' ∨ c = '\x7d' := by
  intro c member
  cases arguments with
  | nil => cases member
  | cons argument arguments =>
    cases member
    exact Or.inl rfl

section
variable {arguments : Dict ω} (words : ∀ argument ∈ arguments, ∀ c ∈ argument.1, python.isWord c = true)
  (plain : ∀ argument ∈ arguments, Plain argument.2)
  (faithful : ∀ argument ∈ arguments, Faithful python argument)
include arguments words plain faithful

theorem findGroups_behind : (argRegex python).findGroups (renderBehind arguments) = arguments.map argumentGroups := by
  induction arguments with
  | nil =>
    have missed : (argRegex python).run [] = [] := by simp [argRegex, Pattern.run, Pattern.plus]
    rw [renderBehind, flatMap_nil, Pattern.findGroups, findAll_end missed]
    rfl
  | cons argument arguments ih =>
    have comma : ∀ c ∈ [','], ∀ later, (argRegex python).run (c :: later) = [] := by
      intro c member later
      cases mem_singleton.mp member
      exact argRegex_missed (word_ascii ',' (by decide) (by decide)) later
    obtain ⟨word, words⟩ := forall_mem_cons.mp words
    obtain ⟨plain, others⟩ := forall_mem_cons.mp plain
    obtain ⟨here, faithful⟩ := forall_mem_cons.mp faithful
    have some : renderArgument argument ≠ [] := append_ne_nil_of_left_ne_nil here.key _
    have ends : ∀ c ∈ (renderBehind arguments).head?, c = ',' ∨ c = '\x7d' := renderBehind_head
    have first := findGroups_first some (first_argument word plain here ends)
    have text : renderBehind (argument :: arguments) = [','] ++ (renderArgument argument ++ renderBehind arguments) := by
      simp [renderBehind]
    rw [text, Pattern.findGroups, findAll_missed comma, ← Pattern.findGroups, first, ih words others faithful]
    rfl

theorem findGroups_arguments :
    (argRegex python).findGroups (renderArguments arguments) = arguments.map argumentGroups := by
  cases arguments with
  | nil => exact findGroups_behind words plain faithful
  | cons argument arguments =>
    obtain ⟨word, words⟩ := forall_mem_cons.mp words
    obtain ⟨plain, others⟩ := forall_mem_cons.mp plain
    obtain ⟨here, faithful⟩ := forall_mem_cons.mp faithful
    have some : renderArgument argument ≠ [] := append_ne_nil_of_left_ne_nil here.key _
    have ends : ∀ c ∈ (renderBehind arguments).head?, c = ',' ∨ c = '\x7d' := renderBehind_head
    rw [renderArguments, findGroups_first some (first_argument word plain here ends),
      findGroups_behind words others faithful]
    rfl

end

theorem parseArgument_groups (plain : Plain argument.2) (faithful : Faithful python argument) :
    parseArgument python (argumentGroups argument) = some argument := by
  obtain ⟨key, value⟩ := argument
  have entry : ∀ value' : Value ω, value' = value → some (key, value') = some (key, value) :=
    fun value' same => congrArg (fun value => some (key, value)) same
  cases value with
  | str text => rfl
  | null => exact entry _ (parseBare_render plain (by simp) (by simp))
  | bool value => exact entry _ (parseBare_render plain (by simp) (by simp))
  | int value => exact entry _ (parseBare_render plain (by simp) (fun number same => faithful.readable number same))
  | other object => exact plain.elim

theorem parseArguments_render {arguments : Dict ω} (words : ∀ argument ∈ arguments, ∀ c ∈ argument.1, python.isWord c = true)
    (distinct : (arguments.map Prod.fst).Nodup) (plain : ∀ argument ∈ arguments, Plain argument.2)
    (faithful : ∀ argument ∈ arguments, Faithful python argument) :
    parseArguments python (renderArguments arguments) = arguments := by
  have read : (arguments.map argumentGroups).filterMap (parseArgument python) = arguments := by
    rw [filterMap_map]
    calc arguments.filterMap (parseArgument python ∘ argumentGroups)
        = arguments.filterMap some := filterMap_congr (fun argument member =>
          parseArgument_groups (plain argument member) (faithful argument member))
      _ = arguments := filterMap_some
  rw [parseArguments, findGroups_arguments words plain faithful, read, Indexing.fromEntries_distinct distinct]

/-! ### Calls -/

theorem free_value {value : Value ω} (plain : Plain value) : Free toolCallEndToken (renderValue value) := by
  have bracket : ¬ Bare '<' := by decide
  have absent : (∀ text, value ≠ .str text) → Free toolCallEndToken (renderValue value) := fun bare =>
    @free_absent '<' _ _ (by decide) (fun member => bracket (renderValue_bare plain bare '<' member))
  cases value with
  | str text =>
    have marker : Free toolCallEndToken stringMarker := by decide
    exact marker.append_last (plain.2.2.append_head marker (option_char (by decide))) (option_char (by decide))
  | null => exact absent (by simp)
  | bool value => exact absent (by simp)
  | int value => exact absent (by simp)
  | other object => exact plain.elim

theorem free_argument (word : ∀ c ∈ argument.1, python.isWord c = true) (plain : Plain argument.2) :
    Free toolCallEndToken (renderArgument argument) := by
  have bracket : python.isWord '<' = false := word_ascii '<' (by decide) (by decide)
  have colon : Free toolCallEndToken ":".toList := by decide
  have key : Free toolCallEndToken argument.1 := @free_absent '<' _ _ (by decide) (word_absent word bracket)
  have apart : ∀ c ∈ (":".toList ++ renderValue argument.2).head?, c ∉ toolCallEndToken.tail := by
    intro c member
    cases member
    decide
  exact key.append_head (colon.append_last (free_value plain) (option_char (by decide))) apart

theorem free_behind {arguments : Dict ω} (words : ∀ argument ∈ arguments, ∀ c ∈ argument.1, python.isWord c = true)
    (plain : ∀ argument ∈ arguments, Plain argument.2) : Free toolCallEndToken (renderBehind arguments) := by
  induction arguments with
  | nil =>
    have empty : Free toolCallEndToken [] := by decide
    exact empty
  | cons argument arguments ih =>
    obtain ⟨word, words⟩ := forall_mem_cons.mp words
    obtain ⟨plain, others⟩ := forall_mem_cons.mp plain
    have comma : Free toolCallEndToken [','] := by decide
    have text : renderBehind (argument :: arguments) = [','] ++ (renderArgument argument ++ renderBehind arguments) := by
      simp [renderBehind]
    have apart : ∀ c ∈ (renderBehind arguments).head?, c ∉ toolCallEndToken.tail := by
      intro c member
      cases renderBehind_head c member with
      | inl same => exact same ▸ (by decide)
      | inr same => exact same ▸ (by decide)
    rw [text]
    exact comma.append_last ((free_argument word plain).append_head (ih words others) apart) (option_char (by decide))

theorem free_arguments {arguments : Dict ω} (words : ∀ argument ∈ arguments, ∀ c ∈ argument.1, python.isWord c = true)
    (plain : ∀ argument ∈ arguments, Plain argument.2) : Free toolCallEndToken (renderArguments arguments) := by
  have behind := free_behind words plain
  cases arguments with
  | nil => exact behind
  | cons argument arguments =>
    have text : renderBehind (argument :: arguments) = [','] ++ renderArguments (argument :: arguments) := by
      simp [renderBehind, renderArguments]
    exact behind.suffix ⟨_, text.symm⟩

theorem first_call {call : Call python} (named : call.name ≠ []) (rest : Text) :
    ((toolCallRegex python).run (call.render ++ rest)).head? =
      some ⟨call.render, rest, [(1, call.name), (2, renderArguments call.arguments)]⟩ := by
  have free : Free ('\x7d' :: toolCallEndToken) (renderArguments call.arguments) := fun occurs =>
    free_arguments call.keys_word call.plain ((suffix_cons _ _).isInfix.trans occurs)
  have body : ((((Pattern.many .reluctant (fun _ => true)).capture 2).seq (.literal ('\x7d' :: toolCallEndToken))).run
      (renderArguments call.arguments ++ ('\x7d' :: toolCallEndToken ++ rest))).head? =
      some ⟨renderArguments call.arguments ++ '\x7d' :: toolCallEndToken, rest, [(2, renderArguments call.arguments)]⟩ :=
    first_reluctant 2 (fun _ _ => rfl) free (by decide) rest
  have opened := first_literal_seq "\x7b".toList body
  have ends : ∀ c ∈ ("\x7b".toList ++ (renderArguments call.arguments ++ ('\x7d' :: toolCallEndToken ++ rest))).head?,
      python.isWord c = false := by
    intro c member
    rw [head?_append] at member
    cases member
    exact word_ascii '\x7b' (by decide) (by decide)
  have word : (((Pattern.plus python.isWord).capture 1).run (call.name ++ ("\x7b".toList ++
      (renderArguments call.arguments ++ ('\x7d' :: toolCallEndToken ++ rest))))).head? =
      some ⟨call.name, "\x7b".toList ++ (renderArguments call.arguments ++ ('\x7d' :: toolCallEndToken ++ rest)),
        [(1, call.name)]⟩ := first_capture 1 (first_plus named call.name_word ends)
  have found := first_seq_first word opened
  have whole : call.render ++ rest = toolCallOpening ++ (call.name ++ ("\x7b".toList ++
      (renderArguments call.arguments ++ ('\x7d' :: toolCallEndToken ++ rest)))) := by
    simp only [Call.render, append_assoc]
  rw [whole, toolCallRegex, first_literal_seq _ found]
  rfl

theorem findGroups_calls {calls : List (Call python)} (named : ∀ call ∈ calls, call.name ≠ []) :
    (toolCallRegex python).findGroups (render calls) =
      calls.map (fun call => [(1, call.name), (2, renderArguments call.arguments)]) := by
  induction calls with
  | nil =>
    have missed : (toolCallRegex python).run [] = [] := run_literal_missed (by decide) _
    rw [render, flatMap_nil, Pattern.findGroups, findAll_end missed]
    rfl
  | cons call calls ih =>
    obtain ⟨here, named⟩ := forall_mem_cons.mp named
    have some : call.render ≠ [] := append_ne_nil_of_left_ne_nil (by decide) _
    rw [render, flatMap_cons, findGroups_first some (first_call here _), ← render, ih named]
    rfl

/-! ### What is found at all -/

theorem toolCallRegex_sound {text : Text} {found : Match Char} (here : ((toolCallRegex python).run text).head? = some found) :
    ∃ name argsStr rest, name ≠ [] ∧ found.groups = [(1, name), (2, argsStr)] ∧ text = toolCallOpening ++ (name ++
      ("\x7b".toList ++ (argsStr ++ ('\x7d' :: toolCallEndToken ++ rest)))) := by
  obtain ⟨_, _, opened, here₁, groups₁⟩ := first_of_literal_seq here
  obtain ⟨_, among₂, _, here₂, groups₂⟩ := first_of_seq here₁
  obtain ⟨name, word, joined₂, nameGroups⟩ := mem_capture among₂
  obtain ⟨_, _, brace, here₃, groups₃⟩ := first_of_literal_seq here₂
  obtain ⟨_, among₄, ending, here₄, groups₄⟩ := first_of_seq here₃
  obtain ⟨argsStr, all, joined₄, argsGroups⟩ := mem_capture among₄
  obtain ⟨closed, none⟩ := mem_literal (mem_of_first here₄)
  refine ⟨name.taken, argsStr.taken, ending.rest, (mem_plus word).2, ?_, ?_⟩
  · rw [groups₁, groups₂, nameGroups, groups₃, groups₄, argsGroups, (mem_plus word).1, (mem_many all).1, none]
    rfl
  · rw [opened, joined₂, brace, joined₄, closed]

theorem valueRegex_sound {text : Text} {found : Match Char} (here : (valueRegex.run text).head? = some found) :
    (∃ strVal, '\n' ∉ strVal ∧ found.groups = [(2, strVal)]) ∨
    ∃ bareVal rest, (∀ c ∈ rest.head?, c = ',' ∨ c = '\x7d') ∧ found.groups = [(3, bareVal)] ∧ text = bareVal ++ rest := by
  cases first_of_alt here with
  | inl here =>
    left
    obtain ⟨_, _, _, here₁, groups₁⟩ := first_of_literal_seq here
    obtain ⟨_, among, _, here₂, groups₂⟩ := first_of_seq here₁
    obtain ⟨strVal, all, _, strGroups⟩ := mem_capture among
    refine ⟨strVal.taken, ?_, ?_⟩
    · intro member
      exact absurd ((mem_many all).2 _ member) (by decide)
    · rw [groups₁, groups₂, strGroups, (mem_many all).1, (mem_literal (mem_of_first here₂)).2]
      rfl
  | inr bare =>
    right
    have greedy := first_capture 3 (first_greedy (fun c => decide (c ≠ ',' ∧ c ≠ '\x7d')) text)
    cases bare.2.symm.trans greedy
    refine ⟨_, text.dropWhile (fun c => decide (c ≠ ',' ∧ c ≠ '\x7d')), ?_, rfl, (takeWhile_append_dropWhile).symm⟩
    intro c member
    have stops := head?_dropWhile_not (fun c => decide (c ≠ ',' ∧ c ≠ '\x7d')) text
    rw [Option.mem_def.mp member] at stops
    by_contra stays
    rw [not_or] at stays
    simp [stays.1, stays.2] at stops

theorem argRegex_sound {text : Text} {found : Match Char} (here : ((argRegex python).run text).head? = some found) :
    ∃ key later value, key ≠ [] ∧ text = key ++ (":".toList ++ later) ∧ (valueRegex.run later).head? = some value ∧
      found.groups = (1, key) :: value.groups := by
  obtain ⟨_, among, _, here₁, groups₁⟩ := first_of_seq here
  obtain ⟨key, word, joined, keyGroups⟩ := mem_capture among
  obtain ⟨later, value, colon, here₂, groups₂⟩ := first_of_literal_seq here₁
  refine ⟨key.taken, later, value, (mem_plus word).2, ?_, here₂, ?_⟩
  · rw [joined, colon]
  · rw [groups₁, keyGroups, groups₂, (mem_plus word).1]
    rfl

/-- An argument that is read has a string without a newline, or what is read of a bare value. -/
theorem mem_parseArguments {argsStr : Text} {entry : Text × Value ω} (member : entry ∈ parseArguments python argsStr) :
    entry.1 ≠ [] ∧ ((∃ strVal, '\n' ∉ strVal ∧ entry.2 = .str strVal) ∨
      ∃ before bareVal rest, (∀ c ∈ rest.head?, c = ',' ∨ c = '\x7d') ∧ entry.2 = parseBare python bareVal ∧
        argsStr = before ++ (":".toList ++ (bareVal ++ rest))) := by
  obtain ⟨groups, among, read⟩ := mem_filterMap.mp (Indexing.mem_fromEntries member)
  obtain ⟨before, here, found, joined, first, rfl⟩ := findGroups_sound among
  obtain ⟨key, later, found', some, text, first, groups⟩ := argRegex_sound first
  obtain ⟨strVal, line, one⟩ | ⟨bareVal, rest, ends, one, rfl⟩ := valueRegex_sound first
  · rw [groups, one] at read
    cases read
    exact ⟨some, Or.inl ⟨strVal, line, rfl⟩⟩
  · rw [groups, one] at read
    cases read
    refine ⟨some, Or.inr ⟨before ++ key, bareVal, rest, ends, rfl, ?_⟩⟩
    rw [joined, text, append_assoc]

/-! ### Newlines -/

theorem parseBare_str {bareVal strVal : Text} (read : parseBare python bareVal = .str strVal) : strVal = python.strip bareVal := by
  simp only [parseBare] at read
  split at read
  · cases read
  split at read
  · cases read
  split at read
  · cases read
  split at read
  · cases read
  · split at read
    · cases read
    · cases read
      rfl

theorem parseBare_readable {bareVal : Text} {value : Int} (read : parseBare python bareVal = .int value) :
    Readable python.maxStrDigits value := by
  simp only [parseBare] at read
  split at read
  · cases read
  split at read
  · cases read
  split at read
  · cases read
  split at read
  · cases read
    rename_i found
    exact python.int_readable _ _ found
  · split at read
    · cases read
    · cases read

/-- Every newline of the text is in one of the strings, between two markers. -/
def Encloses (strings : List Text) (text : Text) : Prop :=
  ∀ first last, text = first ++ '\n' :: last → ∃ string ∈ strings, ∃ front behind before after,
    string = front ++ '\n' :: behind ∧ first = before ++ (stringMarker ++ front) ∧ last = behind ++ (stringMarker ++ after)

variable {strings : List Text} {text : Text}

theorem encloses_absent (absent : '\n' ∉ text) : Encloses strings text := by
  intro first last joined
  exact absurd (by rw [joined]; exact mem_append_right _ mem_cons_self) absent

theorem append_eq_cons {first last text' : Text} {c : Char} (joined : text ++ text' = first ++ c :: last) :
    (∃ later, text = first ++ c :: later ∧ last = later ++ text') ∨ ∃ later, first = text ++ later ∧ text' = later ++ c :: last := by
  obtain ⟨later, split, rest⟩ | ⟨later, split, rest⟩ := append_eq_append_iff.mp joined
  · exact Or.inr ⟨later, split, rest⟩
  · cases later with
    | nil =>
      rw [append_nil] at split
      exact Or.inr ⟨[], by rw [split, append_nil], rest.symm⟩
    | cons c' later =>
      obtain ⟨rfl, rfl⟩ := cons.inj rest
      exact Or.inl ⟨later, split, rfl⟩

theorem Encloses.append {text' : Text} (encloses : Encloses strings text) (encloses' : Encloses strings text') :
    Encloses strings (text ++ text') := by
  intro first last joined
  obtain ⟨later, split, rfl⟩ | ⟨later, rfl, split⟩ := append_eq_cons joined
  · obtain ⟨string, member, front, behind, before, after, whole, start, rfl⟩ := encloses first later split
    refine ⟨string, member, front, behind, before, after ++ text', whole, start, ?_⟩
    rw [append_assoc, append_assoc]
  · obtain ⟨string, member, front, behind, before, after, whole, rfl, rest⟩ := encloses' later last split
    refine ⟨string, member, front, behind, text ++ before, after, whole, ?_, rest⟩
    rw [append_assoc]

theorem encloses_string {string : Text} (member : string ∈ strings) :
    Encloses strings (stringMarker ++ (string ++ stringMarker)) := by
  intro first last joined
  obtain ⟨later, split, _⟩ | ⟨front, rfl, split⟩ := append_eq_cons joined
  · have absent : '\n' ∉ stringMarker := by decide
    exact absurd (split ▸ mem_append_right _ mem_cons_self) absent
  · obtain ⟨behind, whole, rfl⟩ | ⟨later, _, split⟩ := append_eq_cons split
    · exact ⟨string, member, front, behind, [], [], whole, rfl, by rw [append_nil]⟩
    · have absent : '\n' ∉ stringMarker := by decide
      exact absurd (split ▸ mem_append_right _ mem_cons_self) absent

/-- The part of a text behind a character that ends no marker, and before one that begins none, is in
a longer string when it has a newline. -/
theorem Encloses.longer (encloses : Encloses strings text) {before string after : Text} {c c' : Char}
    (whole : text = before ++ c :: (string ++ c' :: after)) (first : c ∉ stringMarker) (last : c' ∉ stringMarker)
    (free : Free stringMarker string) (line : '\n' ∈ string) :
    ∃ string' ∈ strings, '\n' ∈ string' ∧ string.length < string'.length := by
  obtain ⟨left, right, rfl⟩ := append_of_mem line
  have place : text = (before ++ c :: left) ++ '\n' :: (right ++ c' :: after) := by
    rw [whole, append_assoc, append_assoc]
    rfl
  obtain ⟨string', member, front, behind, before', after', rfl, start, ending⟩ := encloses _ _ place
  refine ⟨_, member, mem_append_right _ mem_cons_self, ?_⟩
  have longer : left.length < front.length := by
    obtain ⟨later, _, rfl⟩ | ⟨later, _, inside⟩ := append_eq_cons start.symm
    · exact absurd ⟨later, front ++ '\n' :: right, by simp only [append_assoc]⟩ free
    · obtain ⟨_, marker, _⟩ | ⟨later, _, rfl⟩ := append_eq_cons inside
      · exact absurd (marker ▸ mem_append_right _ mem_cons_self) first
      · rw [length_append, length_cons]
        omega
  have enough : right.length ≤ behind.length := by
    obtain ⟨later, rfl, _⟩ | ⟨later, rfl, inside⟩ := append_eq_cons ending.symm
    · rw [length_append]
      omega
    · obtain ⟨_, marker, _⟩ | ⟨later, rfl, _⟩ := append_eq_cons inside
      · exact absurd (marker ▸ mem_append_right _ mem_cons_self) last
      · exact absurd ⟨left ++ '\n' :: behind, later, by simp⟩ free
  simp only [length_append, length_cons]
  omega

theorem encloses_argument (word : ∀ c ∈ argument.1, python.isWord c = true) (plain : Plain argument.2)
    (member : ∀ text, argument.2 = .str text → text ∈ strings) : Encloses strings (renderArgument argument) := by
  obtain ⟨key, value⟩ := argument
  have newline : python.isWord '\n' = false := word_ascii '\n' (by decide) (by decide)
  have named : Encloses strings key := encloses_absent (word_absent word newline)
  have colon : Encloses strings ":".toList := encloses_absent (by decide)
  have value : Encloses strings (renderValue value) := by
    have char : ¬ Bare '\n' := by decide
    cases value with
    | str text => exact encloses_string (member text rfl)
    | null => exact encloses_absent (fun inside => char (renderValue_bare plain (by simp) _ inside))
    | bool value => exact encloses_absent (fun inside => char (renderValue_bare plain (by simp) _ inside))
    | int value => exact encloses_absent (fun inside => char (renderValue_bare plain (by simp) _ inside))
    | other object => exact plain.elim
  exact named.append (colon.append value)

section
variable {arguments : Dict ω} (words : ∀ argument ∈ arguments, ∀ c ∈ argument.1, python.isWord c = true)
  (plain : ∀ argument ∈ arguments, Plain argument.2)
  (member : ∀ argument ∈ arguments, ∀ text, argument.2 = .str text → text ∈ strings)
include arguments words plain member

theorem encloses_behind : Encloses strings (renderBehind arguments) := by
  induction arguments with
  | nil => exact encloses_absent (by simp [renderBehind])
  | cons argument arguments ih =>
    obtain ⟨word, words⟩ := forall_mem_cons.mp words
    obtain ⟨plain, others⟩ := forall_mem_cons.mp plain
    obtain ⟨here, member⟩ := forall_mem_cons.mp member
    have comma : Encloses strings [','] := encloses_absent (by decide)
    exact comma.append ((encloses_argument word plain here).append (ih words others member))

theorem encloses_arguments : Encloses strings (renderArguments arguments) := by
  cases arguments with
  | nil => exact encloses_absent (by simp [renderArguments])
  | cons argument arguments =>
    obtain ⟨word, words⟩ := forall_mem_cons.mp words
    obtain ⟨plain, others⟩ := forall_mem_cons.mp plain
    obtain ⟨here, member⟩ := forall_mem_cons.mp member
    exact (encloses_argument word plain here).append (encloses_behind words others member)

end

theorem encloses_calls {calls : List (Call python)}
    (member : ∀ call ∈ calls, ∀ argument ∈ call.arguments, ∀ text, argument.2 = .str text → text ∈ strings) :
    Encloses strings (render calls) := by
  induction calls with
  | nil => exact encloses_absent (by simp [render])
  | cons call calls ih =>
    obtain ⟨here, member⟩ := forall_mem_cons.mp member
    have newline : python.isWord '\n' = false := word_ascii '\n' (by decide) (by decide)
    have opening : Encloses strings toolCallOpening := encloses_absent (by decide)
    have name : Encloses strings call.name := encloses_absent (word_absent call.name_word newline)
    have brace : Encloses strings "\x7b".toList := encloses_absent (by decide)
    have closing : Encloses strings ('\x7d' :: toolCallEndToken) := encloses_absent (by decide)
    have arguments := encloses_arguments call.keys_word call.plain here
    exact (opening.append (name.append (brace.append (arguments.append closing)))).append (ih member)

def stringValues (calls : List (Call python)) : List Text :=
  calls.flatMap (fun call => call.arguments.flatMap (fun argument =>
    match argument.2 with
    | .str text => [text]
    | _ => []))

theorem mem_stringValues {calls : List (Call python)} :
    text ∈ stringValues calls ↔ ∃ call ∈ calls, ∃ key, (key, .str text) ∈ call.arguments := by
  simp only [stringValues, mem_flatMap]
  constructor
  · intro member
    obtain ⟨call, among, ⟨key, value⟩, argument, here⟩ := member
    cases value <;> cases here
    · exact ⟨call, among, key, argument⟩
    · rename_i impossible
      cases impossible
  · intro member
    obtain ⟨call, among, key, argument⟩ := member
    exact ⟨call, among, (key, .str text), argument, mem_singleton.mpr rfl⟩

theorem space_outside {c : Char} (space : python.isSpace c = true) : c ∉ stringMarker := by
  have printable : ∀ c ∈ stringMarker, 32 < c.toNat ∧ c.toNat < 127 := each_char (by decide)
  intro member
  rw [python.isSpace_printable c (printable c member).1 (printable c member).2] at space
  cases space

theorem last_outside {front : Text} (spaces : ∀ c ∈ front, python.isSpace c = true) :
    ∃ front' c, ":".toList ++ front = front' ++ [c] ∧ c ∉ stringMarker := by
  have some : ":".toList ++ front ≠ [] := cons_ne_nil _ _
  refine ⟨_, _, (dropLast_append_getLast some).symm, ?_⟩
  cases mem_append.mp (getLast_mem some) with
  | inl colon => exact mem_singleton.mp colon ▸ (by decide)
  | inr space => exact space_outside (spaces _ space)

theorem next_outside {behind rest : Text} (spaces : ∀ c ∈ behind, python.isSpace c = true)
    (ends : ∀ c ∈ rest.head?, c = ',' ∨ c = '\x7d') (later : Text) :
    ∃ c after, behind ++ (rest ++ '\x7d' :: later) = c :: after ∧ c ∉ stringMarker := by
  cases behind with
  | cons c behind => exact ⟨c, _, rfl, space_outside (spaces c mem_cons_self)⟩
  | nil =>
    cases rest with
    | nil => exact ⟨'\x7d', later, rfl, by decide⟩
    | cons c rest =>
      refine ⟨c, _, rfl, ?_⟩
      cases ends c rfl with
      | inl same => exact same ▸ (by decide)
      | inr same => exact same ▸ (by decide)

theorem bare_longer {calls : List (Call python)} {before argsStr before' bareVal rest later : Text}
    (found : render calls = before ++ (argsStr ++ '\x7d' :: later))
    (place : argsStr = before' ++ (":".toList ++ (bareVal ++ rest))) (ends : ∀ c ∈ rest.head?, c = ',' ∨ c = '\x7d')
    (free : Free stringMarker (python.strip bareVal)) (line : '\n' ∈ python.strip bareVal) :
    ∃ text ∈ stringValues calls, '\n' ∈ text ∧ (python.strip bareVal).length < text.length := by
  obtain ⟨front, behind, split, spaces, spaces'⟩ := strip_spaces python bareVal
  obtain ⟨front', c, opened, outside⟩ := last_outside spaces
  obtain ⟨c', after, closed, outside'⟩ := next_outside spaces' ends later
  have encloses : Encloses (stringValues calls) (render calls) := encloses_calls (by
    intro call among argument member text same
    exact mem_stringValues.mpr ⟨call, among, argument.1, same ▸ member⟩)
  have whole : render calls = before ++ before' ++ front' ++ c :: (python.strip bareVal ++ c' :: after) := by
    calc render calls
        = before ++ (before' ++ ((":".toList ++ front) ++ (python.strip bareVal ++ (behind ++ (rest ++ '\x7d' :: later))))) := by
          rw [found, place]
          nth_rewrite 1 [split]
          simp only [append_assoc]
      _ = before ++ before' ++ front' ++ c :: (python.strip bareVal ++ c' :: after) := by
          rw [opened, closed]
          simp only [append_assoc, singleton_append]
  exact encloses.longer whole outside outside' free line

theorem none_longest {list : List Text} (longer : ∀ text ∈ list, ∃ text' ∈ list, text.length < text'.length) : list = [] := by
  cases list with
  | nil => rfl
  | cons first others =>
    have grows : ∀ length, ∃ text ∈ first :: others, length ≤ text.length := by
      intro length
      induction length with
      | zero => exact ⟨first, mem_cons_self, Nat.zero_le _⟩
      | succ length ih =>
        obtain ⟨text, member, bound⟩ := ih
        obtain ⟨text', member', further⟩ := longer text member
        exact ⟨text', member', Nat.lt_of_le_of_lt bound further⟩
    obtain ⟨text, member, bound⟩ := grows ((first :: others).flatten.length + 1)
    have within := (sublist_flatten_of_mem member).length_le
    omega

/-! ### The round trip -/

theorem unpadded_free {padToken : Option Text} (absent : ∀ pad, padToken = some pad → pad ≠ [] → Free pad text) :
    unpadded padToken text = text := by
  cases padToken with
  | none => rfl
  | some pad =>
    rw [unpadded]
    split
    · rfl
    · rename_i some
      exact remove_free (absent pad rfl some)

theorem startToken_calls {calls : List (Call python)} (some : calls ≠ []) : toolCallStartToken <:+: render calls := by
  cases calls with
  | nil => exact absurd rfl some
  | cons call calls =>
    have opening : toolCallStartToken <+: toolCallOpening := by decide
    have first : toolCallOpening <+: render (call :: calls) := by
      rw [render, flatMap_cons, Call.render, append_assoc]
      exact prefix_append _ _
    exact (opening.trans first).isInfix

/-- A call that is read is found in the text, with the arguments that are read of its part. -/
theorem read_call {padToken : Option Text} {calls : List (Call python)} {call : Call python}
    (absent : ∀ pad, padToken = some pad → pad ≠ [] → Free pad (render calls))
    (read : (extractToolCalls python padToken (render calls)).2 = calls.map Call.functionCall) (among : call ∈ calls) :
    call.name ≠ [] ∧ ∃ before argsStr later, render calls = before ++ (argsStr ++ '\x7d' :: later) ∧
      call.arguments = parseArguments python argsStr := by
  have some : calls ≠ [] := ne_nil_of_mem among
  have member : call.functionCall ∈ (extractToolCalls python padToken (render calls)).2 :=
    read ▸ mem_map_of_mem among
  simp only [extractToolCalls, unpadded_free absent, startToken_calls some, if_true] at member
  split at member
  · cases member
  · obtain ⟨groups, found, same⟩ := mem_map.mp member
    obtain ⟨before, here, found, joined, first, rfl⟩ := findGroups_sound found
    obtain ⟨name, argsStr, rest, named, groups, text⟩ := toolCallRegex_sound first
    rw [groups] at same
    obtain ⟨nameEq, argumentsEq⟩ := FunctionCall.mk.inj same
    refine ⟨?_, before ++ (toolCallOpening ++ (name ++ "\x7b".toList)), argsStr, toolCallEndToken ++ rest, ?_, argumentsEq.symm⟩
    · exact nameEq ▸ named
    · rw [joined, text]
      simp only [append_assoc, cons_append]

theorem keys_word_of_all {arguments : Dict ω} (all : ∀ argument ∈ arguments, argument.1.all python.isWord = true) :
    ∀ argument ∈ arguments, ∀ c ∈ argument.1, python.isWord c = true :=
  fun argument member => all_eq_true.mp (all argument member)

/-- A search with a limit, whose query looks like the format. -/
def search : Call ascii where
  name := "search".toList
  arguments := [("query".toList, .str "a,b\x7d: \x7blimit:9".toList), ("limit".toList, .int (-5)), ("all".toList, .null)]
  name_word := each_char (by decide)
  keys_word := keys_word_of_all (by decide)
  distinct := by decide
  plain := by decide

/-- A search of two lines. -/
def searchLines : Call ascii where
  name := "search".toList
  arguments := [("query".toList, .str "a\nb".toList)]
  name_word := each_char (by decide)
  keys_word := keys_word_of_all (by decide)
  distinct := by decide
  plain := by decide

end LLMFusion.Gemma4ToolParser
