import LLMFusion.BoxedAnswer

/-! When the last box is the one that is scored. Behind its opening brace the count of braces is back
at zero exactly where a balanced answer ends; but a box with a space anywhere in the clip wins. -/

namespace LLMFusion.BoxedAnswer
open ToolParser List

variable {word text rest : Text}

/-- The braces of a text are closed, those that are open before it included. -/
def Balanced : Nat → Text → Prop
  | depth, [] => depth = 0
  | depth, c :: text =>
    if c = '\x7b' then Balanced (depth + 1) text
    else if c = '\x7d' then 0 < depth ∧ Balanced (depth - 1) text
    else Balanced depth text

/-- The last occurrence of a box in a text, with a balanced answer in braces. -/
structure LastBox (text : Text) where
  before : Text
  content : Text
  after : Text
  written : text = before ++ (boxedBrace ++ (content ++ '\x7d' :: after))
  balanced : Balanced 0 content
  last : ¬ boxed <:+: (boxedBrace ++ (content ++ '\x7d' :: after)).tail

def LastBox.box (last : LastBox text) : Text := boxedBrace ++ (last.content ++ ['\x7d'])

theorem rfind_none (absent : ¬ word <:+: text) : rfind word text = none := by
  induction text with
  | nil =>
    rw [rfind, if_neg]
    rintro rfl
    exact absent nil_infix
  | cons c text ih =>
    have later : ¬ word <:+: text := fun inside => absent (inside.trans (suffix_cons c text).isInfix)
    have here : ¬ word <+: c :: text := fun first => absent first.isInfix
    rw [rfind, ih later, if_neg here]

theorem rfind_last (here : word <+: text) (last : ¬ word <:+: text.tail) (before : Text) :
    rfind word (before ++ text) = some before.length := by
  induction before with
  | nil =>
    cases text with
    | nil => exact absurd here.isInfix last
    | cons c text =>
      have later : rfind word text = none := rfind_none last
      simp only [nil_append, rfind, later, here, if_true]
      rfl
  | cons c before ih =>
    rw [cons_append, rfind, ih]
    rfl

theorem rightBrace_balanced {content : Text} {depth : Nat} (balanced : Balanced depth content) (rest : Text) :
    rightBrace ((depth : Int) + 1) (content ++ '\x7d' :: rest) = some content.length := by
  induction content generalizing depth with
  | nil =>
    have closed : depth = 0 := balanced
    subst closed
    rfl
  | cons c content ih =>
    rw [Balanced] at balanced
    rw [cons_append, rightBrace, length_cons]
    split at balanced
    · rename_i opens
      have apart : c ≠ '\x7d' := opens ▸ by decide
      have deeper := ih balanced
      rw [Int.natCast_add] at deeper
      simp only [opens, if_true]
      rw [if_neg (opens ▸ apart)]
      exact congrArg (Option.map (· + 1)) deeper
    · rename_i opens
      split at balanced
      · rename_i closes
        have shallower := ih balanced.2
        have depth_eq : ((depth - 1 : Nat) : Int) + 1 = (depth : Int) + 1 - 1 := by omega
        rw [depth_eq] at shallower
        have still : (depth : Int) + 1 - 1 ≠ 0 := by omega
        rw [if_neg opens, if_pos closes, if_neg still, shallower]
        rfl
      · rename_i closes
        rw [if_neg opens, if_neg closes, ih balanced]
        rfl

theorem lastBoxedOnlyString_brace (last : LastBox text) (absent : ¬ boxedSpace <:+: text) :
    lastBoxedOnlyString text = some last.box := by
  have first : boxed <+: boxedBrace ++ (last.content ++ '\x7d' :: last.after) :=
    ⟨'\x7b' :: (last.content ++ '\x7d' :: last.after), rfl⟩
  have found : rfind boxed text = some last.before.length :=
    (congrArg (rfind boxed) last.written).trans (rfind_last first last.last _)
  have dropped : text.drop last.before.length = boxedBrace ++ (last.content ++ '\x7d' :: last.after) :=
    (congrArg (drop last.before.length) last.written).trans drop_left
  have opened : rightBrace 0 (boxedBrace ++ (last.content ++ '\x7d' :: last.after)) =
      (rightBrace 1 (last.content ++ '\x7d' :: last.after)).map (· + boxedBrace.length) := by
    simp [show boxedBrace = ['\\', 'b', 'o', 'x', 'e', 'd', '\x7b'] from rfl, rightBrace, Function.comp_def]
  have closed : rightBrace 0 (text.drop last.before.length) = some (last.content.length + boxedBrace.length) := by
    rw [dropped, opened]
    exact congrArg (Option.map (· + boxedBrace.length)) (rightBrace_balanced last.balanced last.after)
  have box : boxedBrace ++ (last.content ++ '\x7d' :: last.after) = last.box ++ last.after := by
    simp [LastBox.box]
  have size : last.content.length + boxedBrace.length + 1 = last.box.length := by
    simp [LastBox.box]
    omega
  have cut : (text.drop last.before.length).take (last.content.length + boxedBrace.length + 1) = last.box := by
    rw [dropped, box, size]
    exact take_left
  rw [lastBoxedOnlyString, if_neg absent, found]
  simp only [braced, closed, Option.map_some, cut]

theorem extractBoxedContent_box {ω : Type} (python : Python ω) (last : LastBox text) :
    extractBoxedContent python (some last.box) = some last.content := by
  have opens : boxedBrace <+: last.box := prefix_append _ _
  have closes : last.box.take boxedBrace.length = boxedBrace ∧ last.box.getLast? = some '\x7d' := by
    refine ⟨take_left, ?_⟩
    rw [LastBox.box, ← append_assoc]
    exact getLast?_concat
  rw [extractBoxedContent, if_pos opens, removeBoxed, if_pos closes, LastBox.box, drop_left, dropLast_concat]

/-- The last box is the one that is scored exactly when no box of the clip is written with a space. -/
theorem lastBoxedOnlyString_iff {ω : Type} (python : Python ω) (modelOutput : Text) (last : LastBox (clip modelOutput)) :
    (lastBoxedOnlyString (clip modelOutput) = some last.box ∧
      extractBoxedContent python (lastBoxedOnlyString (clip modelOutput)) = some last.content) ↔
      ¬ boxedSpace <:+: clip modelOutput := by
  constructor
  · intro scored spaced
    obtain ⟨found, _⟩ := scored
    rw [lastBoxedOnlyString, if_pos spaced] at found
    have lengths : boxedSpace.length = boxedBrace.length := by decide
    have same : boxedSpace = boxedBrace := (List.append_inj (Option.some.inj found) lengths).1
    have different : boxedSpace ≠ boxedBrace := by decide
    exact different same
  · intro absent
    rw [lastBoxedOnlyString_brace last absent]
    exact ⟨rfl, extractBoxedContent_box python last⟩

/-- A draft with a space before the answer. -/
def draft : Text := "\\boxed A$ or \\boxed\x7bB\x7d".toList

theorem draft_written : clip draft = "\\boxed A$ or ".toList ++ (boxedBrace ++ ("B".toList ++ '\x7d' :: [])) :=
  rfl

theorem draft_last : ¬ boxed <:+: (boxedBrace ++ ("B".toList ++ '\x7d' :: [])).tail := by
  decide

theorem draft_balanced : Balanced 0 "B".toList :=
  rfl

def draftBox : LastBox (clip draft) :=
  ⟨"\\boxed A$ or ".toList, "B".toList, [], draft_written, draft_balanced, draft_last⟩

theorem lastBoxedOnlyString_draft : lastBoxedOnlyString (clip draft) ≠ some draftBox.box := by
  decide +kernel

end LLMFusion.BoxedAnswer
