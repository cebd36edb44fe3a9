import LLMFusion.CallTool
import Mathlib.Algebra.Ring.Nat

/-! What is kept of a tool's text. A cut keeps the parts that its side names, as long as it has
something to keep: the last none of the characters are taken as all of them. -/

namespace LLMFusion.ToolAgentLoop

variable {ι ρ μ υ : Type} {limit : Nat} {side : String}

/-- What a cut of a side may return: no more of the text than the limit, around the marker. -/
inductive Kept (limit : Nat) (text : String) : String → String → Prop where
  | left {after : String} (last : after.toList <:+ text.toList) (short : after.length ≤ limit) :
      Kept limit text "left" ("(truncated)..." ++ after)
  | right {before : String} (first : before.toList <+: text.toList) (short : before.length ≤ limit) :
      Kept limit text "right" (before ++ "...(truncated)")
  | middle {side before after : String} (notLeft : side ≠ "left") (notRight : side ≠ "right")
      (first : before.toList <+: text.toList) (last : after.toList <:+ text.toList)
      (short : before.length + after.length ≤ limit) : Kept limit text side (before ++ "...(truncated)..." ++ after)

/-- A response without a text, and one that fits, is as it was. -/
def Truncated (limit : Nat) (side : String) : Option String → Option String → Prop
  | some text, returned =>
    if text.length ≤ limit then returned = some text else ∃ cut, returned = some cut ∧ Kept limit text side cut
  | none, returned => returned = none

/-- A cut has to keep no characters at the end of the text: all of the limit on the left, half of
it in the middle. -/
def KeepsNone (limit : Nat) (side : String) : Prop :=
  side = "left" ∧ limit = 0 ∨ side ≠ "left" ∧ side ≠ "right" ∧ limit < 2

instance (limit : Nat) (side : String) : Decidable (KeepsNone limit side) :=
  inferInstanceAs (Decidable (_ ∨ _ ∧ _))

def markerLength (side : String) : Nat := if side = "left" ∨ side = "right" then 14 else 17

theorem Kept.length_le {text returned : String} (kept : Kept limit text side returned) :
    returned.length ≤ markerLength side + limit := by
  cases kept with
  | @left after _ short =>
    rw [String.length_append]
    exact Nat.add_le_add_left short _
  | @right before _ short =>
    rw [String.length_append, Nat.add_comm]
    exact Nat.add_le_add_left short _
  | middle notLeft notRight _ _ short =>
    rw [String.length_append, String.length_append, markerLength, if_neg (not_or.mpr ⟨notLeft, notRight⟩)]
    have marker : "...(truncated)...".length = 17 := rfl
    omega

theorem last_characters (text : String) {count : Nat} (any : 0 < count) (long : count ≤ text.length) :
    (String.ofList (Indexing.fromIndex text.toList (-(count : Int)))).toList <:+ text.toList ∧
      (String.ofList (Indexing.fromIndex text.toList (-(count : Int)))).length = count := by
  rw [Indexing.fromIndex_neg _ any, String.toList_ofList, String.length_ofList, List.length_drop, String.length_toList]
  exact ⟨List.drop_suffix _ _, by omega⟩

theorem last_none (text : String) : String.ofList (Indexing.fromIndex text.toList (-((0 : Nat) : Int))) = text := by
  simp [Indexing.fromIndex]

theorem first_characters (text : String) (count : Nat) : (String.ofList (text.toList.take count)).toList <+: text.toList ∧
      (String.ofList (text.toList.take count)).length ≤ count := by
  rw [String.toList_ofList, String.length_ofList]
  exact ⟨List.take_prefix _ _, List.length_take_le _ _⟩

theorem truncate_kept {text : String} (long : limit < text.length) (some : ¬ KeepsNone limit side) :
    Kept limit text side (truncate limit side text) := by
  by_cases left : side = "left"
  · subst left
    have any : 0 < limit := Nat.pos_of_ne_zero (fun none => some (Or.inl ⟨rfl, none⟩))
    obtain ⟨last, size⟩ := last_characters text any (Nat.le_of_lt long)
    exact .left last (Nat.le_of_eq size)
  · by_cases right : side = "right"
    · subst right
      obtain ⟨first, short⟩ := first_characters text limit
      exact .right first short
    · have several : 2 ≤ limit := Nat.not_lt.mp (fun few => some (Or.inr ⟨left, right, few⟩))
      obtain ⟨first, short⟩ := first_characters text (limit / 2)
      have any : 0 < limit / 2 := by omega
      obtain ⟨last, size⟩ := last_characters text any (by omega)
      simp only [truncate, left, right, ite_false]
      exact .middle left right first last (by omega)

theorem truncate_keepsNone {text : String} (long : limit < text.length) (none : KeepsNone limit side) :
    ¬ Kept limit text side (truncate limit side text) := by
  intro kept
  have bound := kept.length_le
  obtain ⟨rfl, rfl⟩ | ⟨left, right, few⟩ := none
  · have whole : truncate 0 "left" text = "(truncated)..." ++ text := by
      simp only [truncate, ite_true, last_none]
    rw [whole, String.length_append] at bound
    exact absurd (Nat.le_of_add_le_add_left bound) (by omega)
  · have half : limit / 2 = 0 := by omega
    have whole : truncate limit side text = "" ++ "...(truncated)..." ++ text := by
      simp only [truncate, left, right, ite_false, half, last_none, List.take_zero]
    have marker : ("" ++ "...(truncated)...").length = 17 := rfl
    rw [whole, String.length_append, marker, markerLength, if_neg (not_or.mpr ⟨left, right⟩)] at bound
    omega

variable {config : ToolConfig μ υ}

theorem toolResponseText_truncated (text : Option String) :
    Truncated config.maxToolResponseLength config.toolResponseTruncateSide text (toolResponseText config text) ↔
      ¬ (config.maxToolResponseLength < (text.getD "").length ∧
        KeepsNone config.maxToolResponseLength config.toolResponseTruncateSide) := by
  cases text with
  | none => exact iff_of_true rfl (fun impossible => absurd impossible.1 (Nat.not_lt_zero _))
  | some text =>
    by_cases long : config.maxToolResponseLength < text.length
    · have nonempty : text.isEmpty = false := by
        rw [String.isEmpty_eq_false_iff]
        rintro rfl
        exact absurd long (Nat.not_lt_zero _)
      simp only [Truncated, toolResponseText, Option.map_some, Option.getD_some, nonempty, long, Nat.not_le.mpr long,
        true_and, and_self, if_true, if_false, Option.some.injEq, exists_eq_left']
      by_cases keepsNone : KeepsNone config.maxToolResponseLength config.toolResponseTruncateSide
      · exact iff_of_false (truncate_keepsNone long keepsNone) (not_not_intro keepsNone)
      · exact iff_of_true (truncate_kept long keepsNone) keepsNone
    · simp [Truncated, toolResponseText, long, Nat.not_lt.mp long]

variable [Zero ρ] {activeTools : List (String × Tool ι ρ μ υ)} {createKwargs : List (String × υ)} {toolCall : FunctionCall}
  {tool : Tool ι ρ μ υ} {toolArgs : υ} {executed : Executed ι ρ μ} {instanceId : Option String}

/-- A call whose tool has been run returns what the tool gave, with its text as `toolResponseText`
makes it. -/
theorem callTool_executed (found : activeTools.lookup toolCall.name = some tool)
    (parsed : config.loads toolCall.arguments = .ok toolArgs)
    (ran : tool.run config ((createKwargs.lookup toolCall.name).getD config.emptyDict) toolArgs = (.ok executed, instanceId))
    (released : tool.released instanceId = .ok ()) :
    callTool config activeTools createKwargs toolCall = .ok { executed with
      response := { executed.response with text := toolResponseText config executed.response.text } } := by
  simp only [callTool, found, parsed, ran, released]
  rfl

theorem callTool_truncates_iff (found : activeTools.lookup toolCall.name = some tool)
    (parsed : config.loads toolCall.arguments = .ok toolArgs)
    (ran : tool.run config ((createKwargs.lookup toolCall.name).getD config.emptyDict) toolArgs = (.ok executed, instanceId))
    (released : tool.released instanceId = .ok ()) :
    (∃ text, callTool config activeTools createKwargs toolCall = .ok { executed with
        response := { executed.response with text := text } } ∧
      Truncated config.maxToolResponseLength config.toolResponseTruncateSide executed.response.text text) ↔
      ¬ (config.maxToolResponseLength < (executed.response.text.getD "").length ∧
        KeepsNone config.maxToolResponseLength config.toolResponseTruncateSide) := by
  rw [callTool_executed found parsed ran released, ← toolResponseText_truncated]
  constructor
  · rintro ⟨text, returned, truncated⟩
    simp only [Except.ok.injEq, Executed.mk.injEq, ToolResponse.mk.injEq, and_true] at returned
    exact returned ▸ truncated
  · intro truncated
    exact ⟨_, rfl, truncated⟩

/-- A tool that answers every call with the same text. -/
private def echo (text : String) : Tool Unit Nat Unit Unit := .function (fun _ => .ok (.value (.str text)))

private def echoConfig (limit : Nat) (side : String) : ToolConfig Unit Unit where
  maxToolResponseLength := limit
  toolResponseTruncateSide := side
  loads := fun _ => .ok ()
  dumps := fun _ => "\x7b\x7d"
  str := fun _ => "None"
  strNames := fun _ => "[]"
  emptyDict := ()
  noMetrics := ()

theorem callTool_truncates_search : ∃ text,
    callTool (echoConfig 4 "left") [("search", echo "Final answer")] [] ⟨"search", "\x7b\x7d"⟩ =
      .ok (⟨⟨text, none, none⟩, 0, ()⟩ : Executed Unit Nat Unit) ∧ Truncated 4 "left" (some "Final answer") text := by
  have ran : (echo "Final answer").run (echoConfig 4 "left") () () =
      (.ok (⟨textResponse "Final answer", 0, ()⟩ : Executed Unit Nat Unit), none) := rfl
  exact (callTool_truncates_iff rfl rfl ran rfl).mpr (by decide)

theorem callTool_keeps_search : ¬ ∃ text,
    callTool (echoConfig 1 "middle") [("search", echo "Final answer")] [] ⟨"search", "\x7b\x7d"⟩ =
      .ok (⟨⟨text, none, none⟩, 0, ()⟩ : Executed Unit Nat Unit) ∧ Truncated 1 "middle" (some "Final answer") text := by
  rintro ⟨text, returned, truncated⟩
  have whole : text = some "...(truncated)...Final answer" := by
    have computed : callTool (echoConfig 1 "middle") [("search", echo "Final answer")] [] ⟨"search", "\x7b\x7d"⟩ =
      .ok (⟨⟨some "...(truncated)...Final answer", none, none⟩, 0, ()⟩ : Executed Unit Nat Unit) := rfl
    rw [computed] at returned
    simpa using returned.symm
  obtain ⟨cut, same, kept⟩ := truncated
  cases whole.symm.trans same
  exact absurd kept.length_le (by decide)

end LLMFusion.ToolAgentLoop
