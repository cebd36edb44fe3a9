import LLMFusion.Qwen3XMLToolParser
import LLMFusion.Proofs.ToolParser
import LLMFusion.Lib.Fallible

/-! When the arguments that are written for Qwen3-Coder are read back. A line without a tag keeps every
tag apart, so each level is cut at its own tags; only a value that reads as null is taken for one. -/

namespace LLMFusion.Qwen3XMLToolParser
open List hiding mapM_map
open Regex ToolParser Fallible

variable {ω : Type} {python : Python ω} {opening closing : Text} {text body rest : Text} {greed : Greed}

/-! ### Tags -/

theorem first_tag {c : Char} {tail : Text} (free : Free (c :: tail) body) (fresh : c ∉ tail) (greed : Greed) (opening rest : Text) :
    ((tagRegex opening (c :: tail) greed).run (opening ++ (body ++ (c :: tail ++ rest)))).head? =
      some ⟨opening ++ (body ++ c :: tail), rest, [(1, body)]⟩ := by
  have closed := first_reluctant 1 (fun _ _ => rfl) free fresh rest
  exact first_alt_left (first_literal_seq opening closed)

theorem tag_missed (missed : ¬ opening <+: text) : (tagRegex opening closing greed).run text = [] := by
  rw [tagRegex, first_alt_right (run_literal_missed missed _), run_literal_missed missed]

theorem tag_sound {found : Match Char} (some : closing ≠ [])
    (here : ((tagRegex opening closing greed).run text).head? = Option.some found) :
    Free closing (matchText found.groups) ∧ matchText found.groups <:+: text := by
  obtain here | ⟨failed, here⟩ := first_of_alt here
  · obtain ⟨later, found', rfl, here, groups⟩ := first_of_literal_seq here
    obtain ⟨body, rest, groups', rfl, free⟩ := reluctant_free some here
    have read : matchText found.groups = body := by
      rw [groups, groups', matchText]
      split
      · rename_i empty
        exact empty.symm
      · rfl
    rw [read]
    exact ⟨free, ⟨opening, closing ++ rest, by simp only [append_assoc]⟩⟩
  · obtain ⟨later, found', rfl, here, groups⟩ := first_of_literal_seq here
    obtain ⟨split, among, _, ending, groups'⟩ := first_of_seq here
    obtain ⟨body, all, rfl, captured⟩ := mem_capture among
    have read : matchText found.groups = body.taken := by
      rw [groups, groups', captured, (mem_many all).1, mem_final (mem_of_first ending)]
      rfl
    rw [run_literal_seq, map_eq_nil_iff] at failed
    rw [read]
    exact ⟨(reluctant_none failed).inside (prefix_append _ _).isInfix, ⟨opening, split.rest, by simp only [append_assoc]⟩⟩

theorem free_line {tag : Text} (line : '\n' ∉ tag) (free : Free tag text) (free' : Free tag rest) :
    Free tag (text ++ '\n' :: rest) := by
  have newline : Free tag ('\n' :: rest) := by
    have alone : Free tag ['\n'] ∨ tag = [] := by
      cases tag with
      | nil => exact Or.inr rfl
      | cons c tag => exact Or.inl (free_absent mem_cons_self (fun member => line (mem_singleton.mp member ▸ mem_cons_self)))
    cases alone with
    | inl alone =>
      have apart : ∀ c ∈ ['\n'].getLast?, c ∉ tag.dropLast := by
        intro c member
        cases member
        exact fun inside => line (mem_of_mem_dropLast inside)
      exact alone.append_last free' apart
    | inr empty => exact absurd nil_infix (empty ▸ free)
  have apart : ∀ c ∈ ('\n' :: rest).head?, c ∉ tag.tail := by
    intro c member
    cases member
    exact fun inside => line (mem_of_mem_tail inside)
  exact free.append_head newline apart

/-! ### The documented format -/

/-- What is between the tags of a parameter. -/
def parameterBody (argument : Text × Text) : Text := argument.1 ++ ['>'] ++ '\n' :: (argument.2 ++ ['\n'])

def renderParameters (arguments : List (Text × Text)) : Text :=
  arguments.flatMap (fun argument => '\n' :: (parameterStart ++ (parameterBody argument ++ parameterEnd)))

def toolTags : List Text := [toolCallStartToken, toolCallEndToken, toolCallPrefix, functionEnd, parameterStart, parameterEnd]

/-- A call of a function of the schema, whose parameters are declared as strings and whose values have no tags. -/
structure Call (python : Python ω) (tools : List Tool) where
  name : Text
  arguments : List (Text × Text)
  distinct : (arguments.map Prod.fst).Nodup
  config : Tool
  inSchema : tools.find? (fun config => config.type = "function".toList ∧ config.name = name) = some config
  declared : ∀ argument ∈ arguments, ∃ type, config.properties.lookup argument.1 = some type ∧
    python.lower (python.strip type) ∈ stringTypes
  tagless : ∀ argument ∈ arguments, ∀ tag ∈ toolTags, Free tag argument.2

variable {tools : List Tool}

namespace Call
variable (call : Call python tools)

def functionCall : FunctionCall ω := ⟨call.name, call.arguments.map (fun argument => (argument.1, .str argument.2))⟩

/-- What is between the tags of the function. -/
def functionBody : Text := call.name ++ ['>'] ++ (renderParameters call.arguments ++ ['\n'])

/-- What is between the tags of the call. -/
def callBody : Text := '\n' :: (toolCallPrefix ++ (call.functionBody ++ functionEnd) ++ ['\n'])

def render : Text := toolCallStartToken ++ (call.callBody ++ toolCallEndToken)

end Call

/-- The calls, each with a newline behind it. -/
def render (calls : List (Call python tools)) : Text := calls.flatMap (fun call => call.render ++ ['\n'])

/-- A name that is found again before the first `>`: none of the closing tags ends there. -/
structure Fits (closings : List Text) (name : Text) : Prop where
  mark : '>' ∉ name
  free : ∀ closing ∈ closings, Free closing (name ++ ['>'])

/-- A call whose names are found again, with no value that reads as null. -/
structure Faithful (call : Call python tools) : Prop where
  name : Fits [toolCallEndToken, functionEnd] call.name
  key : ∀ argument ∈ call.arguments, Fits [toolCallEndToken, functionEnd, parameterEnd] argument.1
  value : ∀ argument ∈ call.arguments, python.lower argument.2 ≠ "null".toList

/-! ### No closing tag too early -/

variable {argument : Text × Text} {closings : List Text} {name : Text}

theorem free_parameterBody (tagless : Free parameterEnd argument.2) (free : Free parameterEnd (argument.1 ++ ['>'])) :
    Free parameterEnd (parameterBody argument) :=
  free_line (by decide) free (free_line (by decide) tagless (by decide))

theorem free_parameter {tag : Text} (among : tag ∈ [toolCallEndToken, functionEnd]) (tagless : Free tag argument.2)
    (free : Free tag (argument.1 ++ ['>'])) : Free tag (parameterStart ++ (parameterBody argument ++ parameterEnd)) := by
  have apart : ∀ tag ∈ [toolCallEndToken, functionEnd], '\n' ∉ tag ∧ Free tag parameterStart ∧ Free tag parameterEnd ∧
      parameterStart.getLast?.all (fun c => decide (c ∉ tag.dropLast)) = true := by decide
  obtain ⟨line, start, ending, last⟩ := apart tag among
  have text : parameterStart ++ (parameterBody argument ++ parameterEnd) =
      (parameterStart ++ (argument.1 ++ ['>'])) ++ '\n' :: (argument.2 ++ '\n' :: parameterEnd) := by
    simp [parameterBody]
  rw [text]
  exact free_line line (start.append_last free (option_char last)) (free_line line tagless ending)

theorem free_parameters {tag front : Text} (among : tag ∈ [toolCallEndToken, functionEnd]) {arguments : List (Text × Text)}
    (tagless : ∀ argument ∈ arguments, Free tag argument.2) (free : ∀ argument ∈ arguments, Free tag (argument.1 ++ ['>']))
    (start : Free tag front) : Free tag (front ++ (renderParameters arguments ++ ['\n'])) := by
  have apart : ∀ tag ∈ [toolCallEndToken, functionEnd], '\n' ∉ tag ∧ Free tag [] := by decide
  obtain ⟨line, empty⟩ := apart tag among
  induction arguments generalizing front with
  | nil => exact free_line line start empty
  | cons argument arguments ih =>
    obtain ⟨here, tagless⟩ := forall_mem_cons.mp tagless
    obtain ⟨here', free⟩ := forall_mem_cons.mp free
    have later := ih tagless free (free_parameter among here here')
    have text : renderParameters (argument :: arguments) ++ ['\n'] =
        '\n' :: (parameterStart ++ (parameterBody argument ++ parameterEnd) ++ (renderParameters arguments ++ ['\n'])) := by
      simp [renderParameters]
    rw [text]
    exact free_line line start later

variable {call : Call python tools}

theorem free_functionBody {tag : Text} (among : tag ∈ [toolCallEndToken, functionEnd]) (faithful : Faithful call) :
    Free tag call.functionBody := by
  have tags : ∀ tag ∈ [toolCallEndToken, functionEnd], tag ∈ toolTags ∧ tag ∈ [toolCallEndToken, functionEnd, parameterEnd] := by
    decide
  obtain ⟨tool, closing⟩ := tags tag among
  exact free_parameters among (fun argument member => call.tagless argument member tag tool)
    (fun argument member => (faithful.key argument member).free tag closing) (faithful.name.free tag among)

theorem free_callBody (faithful : Faithful call) : Free toolCallEndToken call.callBody := by
  have apart : ∀ c ∈ toolCallPrefix.getLast?, c ∉ toolCallEndToken.dropLast := option_char (by decide)
  have start : Free toolCallEndToken (toolCallPrefix ++ (call.name ++ ['>'])) :=
    Free.append_last (by decide) (faithful.name.free _ mem_cons_self) apart
  have parameters := free_parameters mem_cons_self
    (fun argument member => call.tagless argument member toolCallEndToken (by decide))
    (fun argument member => (faithful.key argument member).free toolCallEndToken (by decide)) start
  have newline : ∀ c ∈ (toolCallPrefix ++ (call.name ++ ['>']) ++ (renderParameters call.arguments ++ ['\n'])).getLast?,
      c ∉ toolCallEndToken.dropLast := by
    intro c member
    rw [← append_assoc, getLast?_concat] at member
    cases member
    decide
  have text : call.callBody = [] ++ '\n' :: (toolCallPrefix ++ (call.name ++ ['>']) ++
      (renderParameters call.arguments ++ ['\n']) ++ functionEnd ++ '\n' :: []) := by
    simp [Call.callBody, Call.functionBody]
  rw [text]
  exact free_line (by decide) (by decide) (free_line (by decide) (parameters.append_last (by decide) newline) (by decide))

/-! ### What is found -/

theorem newline_missed (among : opening ∈ [toolCallStartToken, toolCallPrefix, parameterStart]) :
    ∀ c ∈ ['\n'], ∀ later, (tagRegex opening closing greed).run (c :: later) = [] := by
  have first : ∀ opening ∈ [toolCallStartToken, toolCallPrefix, parameterStart], opening.head? = some '<' := by decide
  obtain ⟨tail, rfl⟩ := head?_eq_some_iff.mp (first opening among)
  intro c member later
  apply tag_missed
  intro opens
  cases mem_singleton.mp member
  obtain ⟨_, joined⟩ := opens
  cases joined

theorem findGroups_newline (among : opening ∈ [toolCallStartToken, toolCallPrefix, parameterStart]) :
    (tagRegex opening closing greed).findGroups ['\n'] = [] := by
  have some : opening ≠ [] := by
    intro empty
    exact absurd (empty ▸ among) (by decide)
  have missed : (tagRegex opening closing greed).run [] = [] := tag_missed (fun opens => some (prefix_nil.mp opens))
  exact (findGroups_missed (newline_missed among) []).trans (findGroups_end missed)

theorem findGroups_tag (opening : Text)
    (closes : closing ∈ [toolCallEndToken, functionEnd, parameterEnd]) (free : Free closing text) (greed : Greed) (rest : Text) :
    (tagRegex opening closing greed).findGroups (opening ++ (text ++ closing) ++ rest) =
      [(1, text)] :: (tagRegex opening closing greed).findGroups rest := by
  have first : ∀ closing ∈ [toolCallEndToken, functionEnd, parameterEnd], closing.head? = some '<' ∧ '<' ∉ closing.tail := by
    decide
  obtain ⟨opens, fresh⟩ := first closing closes
  obtain ⟨tail, rfl⟩ := head?_eq_some_iff.mp opens
  have joined : opening ++ (text ++ ('<' :: tail ++ rest)) = opening ++ (text ++ '<' :: tail) ++ rest := by simp
  have found := first_tag free fresh greed opening rest
  rw [joined] at found
  exact findGroups_first (by simp) found

variable {calls : List (Call python tools)}

theorem render_cons (call : Call python tools) (calls : List (Call python tools)) :
    render (call :: calls) = toolCallStartToken ++ (call.callBody ++ toolCallEndToken) ++ (['\n'] ++ render calls) := by
  simp [render, Call.render]

theorem findGroups_calls (faithful : ∀ call ∈ calls, Faithful call) :
    toolCallRegex.findGroups (render calls) = calls.map (fun call => [(1, call.callBody)]) := by
  induction calls with
  | nil => exact findGroups_end (tag_missed (by decide))
  | cons call calls ih =>
    obtain ⟨here, faithful⟩ := forall_mem_cons.mp faithful
    have found := findGroups_tag toolCallStartToken (by decide) (free_callBody here) .reluctant (['\n'] ++ render calls)
    have later : toolCallRegex.findGroups (['\n'] ++ render calls) = toolCallRegex.findGroups (render calls) :=
      findGroups_missed (newline_missed (by decide)) (render calls)
    rw [render_cons, map_cons, ← ih faithful, ← later]
    exact found

theorem findGroups_function (faithful : Faithful call) :
    toolCallFunctionRegex.findGroups call.callBody = [[(1, call.functionBody)]] := by
  have text : call.callBody = ['\n'] ++ (toolCallPrefix ++ (call.functionBody ++ functionEnd) ++ ['\n']) := rfl
  have start : toolCallFunctionRegex.findGroups call.callBody =
      toolCallFunctionRegex.findGroups (toolCallPrefix ++ (call.functionBody ++ functionEnd) ++ ['\n']) :=
    text ▸ findGroups_missed (newline_missed (by decide)) _
  have found : toolCallFunctionRegex.findGroups (toolCallPrefix ++ (call.functionBody ++ functionEnd) ++ ['\n']) =
      [(1, call.functionBody)] :: toolCallFunctionRegex.findGroups ['\n'] :=
    findGroups_tag _ (by decide) (free_functionBody (by decide) faithful) .greedy ['\n']
  have ending : toolCallFunctionRegex.findGroups ['\n'] = [] := findGroups_newline (by decide)
  rw [start, found, ending]

theorem findGroups_parameters {arguments : List (Text × Text)} (free : ∀ argument ∈ arguments, Free parameterEnd (parameterBody argument)) :
    toolCallParameterRegex.findGroups (renderParameters arguments ++ ['\n']) =
      arguments.map (fun argument => [(1, parameterBody argument)]) := by
  induction arguments with
  | nil => exact findGroups_newline (by decide)
  | cons argument arguments ih =>
    obtain ⟨here, free⟩ := forall_mem_cons.mp free
    have text : renderParameters (argument :: arguments) ++ ['\n'] = ['\n'] ++ (parameterStart ++
        (parameterBody argument ++ parameterEnd) ++ (renderParameters arguments ++ ['\n'])) := by
      simp [renderParameters]
    have start : toolCallParameterRegex.findGroups (renderParameters (argument :: arguments) ++ ['\n']) =
        toolCallParameterRegex.findGroups (parameterStart ++ (parameterBody argument ++ parameterEnd) ++
          (renderParameters arguments ++ ['\n'])) :=
      text ▸ findGroups_missed (newline_missed (by decide)) _
    have found : toolCallParameterRegex.findGroups (parameterStart ++ (parameterBody argument ++ parameterEnd) ++
        (renderParameters arguments ++ ['\n'])) = [(1, parameterBody argument)] ::
          toolCallParameterRegex.findGroups (renderParameters arguments ++ ['\n']) :=
      findGroups_tag _ (by decide) here .reluctant _
    rw [start, found, ih free]
    rfl

theorem matchText_first (text : Text) : matchText [(1, text)] = text := by
  cases text <;> rfl

theorem getFunctionCalls_render (faithful : ∀ call ∈ calls, Faithful call) (some : calls ≠ []) :
    getFunctionCalls (render calls) = calls.map Call.functionBody := by
  have tools : (toolCallRegex.findGroups (render calls)).map matchText = calls.map Call.callBody := by
    rw [findGroups_calls faithful, map_map]
    exact map_congr_left (fun call _ => matchText_first call.callBody)
  have present : calls.map Call.callBody ≠ [] := fun empty => some (map_eq_nil_iff.mp empty)
  rw [getFunctionCalls, tools, if_neg present, flatMap_map]
  have functions : ∀ call ∈ calls, (toolCallFunctionRegex.findGroups call.callBody).map matchText = [call.functionBody] := by
    intro call among
    rw [findGroups_function (faithful call among), map_singleton, matchText_first]
  rw [flatMap_congr functions, ← map_eq_flatMap]

/-! ### What is read -/

theorem cut_name (mark : '>' ∉ name) (rest : Text) : cut (name ++ ['>'] ++ rest) = .ok (name, rest) := by
  have all : ∀ c ∈ name, decide (c ≠ '>') = true := fun c member => decide_eq_true (fun same => mark (same ▸ member))
  have text : name ++ ['>'] ++ rest = name ++ '>' :: rest := by simp
  have present : '>' ∈ name ++ '>' :: rest := mem_append_right _ mem_cons_self
  rw [text, cut, if_pos present, takeWhile_append_of_pos all, dropWhile_append_of_pos all,
    takeWhile_cons_of_neg (by decide), dropWhile_cons_of_neg (by decide), append_nil]
  rfl

theorem cut_sound {text : Text} {parts : Text × Text} (read : cut text = .ok parts) :
    '>' ∉ parts.1 ∧ text = parts.1 ++ ['>'] ++ parts.2 := by
  by_cases present : '>' ∈ text
  · obtain ⟨name, rest, rfl, mark⟩ := eq_append_cons_of_mem present
    have text : name ++ '>' :: rest = name ++ ['>'] ++ rest := by simp
    rw [text, cut_name mark] at read
    cases read
    exact ⟨mark, text⟩
  · rw [cut, if_neg present] at read
    cases read

theorem stripNewlines_line (value : Text) : stripNewlines ('\n' :: (value ++ ['\n'])) = value := by
  rw [stripNewlines, head?_cons, if_pos rfl, tail_cons, getLast?_concat, if_pos rfl, dropLast_concat]

theorem convertParamValue_string {paramConfig : List (Text × Text)} {key type value : Text}
    (declared : paramConfig.lookup key = some type) (string : python.lower (python.strip type) ∈ stringTypes) :
    convertParamValue python value key paramConfig = if python.lower value = "null".toList then .null else .str value := by
  simp only [convertParamValue, declared, string, if_true]

theorem getArgumentsConfig_schema (call : Call python tools) :
    getArgumentsConfig (some tools) call.name = .ok call.config.properties := by
  rw [getArgumentsConfig, call.inSchema]

theorem dumps_strings {arguments : List (Text × Text)} :
    dumps python (arguments.map (fun argument => (argument.1, Value.str argument.2))) =
      .ok (arguments.map (fun argument => (argument.1, Value.str argument.2))) := by
  rw [dumps, if_pos]
  intro argument member object held
  obtain ⟨_, _, rfl⟩ := mem_map.mp member
  cases held

theorem parseXmlFunctionCall_render (faithful : Faithful call) :
    parseXmlFunctionCall python (some tools) call.functionBody = .ok call.functionCall := by
  have parameters : ∀ argument ∈ call.arguments,
      parseParameter python call.config.properties [(1, parameterBody argument)] = .ok (argument.1, .str argument.2) := by
    intro argument member
    obtain ⟨type, declared, string⟩ := call.declared argument member
    have read : cut (parameterBody argument) = .ok (argument.1, '\n' :: (argument.2 ++ ['\n'])) :=
      cut_name (faithful.key argument member).mark _
    have value : convertParamValue python argument.2 argument.1 call.config.properties = .str argument.2 := by
      rw [convertParamValue_string declared string, if_neg (faithful.value argument member)]
    simp only [parseParameter, matchText_first, read, ok_bind, stripNewlines_line, value]
    rfl
  have found := findGroups_parameters (fun argument member => free_parameterBody
    (call.tagless argument member parameterEnd (by decide)) ((faithful.key argument member).free parameterEnd (by decide)))
  have entries : (toolCallParameterRegex.findGroups (renderParameters call.arguments ++ ['\n'])).mapM
      (parseParameter python call.config.properties) =
      .ok (call.arguments.map (fun argument => (argument.1, Value.str argument.2))) := by
    rw [found, List.mapM_map]
    exact mapM_map _ parameters
  have keys : (call.arguments.map (fun argument => (argument.1, (Value.str argument.2 : Value ω)))).map Prod.fst =
      call.arguments.map Prod.fst := by
    rw [map_map]
    rfl
  have distinct := Indexing.fromEntries_distinct (keys ▸ call.distinct)
  have function : cut call.functionBody = .ok (call.name, renderParameters call.arguments ++ ['\n']) :=
    cut_name faithful.name.mark _
  simp only [parseXmlFunctionCall, function, ok_bind, getArgumentsConfig_schema, entries, distinct, dumps_strings]
  rfl

/-! ### What is read at all -/

theorem parseXmlFunctionCall_sound {text : Text} {read : FunctionCall ω}
    (parsed : parseXmlFunctionCall python (some tools) text = .ok read) :
    ∃ parameters paramConfig, '>' ∉ read.name ∧ text = read.name ++ ['>'] ++ parameters ∧
      getArgumentsConfig (some tools) read.name = .ok paramConfig ∧ ∀ entry ∈ read.arguments,
        ∃ groups ∈ toolCallParameterRegex.findGroups parameters, ∃ value, '>' ∉ entry.1 ∧
          matchText groups = entry.1 ++ ['>'] ++ value ∧
          entry.2 = convertParamValue python (stripNewlines value) entry.1 paramConfig := by
  rw [parseXmlFunctionCall] at parsed
  obtain ⟨function, cutText, parsed⟩ := bind_eq_ok.mp parsed
  obtain ⟨paramConfig, config, parsed⟩ := bind_eq_ok.mp parsed
  obtain ⟨entries, read', parsed⟩ := bind_eq_ok.mp parsed
  obtain ⟨arguments, dumped, parsed⟩ := bind_eq_ok.mp parsed
  cases parsed
  obtain ⟨mark, text⟩ := cut_sound cutText
  refine ⟨function.2, paramConfig, mark, text, config, ?_⟩
  intro entry member
  have written : arguments = Indexing.fromEntries entries := by
    rw [dumps] at dumped
    split at dumped
    · cases dumped
      rfl
    · cases dumped
  have among := Indexing.mem_fromEntries (written ▸ member)
  obtain ⟨groups, found, parameter⟩ := forall₂_right (mapM_succeeded read') among
  rw [parseParameter] at parameter
  obtain ⟨parts, cutGroups, parameter⟩ := bind_eq_ok.mp parameter
  cases parameter
  obtain ⟨mark', text'⟩ := cut_sound cutGroups
  exact ⟨groups, found, parts.2, mark', text', rfl⟩

theorem tag_some (opening closing rest : Text) : (tagRegex opening closing .reluctant).run (opening ++ rest) ≠ [] := by
  intro none
  rw [tagRegex, alt_run, append_eq_nil_iff, run_literal_seq, run_literal_seq, map_eq_nil_iff, map_eq_nil_iff,
    seq_run _ (Pattern.capture 2 _), flatMap_eq_nil_iff] at none
  have all : ∀ c ∈ rest, (fun _ : Char => true) c = true := fun _ _ => rfl
  obtain ⟨before, after, splits, _⟩ := spans_split all []
  rw [append_nil] at splits
  have member : (⟨rest, [], [(2, rest)]⟩ : Match Char) ∈ ((Pattern.many .reluctant (fun _ => true)).capture 2).run rest := by
    rw [capture_run, many_run, if_neg (by decide), splits]
    simp
  have missed := none.2 _ member
  cases missed

theorem tools_some (call : Call python tools) (calls : List (Call python tools)) :
    toolCallRegex.findGroups (render (call :: calls)) ≠ [] := by
  have opens := tag_some toolCallStartToken toolCallEndToken (call.callBody ++ toolCallEndToken ++ (['\n'] ++ render calls))
  rw [render_cons, append_assoc]
  exact findGroups_some (by decide) opens

theorem getFunctionCalls_sound {function : Text} (some : calls ≠ []) (found : function ∈ getFunctionCalls (render calls)) :
    Free functionEnd function ∧ Free toolCallEndToken function := by
  cases calls with
  | nil => exact absurd rfl some
  | cons call calls =>
    have present : (toolCallRegex.findGroups (render (call :: calls))).map matchText ≠ [] :=
      fun empty => tools_some call calls (map_eq_nil_iff.mp empty)
    rw [getFunctionCalls, if_neg present] at found
    obtain ⟨toolCall, among, found⟩ := mem_flatMap.mp found
    obtain ⟨groups, among₁, rfl⟩ := mem_map.mp among
    obtain ⟨groups', among₂, rfl⟩ := mem_map.mp found
    obtain ⟨_, _, match₁, _, first₁, groups₁⟩ := findGroups_sound among₁
    obtain ⟨before, here, match₂, joined, first₂, groups₂⟩ := findGroups_sound among₂
    have closed : toolCallEndToken ≠ [] ∧ functionEnd ≠ [] := by decide
    obtain ⟨free₁, _⟩ := tag_sound closed.1 first₁
    obtain ⟨free₂, inside⟩ := tag_sound closed.2 first₂
    rw [groups₁] at free₁
    rw [groups₂] at free₂ inside
    exact ⟨free₂, free₁.inside (inside.trans ⟨before, [], by rw [joined, append_nil]⟩)⟩

/-- A call that is read has names that are found again, and values that do not read as null. -/
theorem faithful_of_read {call : Call python tools} (some : calls ≠ []) {function : Text}
    (found : function ∈ getFunctionCalls (render calls))
    (parsed : parseXmlFunctionCall python (Option.some tools) function = .ok call.functionCall) : Faithful call := by
  obtain ⟨parameters, paramConfig, mark, text, config, entries⟩ := parseXmlFunctionCall_sound parsed
  obtain ⟨free, free'⟩ := getFunctionCalls_sound some found
  have head : call.name ++ ['>'] <:+: function := ⟨[], parameters, text.symm⟩
  have tail : parameters <:+: function := ⟨call.name ++ ['>'], [], by rw [text, append_nil]; rfl⟩
  have schema : paramConfig = call.config.properties :=
    Except.ok.inj (config.symm.trans (getArgumentsConfig_schema call))
  have arguments : ∀ argument ∈ call.arguments,
      Fits [toolCallEndToken, functionEnd, parameterEnd] argument.1 ∧ python.lower argument.2 ≠ "null".toList := by
    intro argument member
    obtain ⟨groups, among, value, mark, text, read⟩ := entries _ (mem_map_of_mem member)
    obtain ⟨before, here, match₁, joined, first, groups₁⟩ := findGroups_sound among
    have closed : parameterEnd ≠ [] := by decide
    obtain ⟨freeEnd, inside⟩ := tag_sound closed first
    rw [groups₁, text] at freeEnd inside
    have key : argument.1 ++ ['>'] <:+: argument.1 ++ ['>'] ++ value := (prefix_append _ _).isInfix
    have hereIn : here <:+: parameters := ⟨before, [], by rw [joined, append_nil]⟩
    have within : argument.1 ++ ['>'] <:+: function := (key.trans inside).trans (hereIn.trans tail)
    refine ⟨⟨mark, ?_⟩, ?_⟩
    · intro closing among
      simp only [mem_cons, not_mem_nil, or_false] at among
      obtain rfl | rfl | rfl := among
      · exact free'.inside within
      · exact free.inside within
      · exact freeEnd.inside key
    · intro null
      obtain ⟨type, declared, string⟩ := call.declared argument member
      have read : Value.str argument.2 = convertParamValue python (stripNewlines value) argument.1 paramConfig := read
      rw [schema, convertParamValue_string declared string] at read
      split at read
      · cases read
      · rename_i other
        have same : argument.2 = stripNewlines value := Value.str.inj read
        exact other (same ▸ null)
  refine ⟨⟨mark, ?_⟩, fun argument member => (arguments argument member).1, fun argument member => (arguments argument member).2⟩
  intro closing among
  simp only [mem_cons, not_mem_nil, or_false] at among
  obtain rfl | rfl := among
  · exact free'.inside head
  · exact free.inside head

/-- The calls are read back exactly when all their names are found again and no value reads as null. -/
theorem extractToolCalls_render_iff (calls : List (Call python tools)) :
    (extractToolCalls python (some tools) (render calls)).2 = calls.map Call.functionCall ↔ ∀ call ∈ calls, Faithful call := by
  by_cases empty : calls = []
  · subst empty
    have none : ¬ toolCallStartToken <:+: render ([] : List (Call python tools)) := by
      rw [render, List.flatMap_nil]
      decide
    simp [extractToolCalls, none]
  have opens : toolCallStartToken <:+: render calls := by
    cases calls with
    | nil => exact absurd rfl empty
    | cons call calls =>
      rw [render_cons, List.append_assoc]
      exact (List.prefix_append _ _).isInfix
  constructor
  · intro read call among
    have member : call.functionCall ∈ (extractToolCalls python (some tools) (render calls)).2 :=
      read ▸ List.mem_map_of_mem among
    simp only [extractToolCalls, opens, if_true] at member
    split at member
    · cases member
    split at member
    · rename_i toolCalls parsed
      obtain ⟨function, found, parsed⟩ := forall₂_right (mapM_succeeded parsed) member
      exact faithful_of_read empty found parsed
    · cases member
  · intro faithful
    have found := getFunctionCalls_render faithful empty
    have some : calls.map Call.functionBody ≠ [] := fun nothing => empty (List.map_eq_nil_iff.mp nothing)
    have parsed : (calls.map Call.functionBody).mapM (parseXmlFunctionCall python (Option.some tools)) =
        .ok (calls.map Call.functionCall) := by
      rw [List.mapM_map]
      exact mapM_map _ (fun call among => parseXmlFunctionCall_render (faithful call among))
    simp only [extractToolCalls, opens, if_true, found, some, if_false, parsed]

def search : Tool := ⟨"function".toList, "search".toList, [("query".toList, "string".toList)]⟩

/-- A search for the word null. -/
def searchNull : Call ascii [search] where
  name := "search".toList
  arguments := [("query".toList, "null".toList)]
  distinct := by decide
  config := search
  inSchema := rfl
  declared := by
    intro argument member
    cases List.mem_singleton.mp member
    exact ⟨"string".toList, by decide, by decide⟩
  tagless := by decide

/-- The word comes back as no value. -/
theorem extractToolCalls_searchNull : (extractToolCalls ascii (some [search]) (render [searchNull])).2 ≠ [searchNull.functionCall] := by
  decide +kernel

end LLMFusion.Qwen3XMLToolParser
