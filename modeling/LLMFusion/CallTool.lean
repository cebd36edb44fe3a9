import LLMFusion.ToolAgentLoop

/-! A call of a tool. The tool is looked up by its name, its arguments are parsed, and it is run;
what goes wrong is answered with a text. A text that is longer than the limit is cut on one of
its sides, or in the middle. -/

namespace LLMFusion.ToolAgentLoop

variable {ι ρ μ υ : Type}

/-- What a tool function returns, by the shapes that are told apart. -/
inductive Value (ι υ : Type) where
  | response (response : ToolResponse ι)
  | str (text : String)
  | dict (entries : υ)
  | other (value : υ)

/-- A tuple has one to three items; an item that is missing is as one that is `None`. -/
inductive Returned (ι ρ μ υ : Type) where
  | value (value : Value ι υ)
  | tuple (response : Value ι υ) (reward : Option ρ) (metrics : Option μ)
  | otherTuple (length : Nat) (shown : String)

/-- The response of a tool, its reward and its metrics. -/
structure Executed (ι ρ μ : Type) where
  response : ToolResponse ι
  reward : ρ
  metrics : μ

/-- A tool function is called without a lifecycle; any other tool has instances. A failure is
an exception, with its text. -/
inductive Tool (ι ρ μ υ : Type) where
  | function (call : υ → Except String (Returned ι ρ μ υ))
  | base (create : υ → Except String String) (execute : String → υ → Except String (Executed ι ρ μ))
      (release : String → Except String Unit)

/-- The limit of the texts, and what JSON and `str` do with values. -/
structure ToolConfig (μ υ : Type) where
  maxToolResponseLength : Nat
  toolResponseTruncateSide : String
  loads : String → Except String υ
  dumps : υ → String
  str : υ → String
  strNames : List String → String
  emptyDict : υ
  noMetrics : μ

def textResponse (text : String) : ToolResponse ι := ⟨some text, none, none⟩

/-- `_coerce_response` -/
def coerceResponse (config : ToolConfig μ υ) : Value ι υ → ToolResponse ι
  | .response response => response
  | .str text => textResponse text
  | .dict entries => textResponse (config.dumps entries)
  | .other value => textResponse (config.str value)

def normalizeFunctionToolReturn [Zero ρ] (config : ToolConfig μ υ) : Returned ι ρ μ υ → Except String (Executed ι ρ μ)
  | .value value => .ok ⟨coerceResponse config value, 0, config.noMetrics⟩
  | .tuple response reward metrics =>
      .ok ⟨coerceResponse config response, reward.getD 0, metrics.getD config.noMetrics⟩
  | .otherTuple length shown => .error (s!"@function_tool return tuple must have length 1, 2, or 3 (got length {length}: " ++
      shown ++ "). Use (response,), (response, reward), or (response, reward, metrics).")

/-- What a tool has done, and the instance that was made for it. -/
def Tool.run [Zero ρ] (config : ToolConfig μ υ) (createKwargs toolArgs : υ) :
    Tool ι ρ μ υ → Except String (Executed ι ρ μ) × Option String
  | .function call => (call toolArgs >>= normalizeFunctionToolReturn config, none)
  | .base create execute _ =>
    match create createKwargs with
    | .error error => (.error error, none)
    | .ok instanceId => (execute instanceId toolArgs, some instanceId)

def Tool.released (instanceId : Option String) : Tool ι ρ μ υ → Except String Unit
  | .function _ => .ok ()
  | .base _ _ release =>
    match instanceId with
    | none => .ok ()
    | some instanceId => if instanceId.isEmpty then .ok () else release instanceId

/-- A text above the limit, cut on its side. -/
def truncate (limit : Nat) (side text : String) : String :=
  if side = "left" then "(truncated)..." ++ String.ofList (Indexing.fromIndex text.toList (-(limit : Int)))
  else if side = "right" then String.ofList (text.toList.take limit) ++ "...(truncated)"
  else
    let length := limit / 2
    String.ofList (text.toList.take length) ++ "...(truncated)..." ++
      String.ofList (Indexing.fromIndex text.toList (-(length : Int)))

def toolResponseText (config : ToolConfig μ υ) (text : Option String) : Option String :=
  text.map (fun text =>
    if text.isEmpty = false ∧ config.maxToolResponseLength < text.length then
      truncate config.maxToolResponseLength config.toolResponseTruncateSide text
    else text)

/-- `_call_tool`. Only an exception of the release leaves it. -/
def callTool [Zero ρ] (config : ToolConfig μ υ) (activeTools : List (String × Tool ι ρ μ υ))
    (createKwargs : List (String × υ)) (toolCall : FunctionCall) : Except String (Executed ι ρ μ) :=
  match activeTools.lookup toolCall.name with
  | none => .ok ⟨textResponse ("Unknown function '" ++ toolCall.name ++ "'. Available tools: " ++
      config.strNames (activeTools.map Prod.fst)), 0, config.noMetrics⟩
  | some tool =>
    match config.loads toolCall.arguments with
    | .error error => .ok ⟨textResponse ("Invalid JSON in arguments for '" ++ toolCall.name ++ "': " ++ error),
        0, config.noMetrics⟩
    | .ok toolArgs => do
      let ran := tool.run config ((createKwargs.lookup toolCall.name).getD config.emptyDict) toolArgs
      tool.released ran.2
      match ran.1 with
      | .error error => return ⟨textResponse ("Error executing tool '" ++ toolCall.name ++ "': " ++ error),
          0, config.noMetrics⟩
      | .ok executed => return { executed with
          response := { executed.response with text := toolResponseText config executed.response.text } }

end LLMFusion.ToolAgentLoop
