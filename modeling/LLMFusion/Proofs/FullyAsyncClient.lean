import LLMFusion.FullyAsyncClient
import LLMFusion.Lib.Continuation

/-! Resuming an aborted generation. With a server whose tokens depend only on the tokens
before them, the pieces of an interrupted generation are those of an uninterrupted one.
The limit that is counted down stays counted down in the caller's dictionary. -/

namespace LLMFusion.FullyAsyncClient
open Replica Runs Continuation List

variable {τ ρ κ : Type}

/-! ### A deterministic server -/

/-- The next token, its log-prob and the routing row of a token, from the tokens before
or up to it. Routing rows may be missing for the last token. -/
structure Engine (τ ρ κ : Type) where
  next : List τ → τ
  isEos : τ → Bool
  logProb : List τ → ρ
  row : List τ → κ
  routing : Bool
  lastRow : Bool

def Engine.tokens (engine : Engine τ ρ κ) (maxTokens : Nat) (promptIds : List τ) : List τ :=
  continuation engine.next engine.isEos maxTokens promptIds

def Engine.rows (engine : Engine τ ρ κ) (tokenIds : List τ) : List κ :=
  (List.range (tokenIds.length - if engine.lastRow then 0 else 1)).map (fun i => engine.row (tokenIds.take (i + 1)))

/-- What the server returns for a request of at most some tokens. It may be aborted
before the generation has ended, also without a token and at the limit. -/
structure Serves (engine : Engine τ ρ κ) (maxTokens : Nat) (promptIds : List τ) (output : TokenOutput τ ρ κ) : Prop where
  cut : ∃ count ≤ maxTokens, output.tokenIds = engine.tokens count promptIds
  whole : aborted output.stopReason = false → output.tokenIds = engine.tokens maxTokens promptIds
  running : aborted output.stopReason = true → ∀ token ∈ output.tokenIds, engine.isEos token = false
  logProbs : output.logProbs = some (along engine.logProb promptIds output.tokenIds)
  routedExperts : output.routedExperts =
    if engine.routing then some (engine.rows (promptIds ++ output.tokenIds)) else none

def Call.Served (engine : Engine τ ρ κ) (call : Call τ ρ κ) : Prop :=
  ∀ key (maxTokens : Nat), originalMaxTokens call.samplingParams = some (key, (maxTokens : Int)) →
    Serves engine maxTokens call.promptIds call.output

structure Whole (engine : Engine τ ρ κ) (promptIds : List τ) (tokenIds : List τ) (progress : Progress τ ρ κ) : Prop where
  tokens : progress.tokenIds = tokenIds
  logProbs : progress.logProbs = along engine.logProb promptIds tokenIds
  routed : progress.routedExperts =
    if engine.routing && !tokenIds.isEmpty then some (engine.rows (promptIds ++ tokenIds)) else none

theorem rows_append (engine : Engine τ ρ κ) {tokenIds new : List τ} (some : tokenIds ≠ []) (more : new ≠ []) :
    engine.rows tokenIds ++ Indexing.fromIndex (engine.rows (tokenIds ++ new)) (-(new.length : Int)) =
      engine.rows (tokenIds ++ new) := by
  have before : 0 < tokenIds.length := length_pos_iff.mpr some
  have positive : 0 < new.length := length_pos_iff.mpr more
  let missing := if engine.lastRow then 0 else 1
  have few : missing ≤ 1 := by
    change (if engine.lastRow then 0 else 1) ≤ 1
    split <;> omega
  have count : (tokenIds ++ new).length - missing = (tokenIds.length - missing) + new.length := by
    rw [length_append]
    omega
  have rows : engine.rows (tokenIds ++ new) = engine.rows tokenIds ++
      (range new.length).map (fun i => engine.row ((tokenIds ++ new).take (tokenIds.length - missing + i + 1))) := by
    change (range ((tokenIds ++ new).length - missing)).map _ = _
    rw [count, range_add, map_append, map_map]
    congr 1
    apply map_congr_left
    intro i member
    have inside := mem_range.mp member
    rw [take_append_of_le_length (by omega)]
  have cut : (engine.rows (tokenIds ++ new)).length - new.length = (engine.rows tokenIds).length := by
    rw [rows, length_append, length_map, length_range, Nat.add_sub_cancel]
  rw [Indexing.fromIndex_neg _ positive, cut]
  conv_lhs => rw [rows, drop_left]
  exact rows.symm

/-! ### The limit -/

theorem originalMaxTokens_key {samplingParams : SamplingParams} {key : String} {maxTokens : Int}
    (limit : originalMaxTokens samplingParams = some (key, maxTokens)) :
    limitKey samplingParams = some key ∧ samplingParams.lookup key = some (some maxTokens) := by
  rw [originalMaxTokens] at limit
  obtain ⟨key', isKey, limit⟩ := Option.bind_eq_some_iff.mp limit
  obtain ⟨maxTokens', found, limit⟩ := Option.map_eq_some_iff.mp limit
  cases limit
  refine ⟨isKey, ?_⟩
  cases value : samplingParams.lookup key with
  | none => rw [value] at found; cases found
  | some value' => rw [value] at found; exact congrArg some found

theorem originalMaxTokens_insert {samplingParams : SamplingParams} {key : String} (isKey : limitKey samplingParams = some key)
    (remaining : Int) :
    originalMaxTokens (Indexing.insert key (some remaining) samplingParams) = some (key, remaining) := by
  have same : limitKey (Indexing.insert key (some remaining) samplingParams) = some key := by
    rw [limitKey] at isKey ⊢
    rw [Indexing.lookup_insert, Indexing.lookup_insert]
    split at isKey
    · cases isKey
      simp
    · rename_i noTokens
      split at isKey
      · cases isKey
        simp [noTokens]
      · cases isKey
  rw [originalMaxTokens, same, Option.bind_some, Indexing.lookup_insert, if_pos rfl]
  rfl

/-! ### Resuming -/

structure Resumable (engine : Engine τ ρ κ) (promptIds : List τ) (key : String) (maxTokens : Nat)
    (progress : Progress τ ρ κ) : Prop where
  whole : Whole engine promptIds (engine.tokens progress.tokenIds.length promptIds) progress
  running : ∀ token ∈ progress.tokenIds, engine.isEos token = false
  room : progress.tokenIds.length ≤ maxTokens
  limit : originalMaxTokens progress.samplingParams = some (key, (maxTokens : Int) - progress.tokenIds.length)

section Resume
variable {engine : Engine τ ρ κ} {promptIds : List τ} {key : String} {maxTokens : Nat} {progress : Progress τ ρ κ}
  {output : TokenOutput τ ρ κ}

theorem mergeOutput_whole (resumable : Resumable engine promptIds key maxTokens progress) {remaining : Nat}
    (serves : Serves engine remaining (promptIds ++ progress.tokenIds) output) :
    Whole engine promptIds (progress.tokenIds ++ output.tokenIds) (mergeOutput progress output) := by
  have whole := resumable.whole
  rw [← whole.tokens] at whole
  constructor
  · rfl
  · change progress.logProbs ++ output.logProbs.getD [] = _
    rw [whole.logProbs, serves.logProbs, Option.getD_some, along_append]
  · change mergeRouting progress.routedExperts output = _
    rw [mergeRouting, serves.routedExperts, whole.routed]
    cases isRouting : engine.routing with
    | false => rfl
    | true =>
      by_cases empty : output.tokenIds = []
      · simp [empty]
      · have more : output.tokenIds.length > 0 := length_pos_iff.mpr empty
        have filled : (progress.tokenIds ++ output.tokenIds).isEmpty = false := by simp [empty]
        simp only [ite_true, more, filled, Bool.not_false, Bool.and_self]
        by_cases first : progress.tokenIds = []
        · simp [first]
        · have some : promptIds ++ progress.tokenIds ≠ [] := by simp [first]
          have rows := rows_append engine some empty
          rw [append_assoc] at rows
          simp [first, rows]

theorem tokens_append (resumable : Resumable engine promptIds key maxTokens progress) (more : Nat) :
    engine.tokens (progress.tokenIds.length + more) promptIds =
      progress.tokenIds ++ engine.tokens more (promptIds ++ progress.tokenIds) := by
  have isPart := resumable.whole.tokens
  have running : ∀ token ∈ engine.tokens progress.tokenIds.length promptIds, engine.isEos token = false :=
    isPart ▸ resumable.running
  have joined := continuation_append running more
  rw [Engine.tokens] at isPart
  rwa [← isPart] at joined

theorem afterOutput_spec (resumable : Resumable engine promptIds key maxTokens progress)
    (serves : Serves engine (maxTokens - progress.tokenIds.length) (promptIds ++ progress.tokenIds) output) :
    (∃ next, afterOutput true (some (key, (maxTokens : Int))) progress output = .waiting next ∧
      aborted output.stopReason = true ∧ Resumable engine promptIds key maxTokens next) ∨
    ∃ next, afterOutput true (some (key, (maxTokens : Int))) progress output = .returned next ∧
      Whole engine promptIds (engine.tokens maxTokens promptIds) next := by
  have whole := mergeOutput_whole resumable serves
  have room := resumable.room
  obtain ⟨count, within, isCut⟩ := serves.cut
  have isKey := (originalMaxTokens_key resumable.limit).1
  -- The tokens so far are those of a shorter generation, unless the server has stopped.
  have joined := tokens_append resumable count
  rw [← isCut] at joined
  let updated : Progress τ ρ κ := countDown (some (key, (maxTokens : Int))) (mergeOutput progress output)
  by_cases isAborted : aborted output.stopReason = true
  · have running := serves.running isAborted
    have length : output.tokenIds.length = count := by
      rw [isCut] at running ⊢
      exact continuation_length running
    by_cases full : maxTokens ≤ (countDown (some (key, (maxTokens : Int))) (mergeOutput progress output)).tokenIds.length
    · right
      have size : (mergeOutput progress output).tokenIds.length = progress.tokenIds.length + count := by
        rw [whole.tokens, length_append, length]
      have all : progress.tokenIds.length + count = maxTokens := by
        change maxTokens ≤ (mergeOutput progress output).tokenIds.length at full
        omega
      refine ⟨{ updated with stopReason := some "length" }, ?_, ?_⟩
      · rw [afterOutput, if_pos (by simpa using full)]
      · rw [← all, joined]
        exact ⟨whole.tokens, whole.logProbs, whole.routed⟩
    · left
      have size : updated.tokenIds.length = progress.tokenIds.length + count := by
        change (mergeOutput progress output).tokenIds.length = _
        rw [whole.tokens, length_append, length]
      refine ⟨updated, ?_, isAborted, ?_, ?_, ?_, ?_⟩
      · rw [afterOutput, if_neg (by simpa using full), if_neg (by simp [isAborted])]
      · rw [size, joined]
        exact ⟨whole.tokens, whole.logProbs, whole.routed⟩
      · intro token member
        rcases mem_append.mp (whole.tokens ▸ member) with before | new
        · exact resumable.running token before
        · exact running token new
      · exact Nat.le_of_not_le full
      · exact originalMaxTokens_insert isKey _
  · right
    have ended := serves.whole (Bool.eq_false_iff.mpr isAborted)
    have all := tokens_append resumable (maxTokens - progress.tokenIds.length)
    rw [Nat.add_sub_cancel' room, ← ended] at all
    rw [all]
    by_cases full : maxTokens ≤ (countDown (some (key, (maxTokens : Int))) (mergeOutput progress output)).tokenIds.length
    · refine ⟨{ updated with stopReason := some "length" }, ?_, whole.tokens, whole.logProbs, whole.routed⟩
      rw [afterOutput, if_pos (by simpa using full)]
    · refine ⟨updated, ?_, whole.tokens, whole.logProbs, whole.routed⟩
      rw [afterOutput, if_neg (by simpa using full), if_pos (by simp [isAborted])]

variable {samplingParams : SamplingParams} {calls : List (Call τ ρ κ)} {phase : Phase τ ρ κ}

def Served (engine : Engine τ ρ κ) (promptIds : List τ) (key : String) (maxTokens : Nat) (calls : List (Call τ ρ κ)) :
    Phase τ ρ κ → Prop
  | .waiting progress => Resumable engine promptIds key maxTokens progress ∧
      ∀ call ∈ calls, aborted call.output.stopReason = true
  | .returned progress => Whole engine promptIds (engine.tokens maxTokens promptIds) progress

theorem served_of_run (limit : originalMaxTokens samplingParams = some (key, (maxTokens : Int)))
    (served : ∀ call ∈ calls, call.Served engine) (run : Generate true promptIds samplingParams calls phase) :
    Served engine promptIds key maxTokens calls phase := by
  rw [Generate, limit] at run
  refine Run.invariant (fun calls phase => (∀ call ∈ calls, call.Served engine) →
    Served engine promptIds key maxTokens calls phase) ?_ ?_ run served
  · intro _
    refine ⟨⟨⟨rfl, rfl, by simp [Progress.start, Engine.tokens, continuation]⟩, by simp [Progress.start], by simp
      [Progress.start], ?_⟩, by simp⟩
    simpa [Progress.start] using limit
  · intro calls phase call next held taken served
    cases taken with
    | call progress output =>
      obtain ⟨resumable, interrupted⟩ := held (fun call member => served call (mem_append_left _ member))
      have room := resumable.room
      have remaining := resumable.limit
      rw [← Int.ofNat_sub room] at remaining
      have serves := served _ (mem_append_right _ (mem_singleton_self _)) key _ remaining
      rcases afterOutput_spec resumable serves with ⟨next, isNext, isAborted, resumable⟩ | ⟨next, isNext, whole⟩
      · rw [isNext]
        refine ⟨resumable, ?_⟩
        intro call member
        rcases mem_append.mp member with before | here
        · exact interrupted call before
        · rw [mem_singleton.mp here]
          exact isAborted
      · rw [isNext]
        exact whole

theorem afterOutput_returned (partialRollout : Bool) (limit : Option (String × Int)) (progress : Progress τ ρ κ)
    (ended : aborted output.stopReason = false) :
    ∃ final, afterOutput partialRollout limit progress output = .returned final := by
  simp only [afterOutput, ended]
  split
  · exact ⟨_, rfl⟩
  · exact ⟨_, rfl⟩

/-- The tokens, log-probs and routing rows of two outputs are the same. -/
structure SameOutput (first second : TokenOutput τ ρ κ) : Prop where
  tokenIds : first.tokenIds = second.tokenIds
  logProbs : first.logProbs = second.logProbs
  routedExperts : first.routedExperts = second.routedExperts

end Resume

/-! ### The caller's dictionary -/

section Caller
variable {partialRollout : Bool} {promptIds : List τ} {samplingParams : SamplingParams} {calls : List (Call τ ρ κ)}
  {phase : Phase τ ρ κ}

def Phase.progress : Phase τ ρ κ → Progress τ ρ κ
  | .waiting progress => progress
  | .returned progress => progress

/-- The dictionary with the limit counted down by the tokens that are there. -/
def countedDown (limit : Option (String × Int)) (count : Nat) (samplingParams : SamplingParams) : SamplingParams :=
  match limit with
  | some (key, maxTokens) => Indexing.insert key (some (maxTokens - count)) samplingParams
  | none => samplingParams

theorem countDown_eq (limit : Option (String × Int)) (progress : Progress τ ρ κ) :
    (countDown limit progress).tokenIds = progress.tokenIds ∧ (countDown limit progress).samplingParams =
      countedDown limit progress.tokenIds.length progress.samplingParams := by
  cases limit with
  | none => exact ⟨rfl, rfl⟩
  | some limit => exact ⟨rfl, rfl⟩

theorem afterOutput_progress (partialRollout : Bool) (limit : Option (String × Int)) (progress : Progress τ ρ κ) (output : TokenOutput τ ρ κ) :
    (afterOutput partialRollout limit progress output).progress.tokenIds = progress.tokenIds ++ output.tokenIds ∧
      (afterOutput partialRollout limit progress output).progress.samplingParams =
        countedDown limit (progress.tokenIds ++ output.tokenIds).length progress.samplingParams := by
  have counted := countDown_eq limit (mergeOutput progress output)
  simp only [afterOutput]
  split
  · exact counted
  · split
    · exact counted
    · exact counted

theorem countedDown_countedDown (limit : Option (String × Int)) (count count' : Nat) (samplingParams : SamplingParams) :
    countedDown limit count' (countedDown limit count samplingParams) = countedDown limit count' samplingParams := by
  cases limit with
  | none => rfl
  | some limit => exact Indexing.insert_insert limit.1 _ _ samplingParams

theorem countedDown_eq_iff (count : Nat) :
    countedDown (originalMaxTokens samplingParams) count samplingParams = samplingParams ↔
      originalMaxTokens samplingParams = none ∨ count = 0 := by
  cases limit : originalMaxTokens samplingParams with
  | none => simp [countedDown]
  | some entry =>
    have found := (originalMaxTokens_key limit).2
    simp only [countedDown, reduceCtorEq, false_or]
    constructor
    · intro same
      have written := congrArg (lookup entry.1) same
      rw [Indexing.lookup_insert, if_pos rfl, found] at written
      have value := Option.some.inj (Option.some.inj written)
      omega
    · rintro rfl
      apply Indexing.insert_lookup
      rw [found]
      simp

theorem dictionary_of_run (run : Generate partialRollout promptIds samplingParams calls phase) :
    phase.progress.tokenIds = calls.flatMap (fun call => call.output.tokenIds) ∧
      (calls = [] ∧ phase.progress.samplingParams = samplingParams ∨ phase.progress.samplingParams =
          countedDown (originalMaxTokens samplingParams) phase.progress.tokenIds.length samplingParams) := by
  refine Run.invariant (fun calls phase => phase.progress.tokenIds =
      calls.flatMap (fun call => call.output.tokenIds) ∧
    (calls = [] ∧ phase.progress.samplingParams = samplingParams ∨ phase.progress.samplingParams =
      countedDown (originalMaxTokens samplingParams) phase.progress.tokenIds.length samplingParams))
    ⟨rfl, Or.inl ⟨rfl, rfl⟩⟩ ?_ run
  intro calls phase call next held taken
  cases taken with
  | call progress output =>
    obtain ⟨tokens, params⟩ := held
    obtain ⟨tokens', params'⟩ := afterOutput_progress partialRollout (originalMaxTokens samplingParams) progress output
    refine ⟨?_, Or.inr ?_⟩
    · rw [tokens', flatMap_append, ← tokens]
      simp [Phase.progress]
    · rw [params', tokens']
      rcases params with ⟨_, same⟩ | same
      · rw [show progress.samplingParams = samplingParams from same]
      · rw [show progress.samplingParams = _ from same, countedDown_countedDown]

/-- The caller's dictionary is left as it was exactly when it sets no limit or the server
has returned no token. -/
theorem generate_keeps_samplingParams {progress : Progress τ ρ κ}
    (run : Generate partialRollout promptIds samplingParams calls (.returned progress)) :
    progress.samplingParams = samplingParams ↔
      originalMaxTokens samplingParams = none ∨ ∀ call ∈ calls, call.output.tokenIds = [] := by
  obtain ⟨tokens, params⟩ := dictionary_of_run run
  have counted : progress.tokenIds.length = 0 ↔ ∀ call ∈ calls, call.output.tokenIds = [] := by
    rw [List.length_eq_zero_iff, show progress.tokenIds = _ from tokens, List.flatMap_eq_nil_iff]
  rcases params with ⟨none, same⟩ | same
  · simp [none, show progress.samplingParams = samplingParams from same]
  · rw [show progress.samplingParams = _ from same, countedDown_eq_iff]
    exact or_congr Iff.rfl counted

end Caller

/-! ### A run that is aborted once -/

/-- The next token is the number of tokens. -/
def countingEngine : Engine Nat Int Nat where
  next before := before.length
  isEos token := token = 9
  logProb before := -before.length
  row tokenIds := tokenIds.length
  routing := true
  lastRow := false

def firstCall : Call Nat Int Nat :=
  ⟨[1, 2], [("max_tokens", some 3)], ⟨[2], some [-2], some [1, 2], some "aborted", none, []⟩⟩

def secondCall : Call Nat Int Nat :=
  ⟨[1, 2, 2], [("max_tokens", some 2)], ⟨[3, 4], some [-3, -4], some [1, 2, 3, 4], some "completed", none, []⟩⟩

def returnedProgress : Progress Nat Int Nat :=
  ⟨[2, 3, 4], [-2, -3, -4], some [1, 2, 3, 4], 0, some "length", none, none, none, [("max_tokens", some 0)]⟩

theorem aborted_run : Generate true [1, 2] [("max_tokens", some 3)] [firstCall, secondCall] (.returned returnedProgress) :=
  .step (Run.single (.call (.start [("max_tokens", some 3)]) firstCall.output))
    (.call ⟨[2], [-2], some [1, 2], 0, some "aborted", none, none, none, [("max_tokens", some 2)]⟩ secondCall.output)

theorem generate_keeps_samplingParams_aborted :
    returnedProgress.samplingParams = [("max_tokens", some 3)] ↔
      originalMaxTokens [("max_tokens", some 3)] = none ∨ ∀ call ∈ [firstCall, secondCall], call.output.tokenIds = [] :=
  generate_keeps_samplingParams aborted_run

/-- The next turn starts with the limit that is left: none of three tokens. -/
theorem samplingParams_countedDown :
    Generate true [1, 2] [("max_tokens", some 3)] [firstCall, secondCall] (.returned returnedProgress) ∧
      originalMaxTokens returnedProgress.samplingParams = some ("max_tokens", 0) ∧
      returnedProgress.samplingParams ≠ [("max_tokens", some 3)] :=
  ⟨aborted_run, rfl, by decide⟩


end LLMFusion.FullyAsyncClient
