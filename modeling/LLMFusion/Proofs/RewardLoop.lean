import LLMFusion.RewardLoop
import Mathlib.Algebra.Order.Field.Rat

/-! When the last row of the batch gives the reward managers the response of the last output back. -/

namespace LLMFusion.RewardLoop
open Indexing Fallible List

variable {K : Type}

/-! ### The batch -/

def longest (lengths : List Nat) : Nat := lengths.foldr max 0

theorem le_longest {lengths : List Nat} {length : Nat} (member : length ∈ lengths) : length ≤ longest lengths := by
  induction lengths with
  | nil => cases member
  | cons first lengths ih =>
    rw [longest, foldr_cons]
    cases member with
    | head => exact Nat.le_max_left _ _
    | tail _ later => exact Nat.le_trans (ih later) (Nat.le_max_right _ _)

@[simp] theorem longest_single (length : Nat) : longest [length] = length := by simp [longest]

theorem padSequence_last {α : Type} (paddingValue : α) (sequences : List (List α)) (last : List α) :
    ∃ before, before.length = sequences.length ∧ padSequence paddingValue (sequences ++ [last]) = before ++
      [last ++ replicate (longest ((sequences ++ [last]).map length) - last.length) paddingValue] := by
  refine ⟨_, ?_, by rw [padSequence, map_append, map_singleton]; rfl⟩
  exact length_map _

def AgentLoopOutput.total (output : AgentLoopOutput K) : Nat := output.promptIds.length + output.responseIds.length

def longestTotal (outputs : List (AgentLoopOutput K)) : Nat := longest (outputs.map (·.total))

def longestResponse (outputs : List (AgentLoopOutput K)) : Nat := longest (outputs.map (·.responseIds.length))

theorem total_le (earlier : List (AgentLoopOutput K)) (final : AgentLoopOutput K) :
    final.total ≤ longestTotal (earlier ++ [final]) := le_longest (by simp)

theorem response_le (earlier : List (AgentLoopOutput K)) (final : AgentLoopOutput K) :
    final.responseIds.length ≤ longestResponse (earlier ++ [final]) := le_longest (by simp)

/-- Every sequence goes into the shape of the first. -/
def SameTotals (outputs : List (AgentLoopOutput K)) : Prop :=
  ∀ first ∈ outputs.head?, ∀ output ∈ outputs, output.total = first.total ∨ output.total = 1

theorem copyInto_ok {width : Nat} {row : List Int} :
    (∃ copied, copyInto width row = .ok copied) ↔ row.length = width ∨ row.length = 1 := by
  unfold copyInto
  split
  · simp
  · rename_i several
    have notOne : row.length ≠ 1 := by
      intro one
      obtain ⟨entry, rfl⟩ := length_eq_one_iff.mp one
      exact several entry rfl
    split <;> simp_all

theorem padChannels_ok {sequences : List (List (List Int))} {first : List (List Int)} :
    (∃ padded, padChannels (first :: sequences) = .ok padded) ↔
      ∀ rows ∈ first :: sequences, ∀ row ∈ rows, row.length = (first.headD []).length ∨ row.length = 1 := by
  rw [padChannels, mapM_ok_iff]
  apply forall₂_congr
  intro rows _
  rw [mapM_ok_iff]
  apply forall₂_congr
  intro row _
  exact copyInto_ok

theorem positionIds_length (processor : Processor K) {output : AgentLoopOutput K} {row : List Int}
    (member : row ∈ processor.positionIds output) : row.length = output.total := by
  cases member with
  | head => simp [textPositionIds, AgentLoopOutput.attentionMask, AgentLoopOutput.inputIds, AgentLoopOutput.total]
  | tail _ later =>
    rw [processor.regular _ _ _ row later, AgentLoopOutput.inputIds, length_append, AgentLoopOutput.total]

theorem positionIds_head (processor : Processor K) (output : AgentLoopOutput K) :
    ((processor.positionIds output).headD []).length = output.total :=
  positionIds_length processor mem_cons_self

/-- The positions can be padded without a processor, and with one when the totals allow it. -/
theorem paddedPositionIds_ok (processor : Option (Processor K)) {outputs : List (AgentLoopOutput K)}
    (nonempty : outputs ≠ []) : (∃ positions, paddedPositionIds processor outputs = .ok positions) ↔
      (processor.isSome → SameTotals outputs) := by
  cases processor with
  | none => simp [paddedPositionIds]
  | some processor =>
    obtain ⟨first, later, rfl⟩ := exists_cons_of_ne_nil nonempty
    have built : (∃ positions, paddedPositionIds (some processor) (first :: later) = .ok positions) ↔
        ∃ padded, padChannels ((first :: later).map processor.positionIds) = .ok padded := by
      simp only [paddedPositionIds, bind_eq_ok]
      constructor
      · intro returned
        obtain ⟨_, padded, succeeded, _⟩ := returned
        exact ⟨padded, succeeded⟩
      · intro returned
        obtain ⟨padded, succeeded⟩ := returned
        exact ⟨_, padded, succeeded, rfl⟩
    rw [built, map_cons, padChannels_ok, positionIds_head, ← map_cons]
    simp only [Option.isSome_some, forall_const]
    constructor
    · intro each start named output member
      cases named
      have fits := each _ (mem_map_of_mem member) _ mem_cons_self
      rwa [positionIds_length processor mem_cons_self] at fits
    · intro same rows member row inside
      obtain ⟨output, among, rfl⟩ := mem_map.mp member
      rw [positionIds_length processor inside]
      exact same first rfl output among

variable {processor : Option (Processor K)}

theorem paddedPositionIds_length {outputs : List (AgentLoopOutput K)}
    {positions : List PositionIds} (returned : paddedPositionIds processor outputs = .ok positions) :
    positions.length = outputs.length := by
  cases processor with
  | none =>
    cases returned
    simp [padSequence]
  | some processor =>
    obtain ⟨padded, succeeded, same⟩ := bind_eq_ok.mp returned
    cases same
    rw [length_map]
    cases outputs with
    | nil => cases succeeded
    | cons first later =>
      have related := mapM_succeeded succeeded
      rw [← related.length_eq, length_cons, length_map, length_cons]

structure LastRow (earlier : List (AgentLoopOutput K)) (final : AgentLoopOutput K) (kwargs : Dict K)
    (item : DataProtoItem K) : Prop where
  responses : item.responses = final.responseIds ++
    List.replicate (longestResponse (earlier ++ [final]) - final.responseIds.length) 0
  attentionMask : item.attentionMask = List.replicate final.total 1 ++
    List.replicate (longestTotal (earlier ++ [final]) - final.total) 0
  nonTensorBatch : item.nonTensorBatch = nonTensorRow kwargs final

theorem scoreBatch_last (earlier : List (AgentLoopOutput K))
    {final : AgentLoopOutput K} (kwargs : Dict K) {positions : List PositionIds}
    (positioned : paddedPositionIds processor (earlier ++ [final]) = .ok positions) :
    ∃ before item, scoreBatch processor (earlier ++ [final]) kwargs = .ok (before ++ [item]) ∧
      LastRow earlier final kwargs item := by
  obtain ⟨prompts, promptCount, promptRows⟩ := padSequence_last (0 : Int) (earlier.map (·.promptIds)) final.promptIds
  obtain ⟨responses, responseCount, responseRows⟩ :=
    padSequence_last (0 : Int) (earlier.map (·.responseIds)) final.responseIds
  obtain ⟨masks, maskCount, maskRows⟩ := padSequence_last 0 (earlier.map (·.attentionMask)) final.attentionMask
  obtain ⟨ids, idCount, idRows⟩ := padSequence_last (0 : Int) (earlier.map (·.inputIds)) final.inputIds
  have count := paddedPositionIds_length positioned
  obtain ⟨others, position, rfl⟩ : ∃ others position, positions = others ++ [position] := by
    have nonempty : positions ≠ [] := by
      intro empty
      simp [empty] at count
    exact ⟨_, _, (dropLast_append_getLast nonempty).symm⟩
  simp only [length_append, length_singleton, Nat.add_right_cancel_iff] at count
  simp only [length_map] at promptCount responseCount maskCount idCount
  rw [scoreBatch, positioned, ok_bind]
  simp only [map_append, map_cons, map_nil, promptRows, responseRows, maskRows, idRows]
  rw [zip_append (by omega), zip_append (by simp; omega), zip_append (by simp; omega),
    zip_append (by omega), zip_append (by simp; omega), map_append]
  refine ⟨_, _, rfl, ?_⟩
  constructor
  · simp [longestResponse, Function.comp_def]
  · simp [longestTotal, AgentLoopOutput.attentionMask, AgentLoopOutput.inputIds, AgentLoopOutput.total,
      Function.comp_def]
  · rfl

@[simp] theorem fromIndex_last (before : DataProto K) (item : DataProtoItem K) :
    fromIndex (before ++ [item]) (-1) = [item] := by simp [fromIndex]

@[simp] theorem lastItem_append (before : DataProto K) (item : DataProtoItem K) :
    lastItem (before ++ [item]) = .ok item := by
  rw [lastItem, fromIndex_last]
  rfl

/-! ### What the managers read -/

structure SameView (item other : DataProtoItem K) : Prop where
  validResponseLength : item.validResponseLength = other.validResponseLength
  validResponseIds : item.validResponseIds = other.validResponseIds
  nonTensorBatch : item.nonTensorBatch = other.nonTensorBatch

theorem Manager.request_congr {item other : DataProtoItem K} (same : SameView item other) (manager : Manager K) :
    manager.request item = manager.request other := by
  cases manager with
  | naive | remote =>
    simp only [request, NaiveRewardManager.request, RemoteRewardManager.request, RewardManager.scoreCall,
      toolAndRollout, DataProtoItem.groundTruth, DataProtoItem.extraInfo, DataProtoItem.withToolFields,
      DataProtoItem.withRollout, same.validResponseIds, same.nonTensorBatch]
  | dapo | gdpo =>
    simp only [request, DAPORewardManager.request, GDPORewardManager.request, RewardManager.scoreCall,
      DataProtoItem.groundTruth, DataProtoItem.extraInfo, same.validResponseIds, same.nonTensorBatch]
  | limited =>
    simp only [request, RateLimitedRewardManager.request, RewardManager.scoreCall, DataProtoItem.groundTruth,
      DataProtoItem.extraInfo, DataProtoItem.withToolFields, same.validResponseIds, same.nonTensorBatch]

theorem RewardLoopWorker.chat_congr {item other : DataProtoItem K} (same : SameView item other)
    (worker : RewardLoopWorker K) : worker.chat [item] = worker.chat [other] := by
  simp only [chat, same.validResponseIds, same.nonTensorBatch]

section Score
variable [Field K] [LinearOrder K]

theorem Manager.runSingle_congr (before before' : DataProto K) {item other : DataProtoItem K}
    (same : SameView item other) (manager : Manager K) :
    manager.runSingle (before ++ [item]) = manager.runSingle (before' ++ [other]) := by
  have requested := manager.request_congr same
  cases manager with
  | naive =>
    simp only [request] at requested
    simp only [runSingle, NaiveRewardManager.runSingle, lastItem_append, ok_bind, requested,
      same.validResponseLength]
  | dapo =>
    simp only [request] at requested
    simp only [runSingle, DAPORewardManager.runSingle, lastItem_append, ok_bind, requested,
      same.validResponseLength]
  | gdpo =>
    simp only [request] at requested
    simp only [runSingle, GDPORewardManager.runSingle, lastItem_append, ok_bind, requested]
  | remote =>
    simp only [request] at requested
    simp only [runSingle, RemoteRewardManager.runSingle, lastItem_append, ok_bind, requested]
  | limited =>
    simp only [request] at requested
    simp only [runSingle, RateLimitedRewardManager.runSingle, lastItem_append, ok_bind, requested]

theorem RewardLoopWorker.computeScore_congr {before before' : DataProto K} {item other : DataProtoItem K}
    (same : SameView item other) (worker : RewardLoopWorker K) :
    worker.computeScore (before ++ [item]) = worker.computeScore (before' ++ [other]) := by
  have run := worker.rewardManager.runSingle_congr before before' same
  simp only [computeScore, run, fromIndex_last, computeScoreDisrm, preprocessRewardInputs, worker.chat_congr same]

end Score

/-! ### The length of the response -/

theorem mask_sum (ones zeros skipped : Nat) :
    ((replicate ones 1 ++ replicate zeros 0).drop skipped).sum = ones - skipped := by
  rw [drop_append, drop_replicate, drop_replicate, sum_append]
  simp

theorem longest_le {lengths : List Nat} {bound : Nat} (each : ∀ length ∈ lengths, length ≤ bound) :
    longest lengths ≤ bound := by
  induction lengths with
  | nil => exact Nat.zero_le _
  | cons first lengths ih =>
    rw [longest, foldr_cons]
    exact Nat.max_le.mpr ⟨each first (by simp), ih (fun length member => each length (by simp [member]))⟩

theorem longestResponse_le (outputs : List (AgentLoopOutput K)) : longestResponse outputs ≤ longestTotal outputs := by
  apply longest_le
  intro length member
  obtain ⟨output, among, rfl⟩ := mem_map.mp member
  exact Nat.le_trans (Nat.le_add_left _ _) (le_longest (mem_map_of_mem (f := (·.total)) among))

variable {earlier : List (AgentLoopOutput K)} {final : AgentLoopOutput K} {kwargs : Dict K} {item : DataProtoItem K}

theorem LastRow.width (row : LastRow earlier final kwargs item) :
    item.responses.length = longestResponse (earlier ++ [final]) := by
  have short := response_le earlier final
  rw [row.responses, length_append, length_replicate]
  omega

theorem LastRow.validResponseLength (row : LastRow earlier final kwargs item) :
    item.validResponseLength = if longestResponse (earlier ++ [final]) = 0 then final.total
      else final.total - (longestTotal (earlier ++ [final]) - longestResponse (earlier ++ [final])) := by
  have short := total_le earlier final
  rw [DataProtoItem.validResponseLength, row.width, row.attentionMask]
  split
  · rename_i empty
    rw [empty]
    exact mask_sum _ _ 0
  · rename_i wide
    rw [fromIndex_neg _ (Nat.pos_of_ne_zero wide), mask_sum, length_append, length_replicate,
      length_replicate, Nat.add_sub_cancel' short]

theorem LastRow.validResponseIds_iff (row : LastRow earlier final kwargs item) :
    item.validResponseIds = final.responseIds ↔
      min item.validResponseLength (longestResponse (earlier ++ [final])) = final.responseIds.length := by
  rw [DataProtoItem.validResponseIds, ← row.width]
  constructor
  · intro same
    rw [← same, length_take]
  · intro length
    have cut : item.responses.take item.validResponseLength = item.responses.take final.responseIds.length := by
      rw [← length, take_eq_take_min]
    rw [cut, row.responses, take_left]

theorem LastRow.single (row : LastRow [] final kwargs item) :
    item.validResponseLength = (if final.responseIds.length = 0 then final.total else final.responseIds.length) ∧
      item.validResponseIds = final.responseIds := by
  have length := row.validResponseLength
  have total : final.total = final.promptIds.length + final.responseIds.length := rfl
  simp only [nil_append, longestResponse, longestTotal, map_cons, map_nil, longest_single] at length
  rw [row.validResponseIds_iff]
  simp only [nil_append, longestResponse, map_cons, map_nil, longest_single]
  split at length
  · rename_i empty
    rw [length, if_pos empty, empty, Nat.min_zero]
    exact ⟨rfl, rfl⟩
  · rename_i some
    rw [length, if_neg some]
    omega

/-! ### Scores of the final output -/

/-- Every reward manager and the reward model decode these ids. -/
structure Decodes (data : DataProto K) (ids : List Int) : Prop where
  managers : ∀ (manager : Manager K) item call, lastItem data = .ok item → manager.request item = .ok call →
    call.solutionStr = manager.base.tokenizer.decode ids true
  disrm : ∀ (worker : RewardLoopWorker K) chat, worker.chat (fromIndex data (-1)) = .ok chat →
    ∃ rawPrompt, chat = rawPrompt ++ [.dict [("role", .text "assistant"), ("content",
      .text ((worker.inputTokenizer.decode ids false).replace worker.inputTokenizer.eosToken ""))]]

/-- The batch is built, the response of the final output is decoded from it, and the reward is the
one that the final output gets alone. -/
def ScoresFinal [Field K] [LinearOrder K] (processor : Option (Processor K)) (earlier : List (AgentLoopOutput K))
    (final : AgentLoopOutput K) : Prop :=
  ∀ kwargs, ∃ data single, scoreBatch processor (earlier ++ [final]) kwargs = .ok data ∧
    scoreBatch processor [final] kwargs = .ok single ∧ Decodes data final.responseIds ∧
    ∀ worker : RewardLoopWorker K, worker.computeScore data = worker.computeScore single

/-- The padding of the masks is as long as that of the responses, and the positions have one width. -/
def Aligned (processor : Option (Processor K)) (earlier : List (AgentLoopOutput K)) (final : AgentLoopOutput K) :
    Prop :=
  (processor.isSome → SameTotals (earlier ++ [final])) ∧
  if final.responseIds = [] then final.promptIds = [] ∨ longestResponse (earlier ++ [final]) = 0
  else final.promptIds.length + longestResponse (earlier ++ [final]) = longestTotal (earlier ++ [final])

theorem decodes_of_ids (before : DataProto K) {item : DataProtoItem K} {ids : List Int}
    (same : item.validResponseIds = ids) : Decodes (before ++ [item]) ids := by
  constructor
  · intro manager other call found requested
    rw [lastItem_append] at found
    cases found
    cases manager with
    | naive | dapo | gdpo | remote | limited =>
      obtain ⟨_, _, requested⟩ := bind_eq_ok.mp requested
      obtain ⟨_, _, requested⟩ := bind_eq_ok.mp requested
      obtain ⟨_, _, requested⟩ := bind_eq_ok.mp requested
      cases requested
      simp only [Manager.base, same]
  · intro worker chat returned
    rw [fromIndex_last] at returned
    simp only [RewardLoopWorker.chat, same] at returned
    split at returned
    · cases returned
      exact ⟨_, rfl⟩
    · cases returned
    · cases returned

theorem scoresFinal_of_aligned [Field K] [LinearOrder K]
    (aligned : Aligned processor earlier final) : ScoresFinal processor earlier final := by
  intro kwargs
  obtain ⟨positions, positioned⟩ := (paddedPositionIds_ok processor (by simp)).mpr aligned.1
  have alone : processor.isSome → SameTotals [final] := by
    intro _ first named output member
    cases named
    cases mem_singleton.mp member
    exact .inl rfl
  obtain ⟨positions', positioned'⟩ := (paddedPositionIds_ok processor (cons_ne_nil final [])).mpr alone
  obtain ⟨before, item, built, row⟩ := scoreBatch_last earlier kwargs positioned
  obtain ⟨before', other, built', row'⟩ := scoreBatch_last [] kwargs positioned'
  obtain ⟨length', ids'⟩ := row'.single
  have length := row.validResponseLength
  have short := response_le earlier final
  have total : final.total = final.promptIds.length + final.responseIds.length := rfl
  have counts : item.validResponseLength = other.validResponseLength ∧
      min item.validResponseLength (longestResponse (earlier ++ [final])) = final.responseIds.length := by
    have balanced := aligned.2
    split at balanced
    · rename_i empty
      rw [length, length']
      simp only [empty, length_nil, if_pos] at *
      cases balanced with
      | inl noPrompt =>
        simp only [noPrompt, length_nil] at *
        split <;> omega
      | inr noResponse =>
        rw [noResponse, if_pos rfl]
        simp
    · rename_i some
      have some := mt length_eq_zero_iff.mp some
      rw [length, length', if_neg some, if_neg (by omega)]
      omega
  have ids := row.validResponseIds_iff.mpr counts.2
  refine ⟨_, _, built, built', decodes_of_ids before ids, fun worker => worker.computeScore_congr ⟨counts.1, ?_, ?_⟩⟩
  · rw [ids, ids']
  · rw [row.nonTensorBatch, row'.nonTensorBatch]

/-! ### A manager that sees both the length and the ids -/

def plainKwargs : Dict K :=
  [("data_source", .none), ("reward_model", .dict [("ground_truth", .none)])]

def telling (ids : List Int) : Tokenizer := ⟨fun other _ => if other = ids then "response" else "", "eos"⟩

def plainManager (tokenizer : Tokenizer) : RewardManager K := ⟨tokenizer, fun _ => .ok (.int 0), none⟩

def plainWorker (manager : Manager K) : RewardLoopWorker K :=
  ⟨true, false, manager, telling [], fun _ => "", none, "vllm", "", fun _ _ => .error .timeout⟩

theorem plain_request (manager : RewardManager K) (fields : item.nonTensorBatch = nonTensorRow plainKwargs final) :
    ∃ call, NaiveRewardManager.request manager item = .ok call := by
  have source : item.nonTensorBatch.lookup "data_source" = some .none := by
    rw [fields]
    rfl
  have model : item.nonTensorBatch.lookup "reward_model" = some (.dict [("ground_truth", .none)]) := by
    rw [fields]
    rfl
  have info : item.nonTensorBatch.lookup "extra_info" = none := by
    rw [fields]
    rfl
  have tools : item.nonTensorBatch.lookup "tool_extra_fields" = some (.dict final.extraFields) := by
    rw [fields]
    rfl
  simp only [NaiveRewardManager.request, RewardManager.scoreCall, subscript, source, DataProtoItem.groundTruth, model,
    DataProtoItem.extraInfo, info, toolAndRollout, DataProtoItem.withToolFields, tools, PyValue.asDict,
    ok_bind, Option.getD_none]
  exact ⟨_, rfl⟩

theorem plain_run {before : DataProto K} (tokenizer : Tokenizer)
    (fields : item.nonTensorBatch = nonTensorRow plainKwargs final) :
    NaiveRewardManager.runSingle (plainManager tokenizer) (before ++ [item]) =
      .ok ⟨.int 0, some [("response_length", .int item.validResponseLength), ("acc", .int 0)]⟩ := by
  obtain ⟨call, requested⟩ := plain_request (plainManager tokenizer) fields
  rw [NaiveRewardManager.runSingle, lastItem_append, ok_bind, requested, ok_bind]
  rfl

theorem aligned_of_scoresFinal [Field K] [LinearOrder K]
    (scored : ScoresFinal processor earlier final) : Aligned processor earlier final := by
  obtain ⟨data, single, built, built', decodes, sameScore⟩ := scored plainKwargs
  obtain ⟨positions, positioned, _⟩ := bind_eq_ok.mp built
  obtain ⟨positions', positioned', _⟩ := bind_eq_ok.mp built'
  refine ⟨(paddedPositionIds_ok processor (by simp)).mp ⟨positions, positioned⟩, ?_⟩
  obtain ⟨before, item, last, row⟩ := scoreBatch_last earlier plainKwargs positioned
  obtain ⟨before', other, last', row'⟩ := scoreBatch_last [] plainKwargs positioned'
  cases built.symm.trans last
  cases built'.symm.trans last'
  have ids : item.validResponseIds = final.responseIds := by
    let manager : RewardManager K := plainManager (telling final.responseIds)
    obtain ⟨call, requested⟩ := plain_request manager row.nonTensorBatch
    have decoded := decodes.managers (.naive manager) item call (lastItem_append _ _) requested
    have text := (decodes_of_ids before rfl).managers (.naive manager) item call (lastItem_append _ _) requested
    rw [text] at decoded
    by_contra differ
    simp [Manager.base, manager, plainManager, telling, differ] at decoded
  have length : item.validResponseLength = other.validResponseLength := by
    have same := sameScore (plainWorker (.naive (plainManager (telling []))))
    simp only [RewardLoopWorker.computeScore, plainWorker, if_true, Manager.runSingle,
      plain_run _ row.nonTensorBatch, plain_run _ row'.nonTensorBatch] at same
    injection same with same
    injection same with _ info
    injection info with info
    injection info with entry _
    injection entry with _ entry
    injection entry with entry
    exact Int.ofNat.inj entry
  obtain ⟨single, _⟩ := row'.single
  have cut := row.validResponseIds_iff.mp ids
  have seen := row.validResponseLength
  have short := longestResponse_le (earlier ++ [final])
  have total : final.total = final.promptIds.length + final.responseIds.length := rfl
  split
  · rename_i empty
    rw [length_eq_zero_iff.mpr empty] at *
    rw [← length_eq_zero_iff]
    simp only [if_true] at single
    omega
  · rename_i some
    have some := mt length_eq_zero_iff.mp some
    rw [if_neg some] at single
    split at seen <;> omega

/-- The final output is scored by itself exactly when the padding lines up. -/
theorem scores_final_iff [Field K] [LinearOrder K] (processor : Option (Processor K))
    (earlier : List (AgentLoopOutput K)) (final : AgentLoopOutput K) :
    ScoresFinal processor earlier final ↔ Aligned processor earlier final :=
  ⟨aligned_of_scoresFinal, scoresFinal_of_aligned⟩

/-- A session whose second output has the longer prompt and the shorter response. -/
theorem not_scores_final : ¬ ScoresFinal (K := Rat) none [⟨[1], [2, 3, 4, 5, 6], none, 1, []⟩]
    ⟨[1, 2, 7, 8], [9, 10], none, 2, []⟩ := by
  intro scored
  have aligned := aligned_of_scoresFinal scored
  have balanced := aligned.2
  simp [longestResponse, longestTotal, longest, AgentLoopOutput.total] at balanced

end LLMFusion.RewardLoop
