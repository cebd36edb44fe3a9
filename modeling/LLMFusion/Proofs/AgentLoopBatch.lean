import LLMFusion.AgentLoopBatch
import LLMFusion.Proofs.TeacherLoop
import Mathlib.Data.List.Dedup

/-! What a worker makes of its outputs. The first output decides which columns there are and which keys are read, so that the
batch is right exactly if the others have what the first has; and a reward of an empty response is put on its padding. -/

namespace LLMFusion.AgentLoopBatch
open List hiding mapM_map
open Indexing Fallible
open RewardLoop (PyValue Dict PositionIds computePositionIdWithMask textPositionIds)

/-! ### Columns -/

section Columns
variable {α σ : Type} [DecidableEq σ]

variable {shape : α → σ}

theorem cat_ok {rows : List α} {common : σ} (filled : rows ≠ []) (same : ∀ row ∈ rows, shape row = common) :
    cat shape rows = .ok rows := by
  obtain ⟨first, rest, rfl⟩ := exists_cons_of_ne_nil filled
  apply if_pos
  intro row member
  rw [same row member, same first mem_cons_self]

theorem cat_eq {rows column : List α} (returned : cat shape rows = .ok column) : column = rows := by
  unfold cat at returned
  split at returned
  · cases returned
  · split at returned
    · cases returned
      rfl
    · cases returned

/-- Where the first row is there, so are the others, in its shape. -/
def Complete (shape : α → σ) (rows : List (Option α)) : Prop :=
  ∀ first, rows.head? = some (some first) → ∀ row ∈ rows, ∃ value, row = some value ∧ shape value = shape first

variable {rows : List (Option α)}

theorem catOptional_of_complete (complete : Complete shape rows) : ∃ column, catOptional shape rows = .ok column := by
  cases rows with
  | nil => exact ⟨none, rfl⟩
  | cons row rest =>
    cases row with
    | none => exact ⟨none, rfl⟩
    | some first =>
      have there := complete first rfl
      have each : ∀ row ∈ some first :: rest, ∃ value, orTypeError row = .ok value ∧
          shape value = shape first := by
        intro row member
        obtain ⟨value, rfl, same⟩ := there row member
        exact ⟨value, rfl, same⟩
      obtain ⟨present, returned, related⟩ := mapM_ok orTypeError _ each
      have filled : present ≠ [] := by
        rintro rfl
        cases related
      have shapes : ∀ value ∈ present, shape value = shape first := by
        intro value member
        obtain ⟨_, _, same⟩ := forall₂_right related member
        exact same
      refine ⟨some present, ?_⟩
      rw [catOptional, returned, ok_bind, cat_ok filled shapes]
      rfl

theorem complete_of_catOptional {column : Option (List α)}
    (returned : catOptional shape rows = .ok column) : Complete shape rows := by
  intro first head
  cases rows with
  | nil => cases head
  | cons row rest =>
    cases head
    obtain ⟨present, all, returned⟩ := bind_eq_ok.mp (show (_ >>= _) = _ from returned)
    obtain ⟨values, isCat, _⟩ := bind_eq_ok.mp returned
    have related := mapM_succeeded all
    have shapes : ∀ value ∈ present, shape value = shape first := by
      cases related with
      | cons isFirst _ =>
        cases isFirst
        unfold cat at isCat
        split at isCat
        · cases isCat
        · next _ head _ split =>
          cases split
          split at isCat
          · next same => exact same
          · cases isCat
    intro row member
    obtain ⟨value, inside, isRow⟩ := forall₂_left related member
    cases row with
    | none => cases isRow
    | some value =>
      cases isRow
      exact ⟨value, rfl, shapes value inside⟩

theorem catOptional_rows {column : List α}
    (returned : catOptional shape rows = .ok (some column)) : rows = column.map some := by
  cases rows with
  | nil => cases returned
  | cons row rest =>
    cases row with
    | none => cases returned
    | some first =>
      obtain ⟨present, all, returned⟩ := bind_eq_ok.mp (show (_ >>= _) = _ from returned)
      obtain ⟨values, isCat, returned⟩ := bind_eq_ok.mp returned
      cases returned
      rw [cat_eq isCat]
      have related := mapM_succeeded all
      clear isCat returned all
      generalize some first :: rest = rows at related
      induction related with
      | nil => rfl
      | @cons row value _ _ isRow _ ih =>
        rw [ih, map_cons]
        cases row with
        | none => cases isRow
        | some _ =>
          cases isRow
          rfl

omit [DecidableEq σ] in
theorem complete_map {ι β τ : Type} [DecidableEq τ] {other : β → τ} {items : List ι} {row : ι → Option α}
    {made : ι → α → β} (same : ∀ i ∈ items, ∀ j ∈ items, ∀ a b, row i = some a → row j = some b →
      (other (made i a) = other (made j b) ↔ shape a = shape b)) :
    Complete other (items.map (fun item => (row item).map (made item))) ↔ Complete shape (items.map row) := by
  cases items with
  | nil =>
    constructor <;>
    · intro _ _ head
      cases head
  | cons first rest =>
    constructor
    · intro complete value head entry member
      obtain ⟨item, inside, rfl⟩ := mem_map.mp member
      have isValue : row first = some value := Option.some.inj head
      obtain ⟨there, isThere, shapes⟩ := complete (made first value) (by rw [map_cons, isValue]; rfl) _
        (mem_map_of_mem inside)
      obtain ⟨found, isFound, rfl⟩ := Option.map_eq_some_iff.mp isThere
      exact ⟨found, isFound, (same item inside first mem_cons_self found value isFound isValue).mp shapes⟩
    · intro complete value head entry member
      obtain ⟨item, inside, rfl⟩ := mem_map.mp member
      obtain ⟨origin, isOrigin, rfl⟩ := Option.map_eq_some_iff.mp (Option.some.inj head)
      obtain ⟨found, isFound, shapes⟩ := complete origin (by rw [map_cons, isOrigin]; rfl) _
        (mem_map_of_mem inside)
      refine ⟨made item found, by rw [isFound]; rfl, ?_⟩
      exact (same item inside first mem_cons_self found origin isFound isOrigin).mpr shapes

end Columns

/-! ### One output -/

variable {K : Type}

def rowWidth {α : Type} (rows : List (List α)) : Nat := (rows.headD []).length

/-- What the agent loops make sure of: prompts and responses are cut to their lengths, and the fields of the tokens have an
entry for each of them. -/
structure Fits (worker : Worker K) (output : AgentLoopOutput K) : Prop where
  prompt : output.promptIds.length ≤ worker.promptLength
  response : output.responseIds.length ≤ worker.responseLength
  mask : output.responseMask.length = output.responseIds.length
  logprobs : ∀ logprobs, output.responseLogprobs = some logprobs → logprobs.length ≤ worker.responseLength
  experts : ∀ experts, output.routedExperts = some experts →
    experts.tokens.length ≤ output.promptIds.length + worker.responseLength
  teacher : ∀ teacher, output.teacher = some teacher →
    (teacher.1.length = output.promptIds.length + output.responseIds.length ∧
      ∀ row ∈ teacher.1, row.length = rowWidth teacher.1) ∧
    (teacher.2.length = output.promptIds.length + output.responseIds.length ∧
      ∀ row ∈ teacher.2, row.length = rowWidth teacher.2)
  info : ∀ value, output.extraFields.lookup rewardInfoKey = some value → ∃ entries, value = .dict entries

/-- The tokenizer pads the prompt and the response, also without a token. -/
def Padded (worker : Worker K) (output : AgentLoopOutput K) : Prop :=
  (output.promptIds = [] → ∃ result, worker.tokenizer.pad true worker.promptLength [] = .ok result) ∧
    (output.responseIds = [] → ∃ result, worker.tokenizer.pad false worker.responseLength [] = .ok result)

def promptRow (worker : Worker K) (output : AgentLoopOutput K) : List Nat :=
  List.replicate (worker.promptLength - output.promptIds.length) worker.tokenizer.padTokenId ++ output.promptIds

def responseRow (worker : Worker K) (output : AgentLoopOutput K) : List Nat :=
  output.responseIds ++ List.replicate (worker.responseLength - output.responseIds.length) worker.tokenizer.padTokenId

def responseMaskRow (worker : Worker K) (output : AgentLoopOutput K) : List Nat :=
  output.responseMask ++ List.replicate (worker.responseLength - output.responseIds.length) 0

def attentionRow (worker : Worker K) (output : AgentLoopOutput K) : List Nat :=
  (List.replicate (worker.promptLength - output.promptIds.length) 0 ++
    List.replicate output.promptIds.length 1) ++
    (List.replicate output.responseIds.length 1 ++
      List.replicate (worker.responseLength - output.responseIds.length) 0)

def inputRow (worker : Worker K) (output : AgentLoopOutput K) : List Nat :=
  promptRow worker output ++ responseRow worker output

def expertsRow (worker : Worker K) (output : AgentLoopOutput K) (experts : Experts) : Experts :=
  let before := zeroExperts experts.layerNum experts.topkNum (worker.promptLength - output.promptIds.length)
  let after := zeroExperts experts.layerNum experts.topkNum
    (output.promptIds.length + worker.responseLength - experts.tokens.length)
  { experts with tokens := before ++ experts.tokens ++ after }

variable [Zero K]

def logprobsRow (worker : Worker K) (logprobs : List K) : List K :=
  logprobs ++ List.replicate (worker.responseLength - logprobs.length) 0

def teacherRows (worker : Worker K) (output : AgentLoopOutput K) (teacher : List (List Nat) × List (List K)) :
    List (List Nat) × List (List K) :=
  TeacherLoop.padTeacherOutputs teacher.1 teacher.2 worker.promptLength worker.responseLength output.promptIds.length
    output.responseIds.length worker.tokenizer.padTokenId

/-- What an output gives. -/
def internalOf (worker : Worker K) (output : PyValue K × AgentLoopOutput K) : InternalOutput K where
  promptIds := promptRow worker output.2
  responseIds := responseRow worker output.2
  inputIds := inputRow worker output.2
  positionIds := computePositionIds worker.processor output.2 (inputRow worker output.2)
    (attentionRow worker output.2)
  responseMask := responseMaskRow worker output.2
  attentionMask := attentionRow worker output.2
  responseLogprobs := output.2.responseLogprobs.map (logprobsRow worker)
  routedExperts := output.2.routedExperts.map (expertsRow worker output.2)
  teacherIds := output.2.teacher.map (fun teacher => (teacherRows worker output.2 teacher).1)
  teacherLogprobs := output.2.teacher.map (fun teacher => (teacherRows worker output.2 teacher).2)
  multiModalInputs := computeMultiModalInputs worker.processor output.2 (inputRow worker output.2)
  rewardScore := output.2.rewardScore
  numTurns := output.2.numTurns
  metrics := output.2.metrics
  extraFields := insert "raw_prompt" output.1 output.2.extraFields

omit [Zero K] in
theorem pad_ok (tokenizer : Tokenizer) {left : Bool} {maxLength : Nat} {tokens : List Nat}
    (fits : tokens.length ≤ maxLength) (defined : tokens = [] → ∃ result, tokenizer.pad left maxLength [] = .ok result) :
    tokenizer.pad left maxLength tokens = .ok (padded tokenizer.padTokenId left maxLength tokens) := by
  by_cases empty : tokens = []
  · subst empty
    obtain ⟨result, returned⟩ := defined rfl
    cases tokenizer.padsEmpty left maxLength with
    | inl pads => exact pads
    | inr fails =>
      obtain ⟨failure, raised⟩ := fails
      rw [raised] at returned
      cases returned
  · exact tokenizer.pads left maxLength tokens empty fits

omit [Zero K] in
theorem weighted_mask {mask : List Nat} {padTokenId count rest : Nat} (length : mask.length = count) :
    zipWith (· * ·) (mask ++ replicate rest padTokenId) (replicate count 1 ++ replicate rest 0) =
      mask ++ replicate rest 0 := by
  have ones : zipWith (· * ·) mask (replicate count 1) = mask := by
    subst length
    induction mask with
    | nil => rfl
    | cons entry mask ih => rw [length_cons, replicate_succ, zipWith_cons_cons, ih, Nat.mul_one]
  rw [zipWith_append (by rw [length, length_replicate]), ones, zipWith_replicate']
  simp

variable {output : AgentLoopOutput K}

omit [Zero K] in
theorem placeExperts_ok {worker : Worker K} (fits : Fits worker output) {experts : Experts}
    (given : output.routedExperts = some experts) : placeExperts (worker.promptLength - output.promptIds.length)
      (worker.promptLength + worker.responseLength) experts = .ok (expertsRow worker output experts) := by
  have short := fits.experts experts given
  have prompt := fits.prompt
  have last : min (worker.promptLength - output.promptIds.length + experts.tokens.length)
      (worker.promptLength + worker.responseLength) =
        worker.promptLength - output.promptIds.length + experts.tokens.length := by omega
  have rest : worker.promptLength + worker.responseLength -
    (worker.promptLength - output.promptIds.length + experts.tokens.length) =
      output.promptIds.length + worker.responseLength - experts.tokens.length := by omega
  rw [placeExperts]
  simp only [last, Nat.add_sub_cancel_left, if_true, rest]
  rfl

omit [Zero K] in
theorem promptRow_length {worker : Worker K} (fits : Fits worker output) :
    (promptRow worker output).length = worker.promptLength := by
  have prompt := fits.prompt
  simp only [promptRow, length_append, length_replicate]
  omega

omit [Zero K] in
theorem responseRow_length {worker : Worker K} (fits : Fits worker output) :
    (responseRow worker output).length = worker.responseLength := by
  have response := fits.response
  simp only [responseRow, length_append, length_replicate]
  omega

theorem agentLoopPostprocess_ok {worker : Worker K} {output : PyValue K × AgentLoopOutput K}
    (fits : Fits worker output.2) (pads : Padded worker output.2) : agentLoopPostprocess worker output.1 output.2 =
        .ok (internalOf worker output) := by
  have prompt := pad_ok worker.tokenizer fits.prompt pads.1
  have response := pad_ok worker.tokenizer fits.response pads.2
  have maskFits : output.2.responseMask.length ≤ worker.responseLength := fits.mask ▸ fits.response
  have maskEmpty : output.2.responseMask = [] → output.2.responseIds = [] := by
    intro empty
    apply eq_nil_of_length_eq_zero
    rw [← fits.mask, empty]
    rfl
  have mask := pad_ok worker.tokenizer maskFits (fun empty => pads.2 (maskEmpty empty))
  have promptIs : padded worker.tokenizer.padTokenId true worker.promptLength output.2.promptIds =
    (promptRow worker output.2,
      replicate (worker.promptLength - output.2.promptIds.length) 0 ++
        replicate output.2.promptIds.length 1) := rfl
  have responseIs : padded worker.tokenizer.padTokenId false worker.responseLength output.2.responseIds =
      (responseRow worker output.2, replicate output.2.responseIds.length 1 ++
        replicate (worker.responseLength - output.2.responseIds.length) 0) := rfl
  have maskIs : (padded worker.tokenizer.padTokenId false worker.responseLength output.2.responseMask).1 =
      output.2.responseMask ++ replicate
          (worker.responseLength - output.2.responseIds.length) worker.tokenizer.padTokenId := by
    rw [← fits.mask]
    rfl
  have inputs : (promptRow worker output.2 ++ responseRow worker output.2).length =
      worker.promptLength + worker.responseLength := by
    rw [length_append, promptRow_length fits, responseRow_length fits]
  have experts : placeOptional (worker.promptLength - output.2.promptIds.length)
    (worker.promptLength + worker.responseLength)
      output.2.routedExperts = .ok (output.2.routedExperts.map (expertsRow worker output.2)) := by
    cases given : output.2.routedExperts with
    | none => rfl
    | some experts =>
      rw [placeOptional, placeExperts_ok fits given]
      rfl
  unfold agentLoopPostprocess
  simp only [prompt, response, mask, ok_bind, promptIs, responseIs, maskIs, promptRow_length fits,
    responseRow_length fits,
    inputs, experts, weighted_mask fits.mask, Option.map_map, Function.comp_def]
  rfl

theorem agentLoopPostprocess_padded {worker : Worker K} {output : PyValue K × AgentLoopOutput K}
    {result : InternalOutput K}
    (returned : agentLoopPostprocess worker output.1 output.2 = .ok result) : Padded worker output.2 := by
  obtain ⟨prompt, isPrompt, returned⟩ := bind_eq_ok.mp returned
  obtain ⟨response, isResponse, _⟩ := bind_eq_ok.mp returned
  constructor
  · intro empty
    exact ⟨prompt, empty ▸ isPrompt⟩
  · intro empty
    exact ⟨response, empty ▸ isResponse⟩

/-! ### Rewards -/

omit [Zero K] in
theorem attentionRow_sum {worker : Worker K} (fits : Fits worker output) :
    ((attentionRow worker output).drop worker.promptLength).sum = output.responseIds.length := by
  have prompt := fits.prompt
  rw [attentionRow, drop_left']
  · simp
  · simp only [length_append, length_replicate]
    omega

omit [Zero K] in
theorem responseMaskRow_length {worker : Worker K} (fits : Fits worker output) :
    (responseMaskRow worker output).length = worker.responseLength := by
  have response := fits.response
  simp only [responseMaskRow, length_append, length_replicate, fits.mask]
  omega

/-- The reward of an output is at its last token, and there is nothing else. -/
def Placed (worker : Worker K) (output : PyValue K × AgentLoopOutput K) (row : List K) : Prop :=
  (∀ score, output.2.rewardScore = some score → ∃ last, output.2.responseIds.length = last + 1 ∧
    row = (List.replicate worker.responseLength 0).set last score) ∧
  (output.2.rewardScore = none → row = List.replicate worker.responseLength 0)

/-- No output has a reward, or every one has a reward and a response. -/
def Rewarded (outputs : List (PyValue K × AgentLoopOutput K)) : Prop :=
  (∀ output ∈ outputs, output.2.rewardScore = none) ∨
    ∀ output ∈ outputs, output.2.rewardScore ≠ none ∧ output.2.responseIds ≠ []

theorem placeScore_last {width last : Nat} (inside : last < width) (score : K) :
    placeScore width (((last + 1 : Nat) : Int) - 1) score = .ok ((replicate width 0).set last score) := by
  have here : position (replicate width (0 : K)).length (((last + 1 : Nat) : Int) - 1) = some last := by
    have shift : ((last + 1 : Nat) : Int) - 1 = last := by omega
    rw [shift, length_replicate]
    exact position_of_nat inside
  rw [placeScore, setItem, here]
  rfl

variable {worker : Worker K} {outputs : List (PyValue K × AgentLoopOutput K)}

theorem scores_none {output : PyValue K × AgentLoopOutput K} (member : output ∈ outputs)
    (missing : output.2.rewardScore = none) :
    (outputs.map (internalOf worker)).mapM InternalOutput.rewardScore = none := by
  cases all : (outputs.map (internalOf worker)).mapM InternalOutput.rewardScore with
  | none => rfl
  | some scores =>
    obtain ⟨score, _, given⟩ := forall₂_left (mapM_eq_some.mp all)
      (mem_map_of_mem member)
    rw [show (internalOf worker output).rewardScore = output.2.rewardScore from rfl, missing] at given
    cases given

theorem rmScores_none {output : PyValue K × AgentLoopOutput K} (member : output ∈ outputs)
    (missing : output.2.rewardScore = none) :
    rmScores worker.promptLength (outputs.map (internalOf worker)) = .ok none := by
  rw [rmScores, scores_none member missing]

theorem rmScores_some (fits : ∀ output ∈ outputs, Fits worker output.2)
    (rewarded : ∀ output ∈ outputs, output.2.rewardScore ≠ none ∧ output.2.responseIds ≠ []) :
    ∃ rows, rmScores worker.promptLength (outputs.map (internalOf worker)) = .ok (some rows) ∧
      List.Forall₂ (Placed worker) outputs rows := by
  have given : ∀ input ∈ outputs.map (internalOf worker), ∃ score, input.rewardScore = some score ∧ True := by
    intro input member
    obtain ⟨output, inside, rfl⟩ := mem_map.mp member
    obtain ⟨score, isScore⟩ := Option.ne_none_iff_exists'.mp (rewarded output inside).1
    exact ⟨score, isScore, trivial⟩
  obtain ⟨scores, all, -⟩ := mapM_related given
  have related := mapM_eq_some.mp all
  rw [forall₂_map_left_iff] at related
  have rows : ∃ rows, ((outputs.map (internalOf worker)).zip scores).mapM (fun input =>
      placeScore input.1.responseMask.length (((input.1.attentionMask.drop worker.promptLength).sum : Nat) - 1 : Int) input.2) =
      .ok rows ∧ List.Forall₂ (Placed worker) outputs rows := by
    clear all given
    induction related with
    | nil => exact ⟨[], rfl, .nil⟩
    | @cons output score outputs scores isScore _ ih =>
      obtain ⟨here, later⟩ := forall_mem_cons.mp fits
      obtain ⟨first, rest⟩ := forall_mem_cons.mp rewarded
      obtain ⟨rows, returned, placed⟩ := ih later rest
      obtain ⟨last, length⟩ := Nat.exists_eq_succ_of_ne_zero (length_pos_iff.mpr first.2).ne'
      have inside : last < worker.responseLength := by
        have response := here.response
        omega
      have row := placeScore_last inside score
      refine ⟨(replicate worker.responseLength 0).set last score :: rows, ?_, .cons ⟨?_, ?_⟩ placed⟩
      · have masked : (internalOf worker output).responseMask.length = worker.responseLength :=
        responseMaskRow_length here
        have counted : ((internalOf worker output).attentionMask.drop worker.promptLength).sum = last + 1 :=
          (attentionRow_sum here).trans length
        rw [map_cons, zip_cons_cons, mapM_cons, masked, counted, row, returned]
        rfl
      · intro other isOther
        rw [show output.2.rewardScore = some score from isScore] at isOther
        cases isOther
        exact ⟨last, length, rfl⟩
      · intro missing
        rw [show output.2.rewardScore = some score from isScore] at missing
        cases missing
  obtain ⟨rows, returned, placed⟩ := rows
  refine ⟨rows, ?_, placed⟩
  rw [rmScores, all]
  simp only [returned, ok_bind]
  rfl

/-! ### Extra infos -/

omit [Zero K] in
def infoOf (output : AgentLoopOutput K) : Dict K :=
  match (output.extraFields.lookup rewardInfoKey).getD (.dict []) with
  | .dict entries => entries
  | _ => []

theorem rewardExtraInfo_internal {output : PyValue K × AgentLoopOutput K} (fits : Fits worker output.2) :
    rewardExtraInfo (internalOf worker output).extraFields = .ok (infoOf output.2) := by
  have kept : (internalOf worker output).extraFields.lookup rewardInfoKey =
      output.2.extraFields.lookup rewardInfoKey := by
    rw [internalOf, lookup_insert, if_neg (by decide)]
  rw [rewardExtraInfo, infoOf, kept]
  cases found : output.2.extraFields.lookup rewardInfoKey with
  | none => rfl
  | some value =>
    obtain ⟨entries, rfl⟩ := fits.info value found
    rfl

omit [Zero K] in
/-- The values of a key, with `None` where it is missing. -/
def valuesOf (infos : List (Dict K)) (key : String) : List (PyValue K) :=
  infos.map (fun info => (info.lookup key).getD .none)

omit [Zero K] in
/-- Every info has the keys of the first one, and the values of a key make an array. -/
def Agreeing (infos : List (Dict K)) : Prop :=
  ∀ first, infos.head? = some first → ∀ entry ∈ first,
    (∀ info ∈ infos, info.lookup entry.1 ≠ none) ∧ (shapeOf (.list (valuesOf infos entry.1))).isSome

variable {infos : List (Dict K)}

omit [Zero K] in
theorem subscripts_ok {key : String} (present : ∀ info ∈ infos, info.lookup key ≠ none) :
    infos.mapM (fun info => subscript info key) = .ok (valuesOf infos key) := by
  apply mapM_map
  intro info member
  obtain ⟨value, found⟩ := Option.ne_none_iff_exists'.mp (present info member)
  rw [subscript, found]
  rfl

omit [Zero K] in
theorem subscripts_present {key : String} {values : List (PyValue K)}
    (returned : infos.mapM (fun info => subscript info key) = .ok values) : ∀ info ∈ infos, info.lookup key ≠ none := by
  intro info member missing
  obtain ⟨value, _, isValue⟩ := forall₂_left (mapM_succeeded returned) member
  rw [subscript, missing] at isValue
  cases isValue

omit [Zero K] in
theorem rewardColumns_ok {first : Dict K} (head : infos.head? = some first) (agreeing : Agreeing infos) :
    rewardColumns infos = .ok (first.map (fun entry => (entry.1, valuesOf infos entry.1))) := by
  cases infos with
  | nil => cases head
  | cons info rest =>
    cases head
    apply mapM_map
    intro entry member
    obtain ⟨present, shaped⟩ := agreeing _ rfl entry member
    rw [subscripts_ok present, ok_bind, npArray, if_pos shaped]
    rfl

omit [Zero K] in
theorem agreeing_of_rewardColumns {columns : Columns K} (returned : rewardColumns infos = .ok columns) :
    Agreeing infos := by
  intro first head entry member
  cases infos with
  | nil => cases head
  | cons info rest =>
    cases head
    obtain ⟨column, _, made⟩ := forall₂_left (mapM_succeeded returned) member
    obtain ⟨values, isValues, made⟩ := bind_eq_ok.mp made
    obtain ⟨array, isArray, _⟩ := bind_eq_ok.mp made
    have present := subscripts_present isValues
    rw [subscripts_ok present] at isValues
    cases isValues
    refine ⟨present, ?_⟩
    unfold npArray at isArray
    split at isArray
    · next shaped => exact shaped
    · cases isArray

/-! ### Columns without tensors -/

section Updates

omit [Zero K]

theorem mem_updateColumns {columns others : Columns K} {column : String × List (PyValue K)}
    (member : column ∈ updateColumns columns others) : column ∈ columns ∨ column ∈ others := by
  induction others generalizing columns with
  | nil => exact Or.inl member
  | cons other others ih =>
    have rest : column ∈ insert other.1 other.2 columns ∨ column ∈ others := ih member
    cases rest with
    | inl before =>
      cases mem_insert before with
      | inl new => exact Or.inr (new ▸ mem_cons_self)
      | inr old => exact Or.inl old
    | inr later => exact Or.inr (mem_cons_of_mem _ later)

theorem lookup_updateColumns {columns others : Columns K} (distinct : (others.map Prod.fst).Nodup)
    {column : String × List (PyValue K)}
    (member : column ∈ others) : (updateColumns columns others).lookup column.1 = some column.2 := by
  have untouched : ∀ (others columns : Columns K), column.1 ∉ others.map Prod.fst →
      (updateColumns columns others).lookup column.1 = columns.lookup column.1 := by
    intro others
    induction others with
    | nil => exact fun _ _ => rfl
    | cons other others ih =>
      intro columns absent
      rw [map_cons, mem_cons, not_or] at absent
      exact (ih _ absent.2).trans (lookup_insert.trans (if_neg absent.1))
  induction others generalizing columns with
  | nil => cases member
  | cons other others ih =>
    obtain ⟨absent, apart⟩ := nodup_cons.mp distinct
    cases member with
    | head => exact (untouched others _ absent).trans (lookup_insert.trans (if_pos rfl))
    | tail _ later => exact ih apart later

theorem extraColumns_distinct (inputs : List (InternalOutput K)) : ((extraColumns inputs).map Prod.fst).Nodup := by
  rw [extraColumns, map_map]
  exact (map_id _).symm ▸ nodup_dedup _

end Updates

def columnsOf (worker : Worker K) (given : Columns K) (outputs : List (PyValue K × AgentLoopOutput K))
    (rewards : Columns K) : Columns K :=
  let inputs := outputs.map (internalOf worker)
  let columns : Columns K := [("__num_turns__", inputs.map (fun input => .int input.numTurns))]
  let columns := if worker.hasRewardLoopWorkers then columns else updateColumns columns given
  let columns := updateColumns columns rewards
  let columns := insert "multi_modal_inputs" (inputs.map InternalOutput.multiModalInputs) columns
  updateColumns columns (extraColumns inputs)

/-- What an output or its input has under the name of a column. -/
inductive Holds (worker : Worker K) (given : Columns K) (name : String) (i : Nat)
    (output : PyValue K × AgentLoopOutput K) :
    PyValue K → Prop where
  | turns : Holds worker given name i output (.int output.2.numTurns)
  | input (column : List (PyValue K)) (value : PyValue K) (member : (name, column) ∈ given)
    (read : column[i]? = some value) :
    Holds worker given name i output value
  | reward (value : PyValue K) (found : (infoOf output.2).lookup name = some value) :
    Holds worker given name i output value
  | inputs : Holds worker given name i output (internalOf worker output).multiModalInputs
  | extra : Holds worker given name i output (((internalOf worker output).extraFields.lookup name).getD .none)

/-- A column has a row for each output, which is its own. -/
def Own (worker : Worker K) (given : Columns K) (outputs : List (PyValue K × AgentLoopOutput K))
    (column : String × List (PyValue K)) : Prop :=
  column.2.length = outputs.length ∧ ∀ i output value, outputs[i]? = some output → column.2[i]? = some value →
    Holds worker given column.1 i output value

variable {given : Columns K}

theorem own_map {name : String} {field : PyValue K × AgentLoopOutput K → PyValue K}
    (holds : ∀ i, ∀ output ∈ outputs, Holds worker given name i output (field output)) :
    Own worker given outputs (name, outputs.map field) := by
  refine ⟨length_map _, ?_⟩
  intro i output value read isValue
  rw [getElem?_map, read] at isValue
  cases isValue
  exact holds i output (mem_of_getElem? read)

theorem own_columns (aligned : ∀ column ∈ given, column.2.length = outputs.length)
    {rewards : Columns K} (own : ∀ column ∈ rewards, Own worker given outputs column) :
    ∀ column ∈ columnsOf worker given outputs rewards, Own worker given outputs column := by
  have turns : Own worker given outputs ("__num_turns__",
      (outputs.map (internalOf worker)).map (fun input => .int input.numTurns)) := by
    rw [map_map]
    exact own_map (fun i output _ => Holds.turns)
  have start : ∀ column ∈ (if worker.hasRewardLoopWorkers then
      [("__num_turns__", (outputs.map (internalOf worker)).map
        (fun input => PyValue.int (K := K) input.numTurns))] else
      updateColumns [("__num_turns__", (outputs.map (internalOf worker)).map
        (fun input => .int input.numTurns))] given),
      Own worker given outputs column := by
    intro column member
    split at member
    · cases mem_singleton.mp member
      exact turns
    · cases mem_updateColumns member with
      | inl first =>
        cases mem_singleton.mp first
        exact turns
      | inr input =>
        exact ⟨aligned column input, fun i output value _ read => Holds.input column.2 value input read⟩
  intro column member
  cases mem_updateColumns member with
  | inr extra =>
    obtain ⟨key, _, rfl⟩ := mem_map.mp extra
    rw [map_map]
    exact own_map (fun i output _ => Holds.extra)
  | inl before =>
    cases mem_insert before with
    | inl new =>
      cases new
      rw [map_map]
      exact own_map (fun i output _ => Holds.inputs)
    | inr before =>
      cases mem_updateColumns before with
      | inl first => exact start column first
      | inr reward => exact own column reward

theorem info_kept {given rewards : Columns K} {i : Nat} {output : PyValue K × AgentLoopOutput K} {key : String}
    {value : PyValue K} (fits : Fits worker output.2) (read : outputs[i]? = some output)
      (found : (infoOf output.2).lookup key = some value) :
    ∃ column entries, (columnsOf worker given outputs rewards).lookup rewardInfoKey = some column ∧
      column[i]? = some (.dict entries) ∧ entries.lookup key = some value := by
  have field : ∃ entries, output.2.extraFields.lookup rewardInfoKey = some (.dict entries) ∧
      infoOf output.2 = entries := by
    unfold infoOf at found ⊢
    cases given' : output.2.extraFields.lookup rewardInfoKey with
    | none =>
      rw [given'] at found
      cases found
    | some field =>
      obtain ⟨entries, rfl⟩ := fits.info field given'
      exact ⟨entries, rfl, rfl⟩
  obtain ⟨entries, isField, isInfo⟩ := field
  have internal : (internalOf worker output).extraFields.lookup rewardInfoKey = some (.dict entries) := by
    rw [internalOf, lookup_insert, if_neg (by decide), isField]
  have known : rewardInfoKey ∈ ((outputs.map (internalOf worker)).flatMap
    (fun input => input.extraFields.map Prod.fst) ++
      defaultExtraKeys).dedup := by
    rw [mem_dedup, mem_append, mem_flatMap]
    left
    refine ⟨internalOf worker output, mem_map_of_mem (mem_of_getElem? read), ?_⟩
    obtain ⟨before, after, split, _⟩ := lookup_eq_some_iff.mp internal
    rw [split]
    simp
  have column : (columnsOf worker given outputs rewards).lookup rewardInfoKey =
      some ((outputs.map (internalOf worker)).map
        (fun input => (input.extraFields.lookup rewardInfoKey).getD .none)) :=
    lookup_updateColumns (extraColumns_distinct (outputs.map (internalOf worker))) (mem_map_of_mem known)
  refine ⟨_, entries, column, ?_, isInfo ▸ found⟩
  rw [getElem?_map, getElem?_map, read, Option.map_some, Option.map_some, internal]
  rfl

/-! ### The batch -/

/-- Every row of a batch comes from its output, the rewards are at the last tokens, and no extra info is lost. -/
structure Postprocessed (worker : Worker K) (given : Columns K) (outputs : List (PyValue K × AgentLoopOutput K))
    (batch : Batch K) : Prop where
  prompts : batch.prompts = outputs.map (fun output => promptRow worker output.2)
  responses : batch.responses = outputs.map (fun output => responseRow worker output.2)
  responseMask : batch.responseMask = outputs.map (fun output => responseMaskRow worker output.2)
  inputIds : batch.inputIds = outputs.map (fun output => inputRow worker output.2)
  attentionMask : batch.attentionMask = outputs.map (fun output => attentionRow worker output.2)
  positionIds : batch.positionIds = outputs.map (fun output =>
    computePositionIds worker.processor output.2 (inputRow worker output.2) (attentionRow worker output.2))
  logprobs : ∀ column, batch.rolloutLogProbs = some column →
    column.map some = outputs.map (fun output => output.2.responseLogprobs.map (logprobsRow worker))
  experts : ∀ column, batch.routedExperts = some column →
    column.map some = outputs.map (fun output => output.2.routedExperts.map (expertsRow worker output.2))
  teacherLogprobs : ∀ column, batch.teacherLogprobs = some column →
    column.map some = outputs.map (fun output => output.2.teacher.map
      (fun teacher => (teacherRows worker output.2 teacher).2))
  teacherIds : ∀ column, batch.teacherIds = some column →
    column.map some = outputs.map (fun output => output.2.teacher.map
      (fun teacher => (teacherRows worker output.2 teacher).1))
  rewarded : (∃ output ∈ outputs, output.2.rewardScore ≠ none) → batch.rmScores ≠ none
  placed : ∀ rows, batch.rmScores = some rows → List.Forall₂ (Placed worker) outputs rows
  columns : ∀ column ∈ batch.nonTensorBatch, Own worker given outputs column
  kept : ∀ (i : Nat) (output : PyValue K × AgentLoopOutput K) (key : String) (value : PyValue K),
    outputs[i]? = some output → (infoOf output.2).lookup key = some value →
    ∃ (column : List (PyValue K)) (entries : Dict K), batch.nonTensorBatch.lookup rewardInfoKey = some column ∧
      column[i]? = some (.dict entries) ∧
      entries.lookup key = some value

/-- The others have what the first output has. -/
structure Uniform (worker : Worker K) (outputs : List (PyValue K × AgentLoopOutput K)) : Prop where
  padded : ∀ output ∈ outputs, Padded worker output.2
  logprobs : Complete (fun _ => ()) (outputs.map (fun output => output.2.responseLogprobs))
  experts : Complete (fun experts => (experts.layerNum, experts.topkNum))
    (outputs.map (fun output => output.2.routedExperts))
  teacherLogprobs : Complete (fun teacher => rowWidth teacher.2) (outputs.map (fun output => output.2.teacher))
  teacherIds : Complete (fun teacher => rowWidth teacher.1) (outputs.map (fun output => output.2.teacher))
  rewarded : Rewarded outputs
  infos : Agreeing (outputs.map (fun output => infoOf output.2))

theorem logprobs_complete (fits : ∀ output ∈ outputs, Fits worker output.2) :
    Complete length (outputs.map (fun output => output.2.responseLogprobs.map (logprobsRow worker))) ↔
      Complete (fun _ => ()) (outputs.map (fun output => output.2.responseLogprobs)) := by
  apply complete_map
  have width : ∀ output ∈ outputs, ∀ logprobs, output.2.responseLogprobs = some logprobs →
      (logprobsRow worker logprobs).length = worker.responseLength := by
    intro output member logprobs there
    have short := (fits output member).logprobs logprobs there
    rw [logprobsRow, length_append, length_replicate]
    omega
  intro first isFirst second isSecond one two isOne isTwo
  exact iff_of_true ((width first isFirst one isOne).trans (width second isSecond two isTwo).symm) rfl

omit [Zero K] in
theorem experts_complete (fits : ∀ output ∈ outputs, Fits worker output.2) :
    Complete expertsShape (outputs.map (fun output => output.2.routedExperts.map (expertsRow worker output.2))) ↔
      Complete (fun experts => (experts.layerNum, experts.topkNum))
          (outputs.map (fun output => output.2.routedExperts)) := by
  apply complete_map
  have shape : ∀ output ∈ outputs, ∀ experts, output.2.routedExperts = some experts →
      expertsShape (expertsRow worker output.2 experts) =
        (worker.promptLength + worker.responseLength, experts.layerNum, experts.topkNum) := by
    intro output member experts there
    have short := (fits output member).experts experts there
    have prompt := (fits output member).prompt
    have count : (expertsRow worker output.2 experts).tokens.length =
        worker.promptLength + worker.responseLength := by
      simp only [expertsRow, zeroExperts, length_append, length_replicate]
      omega
    exact Prod.ext count rfl
  intro first isFirst second isSecond one two isOne isTwo
  rw [shape first isFirst one isOne, shape second isSecond two isTwo]
  exact ⟨congrArg Prod.snd, congrArg _⟩

omit [Zero K] in
theorem padRows_shape {α : Type} {worker : Worker K} (fits : Fits worker output) (value : α)
    {rows : List (List α)} (count : rows.length = output.promptIds.length + output.responseIds.length)
    (regular : ∀ row ∈ rows, row.length = rowWidth rows) :
    (TeacherLoop.padRows ((worker.promptLength : Int) - output.promptIds.length)
      ((worker.responseLength : Int) - output.responseIds.length) value rows).map length =
      replicate (worker.promptLength + worker.responseLength) (rowWidth rows) := by
  have prompt := fits.prompt
  have response := fits.response
  have left : (worker.promptLength : Int) - output.promptIds.length =
      (worker.promptLength - output.promptIds.length : Nat) := by
    omega
  have right : (worker.responseLength : Int) - output.responseIds.length =
      (worker.responseLength - output.responseIds.length : Nat) := by
    omega
  have own : rows.map length = replicate rows.length (rowWidth rows) :=
    eq_replicate_iff.mpr ⟨length_map _, forall_mem_map.mpr regular⟩
  rw [left, right, TeacherLoop.padRows_nat, map_append, map_append, map_replicate,
    map_replicate, own,
    length_replicate]
  change replicate _ (rowWidth rows) ++ _ ++ replicate _ (rowWidth rows) = _
  rw [replicate_append_replicate, replicate_append_replicate, count]
  congr 1
  omega

omit [Zero K] in
theorem padRows_same {α : Type} {worker : Worker K} {one two : AgentLoopOutput K} (isOne : Fits worker one)
    (isTwo : Fits worker two) (value : α) {rows others : List (List α)}
      (count : rows.length = one.promptIds.length + one.responseIds.length)
    (regular : ∀ row ∈ rows, row.length = rowWidth rows)
      (counted : others.length = two.promptIds.length + two.responseIds.length)
    (regulars : ∀ row ∈ others, row.length = rowWidth others) :
    (TeacherLoop.padRows ((worker.promptLength : Int) - one.promptIds.length)
      ((worker.responseLength : Int) - one.responseIds.length) value rows).map length =
      (TeacherLoop.padRows ((worker.promptLength : Int) - two.promptIds.length)
        ((worker.responseLength : Int) - two.responseIds.length) value others).map length ↔
            rowWidth rows = rowWidth others := by
  rw [padRows_shape isOne value count regular, padRows_shape isTwo value counted regulars,
    replicate_right_inj']
  constructor
  · rintro (none | same)
    · -- without a place there are no tokens, and the fields are empty
      have short := isOne.prompt
      have shorter := isOne.response
      have brief := isTwo.prompt
      have briefer := isTwo.response
      have empty : rows = [] := eq_nil_of_length_eq_zero (by omega)
      have blank : others = [] := eq_nil_of_length_eq_zero (by omega)
      rw [empty, blank]
    · exact same
  · exact Or.inr

theorem teacherLogprobs_complete (fits : ∀ output ∈ outputs, Fits worker output.2) :
    Complete (map length) (outputs.map (fun output =>
        output.2.teacher.map (fun teacher => (teacherRows worker output.2 teacher).2))) ↔
      Complete (fun teacher => rowWidth teacher.2) (outputs.map (fun output => output.2.teacher)) := by
  apply complete_map
  intro first isFirst second isSecond one two isOne isTwo
  have left := ((fits first isFirst).teacher one isOne).2
  have right := ((fits second isSecond).teacher two isTwo).2
  exact padRows_same (fits first isFirst) (fits second isSecond) 0 left.1 left.2 right.1 right.2

theorem teacherIds_complete (fits : ∀ output ∈ outputs, Fits worker output.2) :
    Complete (map length) (outputs.map (fun output =>
        output.2.teacher.map (fun teacher => (teacherRows worker output.2 teacher).1))) ↔
      Complete (fun teacher => rowWidth teacher.1) (outputs.map (fun output => output.2.teacher)) := by
  apply complete_map
  intro first isFirst second isSecond one two isOne isTwo
  have left := ((fits first isFirst).teacher one isOne).1
  have right := ((fits second isSecond).teacher two isTwo).1
  exact padRows_same (fits first isFirst) (fits second isSecond) worker.tokenizer.padTokenId left.1 left.2 right.1 right.2

def batchOf (worker : Worker K) (given : Columns K) (outputs : List (PyValue K × AgentLoopOutput K))
    (logprobs : Option (List (List K)))
    (experts : Option (List Experts)) (teacherLogprobs : Option (List (List (List K))))
      (teacherIds : Option (List (List (List Nat))))
    (scores : Option (List (List K))) (rewards : Columns K) : Batch K where
  prompts := outputs.map (fun output => promptRow worker output.2)
  responses := outputs.map (fun output => responseRow worker output.2)
  responseMask := outputs.map (fun output => responseMaskRow worker output.2)
  inputIds := outputs.map (fun output => inputRow worker output.2)
  attentionMask := outputs.map (fun output => attentionRow worker output.2)
  positionIds := outputs.map (fun output =>
    computePositionIds worker.processor output.2 (inputRow worker output.2) (attentionRow worker output.2))
  rolloutLogProbs := logprobs
  routedExperts := experts
  teacherLogprobs := teacherLogprobs
  teacherIds := teacherIds
  rmScores := scores
  nonTensorBatch := columnsOf worker given outputs rewards
  metrics := (outputs.map (internalOf worker)).map InternalOutput.metrics
  rewardExtraKeys := scores.map (fun _ => rewards.map Prod.fst)

theorem cat_field {α σ : Type} [DecidableEq σ] {shape : α → σ} {common : σ} (field : InternalOutput K → α)
    (filled : outputs ≠ []) (same : ∀ output ∈ outputs, shape (field (internalOf worker output)) = common) :
    cat shape ((outputs.map (internalOf worker)).map field) =
        .ok (outputs.map (fun output => field (internalOf worker output))) := by
  rw [map_map]
  apply cat_ok (by simpa using filled)
  intro row member
  obtain ⟨output, inside, rfl⟩ := mem_map.mp member
  exact same output inside

omit [Zero K] in
def positionWidths (worker : Worker K) : List Nat :=
  match worker.processor with
  | none => [worker.promptLength + worker.responseLength]
  | some _ => List.replicate 4 (worker.promptLength + worker.responseLength)

omit [Zero K] in
theorem attentionRow_length {worker : Worker K} (fits : Fits worker output) :
    (attentionRow worker output).length = worker.promptLength + worker.responseLength := by
  have prompt := fits.prompt
  have response := fits.response
  simp only [attentionRow, length_append, length_replicate]
  omega

omit [Zero K] in
theorem inputRow_length {worker : Worker K} (fits : Fits worker output) :
    (inputRow worker output).length = worker.promptLength + worker.responseLength := by
  rw [inputRow, length_append, promptRow_length fits, responseRow_length fits]

omit [Zero K] in
theorem positions_shape {worker : Worker K} (fits : Fits worker output) :
    positionShape (computePositionIds worker.processor output (inputRow worker output) (attentionRow worker output)) =
      positionWidths worker := by
  have mask := attentionRow_length fits
  unfold computePositionIds positionWidths
  cases worker.processor with
  | none => simp only [positionShape, computePositionIdWithMask, length_map, length_range, mask]
  | some processor =>
    have regular := processor.regular output (inputRow worker output) (attentionRow worker output)
    simp only [positionShape, map_cons, regular, inputRow_length fits, textPositionIds, length_map,
      length_range, mask]
    rfl

theorem postprocess_steps (given : Columns K) (filled : outputs ≠ [])
    (fits : ∀ output ∈ outputs, Fits worker output.2) : postprocess worker given (outputs.map (internalOf worker)) =
      (catOptional length (outputs.map (fun output => output.2.responseLogprobs.map
        (logprobsRow worker))) >>= fun logprobs =>
      catOptional expertsShape (outputs.map (fun output => output.2.routedExperts.map
        (expertsRow worker output.2))) >>= fun experts => catOptional (map length) (outputs.map (fun output =>
        output.2.teacher.map (fun teacher => (teacherRows worker output.2 teacher).2))) >>= fun teacherLogprobs =>
      catOptional (map length) (outputs.map (fun output =>
        output.2.teacher.map (fun teacher => (teacherRows worker output.2 teacher).1))) >>= fun teacherIds =>
      rmScores worker.promptLength (outputs.map (internalOf worker)) >>= fun scores =>
      rewardColumns (outputs.map (fun output => infoOf output.2)) >>= fun rewards =>
      .ok (batchOf worker given outputs logprobs experts teacherLogprobs teacherIds scores rewards)) := by
  have prompts : cat length ((outputs.map (internalOf worker)).map InternalOutput.promptIds) =
      .ok (outputs.map (fun output => promptRow worker output.2)) :=
    cat_field InternalOutput.promptIds filled (fun output member => promptRow_length (fits output member))
  have responses : cat length ((outputs.map (internalOf worker)).map InternalOutput.responseIds) =
      .ok (outputs.map (fun output => responseRow worker output.2)) :=
    cat_field InternalOutput.responseIds filled (fun output member => responseRow_length (fits output member))
  have masks : cat length ((outputs.map (internalOf worker)).map InternalOutput.responseMask) =
      .ok (outputs.map (fun output => responseMaskRow worker output.2)) :=
    cat_field InternalOutput.responseMask filled
      (fun output member => responseMaskRow_length (fits output member))
  have attention : cat length ((outputs.map (internalOf worker)).map InternalOutput.attentionMask) =
      .ok (outputs.map (fun output => attentionRow worker output.2)) :=
    cat_field InternalOutput.attentionMask filled
      (fun output member => attentionRow_length (fits output member))
  have inputs : cat length ((outputs.map (internalOf worker)).map InternalOutput.inputIds) =
      .ok (outputs.map (fun output => inputRow worker output.2)) :=
    cat_field InternalOutput.inputIds filled (fun output member => inputRow_length (fits output member))
  have positions : cat positionShape ((outputs.map (internalOf worker)).map InternalOutput.positionIds) =
      .ok (outputs.map (fun output =>
        computePositionIds worker.processor output.2 (inputRow worker output.2)
          (attentionRow worker output.2))) :=
    cat_field InternalOutput.positionIds filled (fun output member => positions_shape (fits output member))
  have infos : (outputs.map (internalOf worker)).mapM (fun input => rewardExtraInfo input.extraFields) =
      .ok (outputs.map (fun output => infoOf output.2)) := by
    rw [List.mapM_map]
    exact mapM_map _ (fun output member => rewardExtraInfo_internal (fits output member))
  have width : ((outputs.map (fun output => promptRow worker output.2)).headD []).length =
      worker.promptLength := by
    obtain ⟨output, rest, rfl⟩ := exists_cons_of_ne_nil filled
    exact promptRow_length (fits output mem_cons_self)
  have logprobs : (outputs.map (internalOf worker)).map InternalOutput.responseLogprobs =
      outputs.map (fun output => output.2.responseLogprobs.map (logprobsRow worker)) := map_map
  have experts : (outputs.map (internalOf worker)).map InternalOutput.routedExperts =
      outputs.map (fun output => output.2.routedExperts.map (expertsRow worker output.2)) := map_map
  have teacherLogprobs : (outputs.map (internalOf worker)).map InternalOutput.teacherLogprobs =
      outputs.map (fun output => output.2.teacher.map
        (fun teacher => (teacherRows worker output.2 teacher).2)) := map_map
  have teacherIds : (outputs.map (internalOf worker)).map InternalOutput.teacherIds =
      outputs.map (fun output => output.2.teacher.map
        (fun teacher => (teacherRows worker output.2 teacher).1)) := map_map
  rw [postprocess, prompts, responses, masks, attention, inputs, positions, logprobs, experts, teacherLogprobs,
    teacherIds]
  simp only [infos, width, ok_bind]
  rfl


theorem generate_padded (given : Columns K) (fits : ∀ output ∈ outputs, Fits worker output.2)
    (pads : ∀ output ∈ outputs, Padded worker output.2) :
    generate worker given outputs = postprocess worker given (outputs.map (internalOf worker)) := by
  have inputs : outputs.mapM (fun output => agentLoopPostprocess worker output.1 output.2) =
      .ok (outputs.map (internalOf worker)) :=
    mapM_map _ (fun output member => agentLoopPostprocess_ok (fits output member) (pads output member))
  rw [generate, inputs, ok_bind]

theorem padded_of_generate {batch : Batch K} (returned : generate worker given outputs = .ok batch) :
    ∀ output ∈ outputs, Padded worker output.2 := by
  obtain ⟨inputs, all, _⟩ := bind_eq_ok.mp returned
  intro output member
  obtain ⟨input, _, isInput⟩ := forall₂_left (mapM_succeeded all) member
  exact agentLoopPostprocess_padded isInput

theorem rewards_own {first : Dict K} (head : (outputs.map (fun output => infoOf output.2)).head? = some first)
    (agreeing : Agreeing (outputs.map (fun output => infoOf output.2))) : ∀ column ∈ first.map (fun entry => (entry.1,
      valuesOf (outputs.map (fun output => infoOf output.2)) entry.1)), Own worker given outputs column := by
  intro column member
  obtain ⟨entry, inside, rfl⟩ := mem_map.mp member
  obtain ⟨present, _⟩ := agreeing first head entry inside
  rw [valuesOf, map_map]
  apply own_map
  intro i output here
  obtain ⟨value, found⟩ := Option.ne_none_iff_exists'.mp (present _ (mem_map_of_mem here))
  apply Holds.reward
  simp only [Function.comp_apply, found, Option.getD_some]

theorem batchOf_postprocessed (fits : ∀ output ∈ outputs, Fits worker output.2)
    (aligned : ∀ column ∈ given, column.2.length = outputs.length) {logprobs : Option (List (List K))}
    {experts : Option (List Experts)} {teacherLogprobs : Option (List (List (List K)))}
    {teacherIds : Option (List (List (List Nat)))} {scores : Option (List (List K))} {rewards : Columns K}
    (isLogprobs : catOptional length (outputs.map
      (fun output => output.2.responseLogprobs.map (logprobsRow worker))) =
      .ok logprobs)
    (isExperts : catOptional expertsShape (outputs.map
      (fun output => output.2.routedExperts.map (expertsRow worker output.2))) =
      .ok experts)
    (isTeacherLogprobs : catOptional (map length) (outputs.map (fun output =>
      output.2.teacher.map (fun teacher => (teacherRows worker output.2 teacher).2))) = .ok teacherLogprobs)
    (isTeacherIds : catOptional (map length) (outputs.map (fun output =>
      output.2.teacher.map (fun teacher => (teacherRows worker output.2 teacher).1))) = .ok teacherIds)
    (rewarded : (∃ output ∈ outputs, output.2.rewardScore ≠ none) → scores ≠ none)
    (placed : ∀ rows, scores = some rows → List.Forall₂ (Placed worker) outputs rows)
    (own : ∀ column ∈ rewards, Own worker given outputs column) :
    Postprocessed worker given outputs
      (batchOf worker given outputs logprobs experts teacherLogprobs teacherIds scores rewards) where
  prompts := rfl
  responses := rfl
  responseMask := rfl
  inputIds := rfl
  attentionMask := rfl
  positionIds := rfl
  logprobs := fun _ there => (catOptional_rows (isLogprobs.trans (congrArg _ there))).symm
  experts := fun _ there => (catOptional_rows (isExperts.trans (congrArg _ there))).symm
  teacherLogprobs := fun _ there => (catOptional_rows (isTeacherLogprobs.trans (congrArg _ there))).symm
  teacherIds := fun _ there => (catOptional_rows (isTeacherIds.trans (congrArg _ there))).symm
  rewarded := rewarded
  placed := placed
  columns := own_columns aligned own
  kept := fun _ output _ _ read found => info_kept (fits output (mem_of_getElem? read)) read found

theorem rmScores_of_rewarded (filled : outputs ≠ []) (fits : ∀ output ∈ outputs, Fits worker output.2)
    (rewarded : Rewarded outputs) :
    ∃ scores, rmScores worker.promptLength (outputs.map (internalOf worker)) = .ok scores ∧
      ((∃ output ∈ outputs, output.2.rewardScore ≠ none) → scores ≠ none) ∧
      ∀ rows, scores = some rows → List.Forall₂ (Placed worker) outputs rows := by
  cases rewarded with
  | inl without =>
    obtain ⟨first, rest, rfl⟩ := exists_cons_of_ne_nil filled
    refine ⟨none, rmScores_none mem_cons_self (without first mem_cons_self), ?_, ?_⟩
    · rintro ⟨output, member, scored⟩
      exact absurd (without output member) scored
    · intro rows there
      cases there
  | inr scored =>
    obtain ⟨rows, returned, placed⟩ := rmScores_some fits scored
    refine ⟨some rows, returned, fun _ => Option.some_ne_none rows, ?_⟩
    intro others there
    cases there
    exact placed

theorem rewarded_of_placed {scores : Option (List (List K))}
    (returned : rmScores worker.promptLength (outputs.map (internalOf worker)) = .ok scores)
    (rewarded : (∃ output ∈ outputs, output.2.rewardScore ≠ none) → scores ≠ none)
    (placed : ∀ rows, scores = some rows → List.Forall₂ (Placed worker) outputs rows) : Rewarded outputs := by
  by_cases some : ∃ output ∈ outputs, output.2.rewardScore ≠ none
  · right
    obtain ⟨rows, there⟩ := Option.ne_none_iff_exists'.mp (rewarded some)
    intro output member
    have scored : output.2.rewardScore ≠ none := by
      intro missing
      rw [rmScores_none member missing, there] at returned
      cases returned
    refine ⟨scored, ?_⟩
    obtain ⟨row, _, here⟩ := forall₂_left (placed rows there) member
    obtain ⟨score, isScore⟩ := Option.ne_none_iff_exists'.mp scored
    obtain ⟨last, length, _⟩ := here.1 score isScore
    rintro empty
    rw [empty] at length
    cases length
  · left
    intro output member
    by_contra scored
    exact some ⟨output, member, scored⟩

theorem generate_iff (worker : Worker K) (given : Columns K) (outputs : List (PyValue K × AgentLoopOutput K))
    (filled : outputs ≠ []) (fits : ∀ output ∈ outputs, Fits worker output.2)
    (aligned : ∀ column ∈ given, column.2.length = outputs.length) :
    (∃ batch, generate worker given outputs = .ok batch ∧ Postprocessed worker given outputs batch) ↔
      Uniform worker outputs := by
  constructor
  · rintro ⟨batch, returned, right⟩
    have pads := padded_of_generate returned
    rw [generate_padded given fits pads, postprocess_steps given filled fits] at returned
    obtain ⟨logprobs, isLogprobs, returned⟩ := bind_eq_ok.mp returned
    obtain ⟨experts, isExperts, returned⟩ := bind_eq_ok.mp returned
    obtain ⟨teacherLogprobs, isTeacherLogprobs, returned⟩ := bind_eq_ok.mp returned
    obtain ⟨teacherIds, isTeacherIds, returned⟩ := bind_eq_ok.mp returned
    obtain ⟨scores, isScores, returned⟩ := bind_eq_ok.mp returned
    obtain ⟨rewards, isRewards, returned⟩ := bind_eq_ok.mp returned
    cases returned
    exact ⟨pads, (logprobs_complete fits).mp (complete_of_catOptional isLogprobs),
      (experts_complete fits).mp (complete_of_catOptional isExperts),
      (teacherLogprobs_complete fits).mp (complete_of_catOptional isTeacherLogprobs),
      (teacherIds_complete fits).mp (complete_of_catOptional isTeacherIds),
      rewarded_of_placed isScores right.rewarded right.placed, agreeing_of_rewardColumns isRewards⟩
  · intro uniform
    obtain ⟨logprobs, isLogprobs⟩ := catOptional_of_complete ((logprobs_complete fits).mpr uniform.logprobs)
    obtain ⟨experts, isExperts⟩ := catOptional_of_complete ((experts_complete fits).mpr uniform.experts)
    obtain ⟨teacherLogprobs, isTeacherLogprobs⟩ :=
      catOptional_of_complete ((teacherLogprobs_complete fits).mpr uniform.teacherLogprobs)
    obtain ⟨teacherIds, isTeacherIds⟩ := catOptional_of_complete
      ((teacherIds_complete fits).mpr uniform.teacherIds)
    obtain ⟨scores, isScores, rewarded, placed⟩ := rmScores_of_rewarded filled fits uniform.rewarded
    obtain ⟨first, head⟩ : ∃ first, (outputs.map (fun output => infoOf output.2)).head? = some first := by
      obtain ⟨output, rest, rfl⟩ := List.exists_cons_of_ne_nil filled
      exact ⟨_, rfl⟩
    refine ⟨_, ?_, batchOf_postprocessed fits aligned isLogprobs isExperts isTeacherLogprobs isTeacherIds rewarded placed
      (rewards_own head uniform.infos)⟩
    rw [generate_padded given fits uniform.padded, postprocess_steps given filled fits, isLogprobs,
      ok_bind, isExperts,
      ok_bind, isTeacherLogprobs, ok_bind, isTeacherIds, ok_bind, isScores,
        ok_bind,
      rewardColumns_ok head uniform.infos, ok_bind]

/-- A worker whose tokenizer pads without tokens as well. -/
def sampleWorker : Worker Int where
  promptLength := 2
  responseLength := 2
  tokenizer := { padTokenId := 0, pad := fun left maxLength tokens => .ok (padded 0 left maxLength tokens),
                 pads := fun _ _ _ _ _ => rfl, padsEmpty := fun _ _ => Or.inl rfl }
  processor := none
  hasRewardLoopWorkers := true

def sampleOutput (responseIds : List Nat) (info : Dict Int) : PyValue Int × AgentLoopOutput Int :=
  (.list [], {
    promptIds := [7]
    responseIds := responseIds
    responseMask := responseIds.map (fun _ => 1)
    responseLogprobs := some (responseIds.map (fun _ => -1))
    routedExperts := none
    teacher := none
    rewardScore := some 5
    numTurns := 2
    metrics := []
    extraFields := [(rewardInfoKey, .dict info)] })

theorem sampleOutput_fits {responseIds : List Nat} (info : Dict Int) (short : responseIds.length ≤ 2) :
    Fits sampleWorker (sampleOutput responseIds info).2 where
  prompt := one_le_two
  response := short
  mask := length_map _
  logprobs := by
    intro logprobs there
    cases there
    exact (length_map _).trans_le short
  experts := by
    intro experts there
    cases there
  teacher := by
    intro teacher there
    cases there
  info := by
    intro value found
    cases found
    exact ⟨info, rfl⟩

theorem generate_same : ∃ batch,
    generate sampleWorker [] [sampleOutput [8] [("acc", .int 1)], sampleOutput [8, 9] [("acc", .int 0)]] =
      .ok batch ∧
      Postprocessed sampleWorker [] [sampleOutput [8] [("acc", .int 1)], sampleOutput [8, 9]
          [("acc", .int 0)]] batch := by
  have fits : ∀ output ∈ [sampleOutput [8] [("acc", .int 1)], sampleOutput [8, 9] [("acc", .int 0)]],
      Fits sampleWorker output.2 := by
    simp only [List.forall_mem_cons]
    exact ⟨sampleOutput_fits _ one_le_two, sampleOutput_fits _ le_rfl,
      fun _ member => absurd member List.not_mem_nil⟩
  apply (generate_iff sampleWorker [] _ (List.cons_ne_nil _ _) fits
    (fun _ member => absurd member List.not_mem_nil)).mpr
  refine ⟨fun _ _ => ⟨fun _ => ⟨_, rfl⟩, fun _ => ⟨_, rfl⟩⟩, ?_, ?_, ?_, ?_, ?_, ?_⟩
  · intro first _ row member
    cases member with
    | head => exact ⟨_, rfl, rfl⟩
    | tail _ member =>
      cases List.mem_singleton.mp member
      exact ⟨_, rfl, rfl⟩
  · intro first head
    cases head
  · intro first head
    cases head
  · intro first head
    cases head
  · right
    simp only [List.forall_mem_cons]
    exact ⟨⟨Option.some_ne_none _, List.cons_ne_nil _ _⟩, ⟨Option.some_ne_none _, List.cons_ne_nil _ _⟩,
      fun _ member => absurd member List.not_mem_nil⟩
  · intro first head entry member
    cases head
    cases List.mem_singleton.mp member
    constructor
    · simp only [List.map_cons, List.forall_mem_cons]
      exact ⟨Option.some_ne_none _, Option.some_ne_none _, fun _ member => absurd member List.not_mem_nil⟩
    · rfl

theorem generate_mixed :
    (¬ ∃ batch, generate sampleWorker [] [sampleOutput [8] [("acc", .int 1)], sampleOutput [8, 9] []] =
      .ok batch ∧
      Postprocessed sampleWorker [] [sampleOutput [8] [("acc", .int 1)], sampleOutput [8, 9] []] batch) ∧
    ¬ ∃ batch, generate sampleWorker [] [sampleOutput [] []] = .ok batch ∧
      Postprocessed sampleWorker [] [sampleOutput [] []] batch := by
  constructor
  · rintro ⟨batch, returned, _⟩
    have raised : generate sampleWorker [] [sampleOutput [8] [("acc", .int 1)], sampleOutput [8, 9] []] =
        .error (.keyError "acc") := rfl
    rw [raised] at returned
    cases returned
  · rintro ⟨batch, _, right⟩
    have scored : batch.rmScores ≠ none := right.rewarded ⟨_, List.mem_cons_self, Option.some_ne_none _⟩
    obtain ⟨rows, there⟩ := Option.ne_none_iff_exists'.mp scored
    obtain ⟨row, _, placed⟩ := forall₂_left (right.placed rows there) List.mem_cons_self
    obtain ⟨last, length, _⟩ := placed.1 5 rfl
    cases length

end LLMFusion.AgentLoopBatch
