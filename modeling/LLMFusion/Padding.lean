import LLMFusion.Lib.Indexing
import LLMFusion.Lib.Masking
import LLMFusion.Lib.Nested

/-! Batches whose prompts are padded on the left and whose responses are padded on the right,
the same batches without padding, and the way back for what a model computes at every token.
Tokens, log-probs and computed values are of any types. -/

namespace LLMFusion.Padding

inductive Failure where
  /-- `... is required in left-right padding data` -/
  | missing (key : String)
  /-- `max()` of a tensor without elements -/
  | emptyMax
  | indexOutOfRange
  | emptyNestedTensor
  | totalMismatch
  /-- `seq_offset - resp_len - 1 assumes prompt_len > 0` -/
  | emptyPrompt (promptLens : List Nat)
  | zipMismatch
  deriving DecidableEq, Repr

/-- A tensor of shape `(batch, width, *)`. -/
abbrev Padded (α : Type) (batch width : Nat) := Vector (Vector α width) batch

variable {α β τ π : Type} {batch width promptWidth responseWidth : Nat}

def rows (tensor : Padded α batch width) : List (List α) := tensor.toList.map Vector.toList

/-- A field that may have been converted before. -/
inductive Field (α : Type) (batch width : Nat) where
  | padded (tensor : Padded α batch width)
  | nested (tensor : Nested α)

/-- `torch.nested.as_nested_tensor` -/
def asNestedTensor (rows : List (List α)) : Except Failure (Nested α) :=
  if rows.isEmpty then .error .emptyNestedTensor else .ok ⟨rows⟩

/-! ### Leaving the padding out -/

/-- What `unpad_input` returns. -/
structure Unpadded (α : Type) where
  hiddenStates : List α
  indices : List Nat
  cuSeqlens : List Nat
  maxSeqlenInBatch : Nat
  seqused : List Nat

def indexFirstAxis (items : List α) (indices : List Nat) : Except Failure (List α) :=
  match Gather.gather items indices with
  | some picked => .ok picked
  | none => .error .indexOutOfRange

def unpadInput (hiddenStates : Padded α batch width) (attentionMask : Padded Bool batch width) :
    Except Failure (Unpadded α) := do
  let seqlensInBatch := (rows attentionMask).map (List.count true)
  let indices := Masking.places (rows attentionMask).flatten
  match seqlensInBatch.max? with
  | none => throw .emptyMax
  | some maxSeqlenInBatch =>
    let picked ← indexFirstAxis (rows hiddenStates).flatten indices
    return ⟨picked, indices, Nested.cumulative seqlensInBatch, maxSeqlenInBatch, seqlensInBatch⟩

/-- `(bs, seq_len)` or `(bs, 4, seq_len)` -/
inductive PositionIds (batch width : Nat) where
  | flat (ids : Padded Int batch width)
  | channels {count : Nat} (ids : Vector (Padded Int count width) batch)

/-- The position ids of the valid tokens. -/
inductive ValidPositions where
  | flat (ids : Nested Int)
  | channels (ids : List (List (List Int)))

structure TensorDict (τ π : Type) (batch promptWidth responseWidth : Nat) where
  inputIds : Option (Padded τ batch (promptWidth + responseWidth))
  attentionMask : Option (Padded Bool batch (promptWidth + responseWidth))
  responseMask : Option (Padded Bool batch responseWidth)
  positionIds : Option (PositionIds batch (promptWidth + responseWidth))
  /-- The experts of every layer that a token was routed to. -/
  routedExperts : Option (Field (List Int) batch (promptWidth + responseWidth)) := none
  teacherLogprobs : Option (Padded (List π) batch (promptWidth + responseWidth)) := none
  teacherIds : Option (Padded (List τ) batch (promptWidth + responseWidth)) := none

structure NoPadding (τ π : Type) (batch promptWidth responseWidth : Nat) where
  inputIds : Nested τ
  positionIds : ValidPositions
  attentionMask : Padded Bool batch (promptWidth + responseWidth)
  responseMask : Padded Bool batch responseWidth
  lossMask : Padded Bool batch responseWidth
  maxSeqLen : Nat
  maxResponseLen : Nat
  indices : List Nat
  routedExperts : Option (Nested (List Int))
  teacherLogprobs : Option (Field (List π) batch (promptWidth + responseWidth))
  teacherIds : Option (Field (List τ) batch (promptWidth + responseWidth))

def required (key : String) : Option α → Except Failure α
  | some field => .ok field
  | none => .error (.missing key)

/-- The tokens of a field at the indices, between the offsets. -/
def pack (tensor : Padded α batch width) (indices cuSeqlens : List Nat) : Except Failure (Nested α) := do
  let picked ← indexFirstAxis (rows tensor).flatten indices
  return Nested.fromJagged picked cuSeqlens

def validPositions (positionIds : PositionIds batch width) (attentionMask : Padded Bool batch width) :
    Except Failure ValidPositions :=
  match positionIds with
  | .flat ids => do
    let ids ← asNestedTensor (List.zipWith Masking.select (rows attentionMask) (rows ids))
    return .flat ids
  | .channels ids =>
    if batch = 0 then .error .emptyNestedTensor
    else .ok (.channels (List.zipWith (fun mask channels => (rows channels).map (Masking.select mask))
      (rows attentionMask) ids.toList))

def toUint8 (expert : Int) : Int := expert % 256

def packExperts (routedExperts : Field (List Int) batch width) (indices cuSeqlens : List Nat) :
    Except Failure (Nested (List Int)) :=
  match routedExperts with
  | .nested tensor => .ok tensor
  | .padded tensor =>
    match (rows tensor).flatten.flatten.max? with
    | none => .error .emptyMax
    | some largest => pack (if largest ≤ 255 then tensor.map (Vector.map (List.map toUint8)) else tensor) indices cuSeqlens

/-- What the teacher says of the tokens is packed when both of its fields are there. -/
def packTeacher (logprobs : Option (Padded (List π) batch width)) (ids : Option (Padded (List τ) batch width))
    (indices cuSeqlens : List Nat) :
    Except Failure (Option (Field (List π) batch width) × Option (Field (List τ) batch width)) :=
  match logprobs, ids with
  | some logprobs, some ids => do
    let logprobs ← pack logprobs indices cuSeqlens
    let ids ← pack ids indices cuSeqlens
    return (some (.nested logprobs), some (.nested ids))
  | logprobs, ids => return (logprobs.map .padded, ids.map .padded)

def leftRight2NoPadding (data : TensorDict τ π batch promptWidth responseWidth) :
    Except Failure (NoPadding τ π batch promptWidth responseWidth) := do
  let inputIds ← required "input_ids" data.inputIds
  let attentionMask ← required "attention_mask" data.attentionMask
  let responseMask ← required "response_mask" data.responseMask
  let positionIds ← required "position_ids" data.positionIds
  let unpadded ← unpadInput inputIds attentionMask
  let positionIds ← validPositions positionIds attentionMask
  let routedExperts ← data.routedExperts.mapM (packExperts · unpadded.indices unpadded.cuSeqlens)
  let teacher ← packTeacher data.teacherLogprobs data.teacherIds unpadded.indices unpadded.cuSeqlens
  return {
    inputIds := Nested.fromJagged unpadded.hiddenStates unpadded.cuSeqlens
    positionIds := positionIds
    attentionMask := attentionMask
    responseMask := responseMask
    lossMask := responseMask
    maxSeqLen := promptWidth + responseWidth
    maxResponseLen := responseWidth
    indices := unpadded.indices
    routedExperts := routedExperts
    teacherLogprobs := teacher.1
    teacherIds := teacher.2 }

/-! ### Back to the responses -/

/-- What a model computes: a nested tensor, or its values. -/
inductive Output (β : Type) where
  | nested (tensor : Nested β)
  | flat (values : List β)

def Output.values : Output β → List β
  | .nested tensor => tensor.values
  | .flat values => values

/-- What is read of `prompts` and `responses`; where they are padded, with the attention mask. -/
inductive Layout (τ : Type) where
  | nested (prompts responses : Nested τ) (aligned : prompts.rows.length = responses.rows.length)
  | padded {batch width : Nat} (promptWidth responseWidth : Nat) (attentionMask : Padded Bool batch width)

structure ResponseData (τ : Type) where
  layout : Layout τ
  maxResponseLen : Option Int

def NoPadding.responseData (data : NoPadding τ π batch promptWidth responseWidth) : ResponseData τ :=
  ⟨.padded promptWidth responseWidth data.attentionMask, some data.maxResponseLen⟩

def Layout.promptLens : Layout τ → List Nat
  | .nested prompts _ _ => prompts.lengths
  | .padded promptWidth _ attentionMask => (rows attentionMask).map (fun mask => (mask.take promptWidth).count true)

def Layout.responseLens : Layout τ → List Nat
  | .nested _ responses _ => responses.lengths
  | .padded promptWidth _ attentionMask => (rows attentionMask).map (fun mask => (mask.drop promptWidth).count true)

/-- The width of the padded responses. -/
def ResponseData.rowLen (data : ResponseData τ) : Except Failure Int :=
  match data.layout with
  | .nested _ responses _ =>
    let maxResponseLen := data.maxResponseLen.getD (-1)
    if maxResponseLen < 0 then
      match responses.lengths.max? with
      | none => .error .emptyMax
      | some longest => .ok longest
    else .ok maxResponseLen
  | .padded _ responseWidth _ => .ok responseWidth

/-- `F.pad` behind the items; a negative size crops them. -/
def padBehind [Zero β] (items : List β) (size : Int) : List β :=
  (items ++ List.replicate size.toNat 0).take (items.length + size).toNat

/-- Left-shift model output by one token for log_probs/values. -/
def shifted (values : List β) (respLen seqOffset : Nat) : List β :=
  Indexing.between values (seqOffset - respLen - 1) (seqOffset - 1)

def noPadding2Padding [Zero β] (tensor : Output β) (data : ResponseData τ) : Except Failure (List (List β)) := do
  let values := tensor.values
  let promptLens := data.layout.promptLens
  let responseLens := data.layout.responseLens
  let maxResponseLen ← data.rowLen
  let sequenceLens := List.zipWith (· + ·) promptLens responseLens
  let sequenceOffsets := (Nested.cumulative sequenceLens).tail
  match sequenceOffsets.getLast? with
  | none => throw .indexOutOfRange
  | some last =>
    if last ≠ values.length then throw .totalMismatch
    if 0 ∈ promptLens then throw (.emptyPrompt promptLens)
    -- There is an offset for each response, and the padded slices are of one length.
    return List.zipWith (fun (respLen seqOffset : Nat) => padBehind (shifted values respLen seqOffset) (maxResponseLen - respLen))
      responseLens sequenceOffsets

def responseFromNested (tensor : Nested β) (responseMask : Nested Bool) : Except Failure (Nested β) := do
  if responseMask.lengths.length ≠ tensor.offsets.tail.length then throw .zipMismatch
  asNestedTensor (List.zipWith (shifted tensor.values) responseMask.lengths tensor.offsets.tail)

def responseToNested (tensor : List (List β)) (responseMask : Nested Bool) : Except Failure (Nested β) := do
  if responseMask.lengths.length < tensor.length then throw .indexOutOfRange
  asNestedTensor (List.zipWith (fun row respLen => row.take respLen) tensor responseMask.lengths)

end LLMFusion.Padding
