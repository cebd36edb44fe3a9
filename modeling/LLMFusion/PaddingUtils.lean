import LLMFusion.Lib.NdTensor

/-! Synthetic samples that make the size of a batch divisible. The samples are in the transfer queue,
a store of samples by partition and key; a batch holds their keys and tags. -/

namespace LLMFusion.PaddingUtils

inductive Failure where
  | zeroDivision
  | keyError
  | indexError
  deriving DecidableEq, Repr

/-- The key `{uid}_{session_id}_{index}`, which `rsplit("_", 2)` takes apart. -/
structure Key where
  uid : String
  sessionId : Nat
  index : Nat
  deriving DecidableEq, Repr

structure Tag where
  globalSteps : Nat
  status : String
  promptLen : Nat
  responseLen : Nat
  seqLen : Nat
  isPadding : Bool
  deriving DecidableEq, Repr

/-- What is under `routed_experts`. -/
inductive RoutedExperts where
  | tensor (experts : NdTensor Int)
  | other
  deriving DecidableEq, Repr

/-- The fields of a trajectory. -/
structure Sample (K : Type) where
  uid : String
  sessionId : Option Nat
  prompts : List Int
  responses : List Int
  inputIds : List Int
  attentionMask : Option (List Int)
  positionIds : Option (NdTensor Int)
  numTurns : Nat
  responseMask : List Bool
  lossMask : List Bool
  rmScores : Option (List K)
  rolloutLogProbs : Option (List K)
  multiModalInputs : Option (List (String × NdTensor Int))
  routedExperts : Option RoutedExperts
  /-- The most likely tokens of the teacher at every token. -/
  teacherIds : Option (List (List Int))
  teacherLogprobs : Option (List (List K))

structure KVBatchMeta where
  keys : List Key
  tags : List Tag
  partitionId : String
  fields : Option (List String)
  extraInfo : List (String × Int)
  deriving DecidableEq, Repr

abbrev TransferQueue (K : Type) := String → Key → Option (Sample K)

variable {K : Type}

/-! ### The template -/

/-- `torch.cumsum`, from a total. -/
def cumsum (total : Int) : List Int → List Int
  | [] => []
  | value :: rest => (total + value) :: cumsum (total + value) rest

/-- `torch.clip(torch.cumsum(mask) - 1, min=0)` -/
def computePositionIdWithMask (mask : List Int) : List Int :=
  (cumsum 0 mask).map (fun total => if total - 1 < 0 then 0 else total - 1)

theorem cumsum_length (total : Int) (values : List Int) : (cumsum total values).length = values.length := by
  induction values generalizing total with
  | nil => rfl
  | cons value values ih => exact congrArg Nat.succ (ih _)

theorem computePositionIdWithMask_length (mask : List Int) : (computePositionIdWithMask mask).length = mask.length := by
  rw [computePositionIdWithMask, List.length_map, cumsum_length]

theorem repeated_sized {α : Type} (items : List α) (shape : List Nat) :
    (List.replicate shape.prod items).flatten.length = (shape ++ [items.length]).prod := by
  rw [List.length_flatten, List.map_replicate, List.sum_replicate, smul_eq_mul, List.prod_append, List.prod_singleton]

/-- One row for every place of the dimensions in front. -/
def expand {α : Type} (items : List α) (shape : List Nat) : NdTensor α :=
  ⟨shape ++ [items.length], (List.replicate shape.prod items).flatten, repeated_sized items shape⟩

def buildPaddingPositionIds (sourcePositionIds : Option (NdTensor Int)) (attentionMask : List Int) : NdTensor Int :=
  let positionIds := computePositionIdWithMask attentionMask
  match sourcePositionIds with
  | none => expand positionIds []
  | some source => if source.shape.length ≤ 1 then expand positionIds [] else expand positionIds source.shape.dropLast

/-- `torch.zeros` -/
def zeros (shape : List Nat) : NdTensor Int := ⟨shape, List.replicate shape.prod 0, List.length_replicate⟩

def buildPaddingRoutedExperts (sourceRoutedExperts : Option RoutedExperts) (seqLen : Nat) : Option (NdTensor Int) :=
  match sourceRoutedExperts with
  | some (.tensor source) =>
    if source.shape.length = 0 then some (zeros source.shape) else some (zeros (seqLen :: source.shape.drop 1))
  | _ => none

variable [Zero K]

def constructMinimalPaddingTemplate (sourceTd : Sample K) (sourceTag : Tag) (eosTokenId : Int) : Sample K × Tag :=
  let prompts := [eosTokenId]
  let inputIds := prompts ++ prompts
  let attentionMask := List.replicate inputIds.length 1
  let responseMask := List.replicate prompts.length false
  let positionIds := buildPaddingPositionIds sourceTd.positionIds attentionMask
  let routedExperts := buildPaddingRoutedExperts sourceTd.routedExperts inputIds.length
  -- the fields that are not named here are those of the source
  ({ sourceTd with
      prompts := prompts
      responses := prompts
      inputIds := inputIds
      attentionMask := some attentionMask
      positionIds := some positionIds
      numTurns := 0
      responseMask := responseMask
      lossMask := responseMask
      rmScores := some (List.replicate responseMask.length 0)
      rolloutLogProbs := some (List.replicate responseMask.length 0)
      multiModalInputs := sourceTd.multiModalInputs.map (fun _ => [])
      routedExperts := routedExperts.map .tensor },
    { sourceTag with isPadding := true, promptLen := 1, responseLen := 1, seqLen := 2 })

/-! ### The batch -/

/-- `tq.kv_batch_put` -/
def kvBatchPut (tq : TransferQueue K) (partitionId : String) (entries : List (Key × Sample K)) : TransferQueue K :=
  entries.foldl (fun tq entry partition key =>
    if partition = partitionId ∧ key = entry.1 then some entry.2 else tq partition key) tq

/-- The keys of the padding, each of a session of its own. -/
def padKeys (padUid : String) (padSize : Nat) : List Key := (List.range padSize).map (fun localIdx => ⟨padUid, localIdx, 0⟩)

def padFields (templateSample : Sample K) (padSize : Nat) : List (Sample K) :=
  (List.range padSize).map (fun localIdx =>
    { templateSample with sessionId := templateSample.sessionId.map (fun _ => localIdx) })

/-- `hex` is that of `uuid4()`. -/
def upsampleBatchToDivisibleSize (tq : TransferQueue K) (batch : KVBatchMeta) (batchMultiple : Nat) (eosTokenId : Int)
    (hex : String) : Except Failure (KVBatchMeta × TransferQueue K) :=
  if batchMultiple = 0 then .error .zeroDivision
  else
    let remainder := batch.keys.length % batchMultiple
    if remainder = 0 then .ok (batch, tq)
    else
      match batch.keys[0]?, batch.tags[0]? with
      | some sourceKey, some sourceTag =>
        match tq batch.partitionId sourceKey with
        | none => .error .keyError
        | some sourceTd =>
          let (template, templateTag) := constructMinimalPaddingTemplate sourceTd sourceTag eosTokenId
          let padUid := "pad" ++ hex
          let templateSample := { template with uid := padUid }
          let padSize := batchMultiple - remainder
          .ok ({ batch with
              keys := batch.keys ++ padKeys padUid padSize
              tags := batch.tags ++ List.replicate padSize templateTag },
            kvBatchPut tq batch.partitionId ((padKeys padUid padSize).zip (padFields templateSample padSize)))
      | _, _ => .error .indexError

end LLMFusion.PaddingUtils
