import LLMFusion.Proofs.PaddedAdvantages

/-! Training on a batch that synthetic samples make divisible. The samples have a mask without tokens and
a group of their own, so that advantages and losses over tokens are as without them; but they keep
the teacher's fields of the sample they are copied from, and neither the range of the distillation
losses nor the mean of the value loss has a value over no token. -/

namespace LLMFusion.PaddingUtils
open List hiding Vector

variable {K : Type}

/-! ### Samples -/

/-- Every per-token field has an entry for every token, and every field of the response one for every
token of the response. -/
structure Sample.Consistent (sample : Sample K) : Prop where
  inputIds : sample.inputIds = sample.prompts ++ sample.responses
  attentionMask : ∀ mask, sample.attentionMask = some mask → mask.length = sample.inputIds.length
  positionIds : ∀ ids, sample.positionIds = some ids → ids.shape.getLast? = some sample.inputIds.length
  routedExperts : ∀ experts, sample.routedExperts = some (.tensor experts) → experts.shape.head? = some sample.inputIds.length
  teacherIds : ∀ ids, sample.teacherIds = some ids → ids.length = sample.inputIds.length
  teacherLogprobs : ∀ logprobs, sample.teacherLogprobs = some logprobs → logprobs.length = sample.inputIds.length
  responseMask : sample.responseMask.length = sample.responses.length
  lossMask : sample.lossMask.length = sample.responses.length
  rmScores : ∀ scores, sample.rmScores = some scores → scores.length = sample.responses.length
  rolloutLogProbs : ∀ logProbs, sample.rolloutLogProbs = some logProbs → logProbs.length = sample.responses.length

/-- What the teacher says is about two tokens. -/
def TeacherFits (sample : Sample K) : Prop :=
  (∀ ids, sample.teacherIds = some ids → ids.length = 2) ∧ ∀ logprobs, sample.teacherLogprobs = some logprobs → logprobs.length = 2

theorem expand_last {α : Type} (items : List α) (shape : List Nat) : (expand items shape).shape.getLast? = some items.length :=
  getLast?_concat

theorem buildPaddingPositionIds_last (source : Option (NdTensor Int)) (mask : List Int) :
    (buildPaddingPositionIds source mask).shape.getLast? = some mask.length := by
  rw [← computePositionIdWithMask_length mask]
  cases source with
  | none => exact expand_last _ _
  | some source =>
    unfold buildPaddingPositionIds
    dsimp only
    split
    · exact expand_last _ _
    · exact expand_last _ _

theorem buildPaddingRoutedExperts_head {source : Option RoutedExperts} {seqLen : Nat} {experts : NdTensor Int}
    (ranked : ∀ experts, source = some (.tensor experts) → experts.shape ≠ [])
    (built : buildPaddingRoutedExperts source seqLen = some experts) : experts.shape.head? = some seqLen := by
  match source with
  | none => cases built
  | some .other => cases built
  | some (.tensor source) =>
    have filled : ¬ source.shape.length = 0 := fun none => ranked source rfl (eq_nil_of_length_eq_zero none)
    rw [buildPaddingRoutedExperts, if_neg filled] at built
    cases built
    rfl

variable [Zero K]

def paddingOf (source : Sample K) (sourceTag : Tag) (eosTokenId : Int) (padUid : String) (localIdx : Nat) : Sample K :=
  let template := (constructMinimalPaddingTemplate source sourceTag eosTokenId).1
  { template with uid := padUid, sessionId := template.sessionId.map (fun _ => localIdx) }

variable {source : Sample K} {sourceTag : Tag} {eosTokenId : Int} {padUid : String} {localIdx : Nat}

theorem paddingOf_consistent (ranked : ∀ experts, source.routedExperts = some (.tensor experts) → experts.shape ≠ []) :
    (paddingOf source sourceTag eosTokenId padUid localIdx).Consistent ↔ TeacherFits source := by
  constructor
  · exact fun consistent => ⟨consistent.teacherIds, consistent.teacherLogprobs⟩
  · intro fits
    refine ⟨rfl, ?_, ?_, ?_, fits.1, fits.2, rfl, rfl, ?_, ?_⟩
    · intro mask given
      cases given
      rfl
    · intro ids given
      cases given
      exact buildPaddingPositionIds_last _ _
    · intro experts given
      cases built : buildPaddingRoutedExperts source.routedExperts 2 with
      | none =>
        have missing : (buildPaddingRoutedExperts source.routedExperts 2).map RoutedExperts.tensor = some (.tensor experts) := given
        rw [built] at missing
        cases missing
      | some zeros =>
        have present : (buildPaddingRoutedExperts source.routedExperts 2).map RoutedExperts.tensor = some (.tensor experts) := given
        rw [built] at present
        cases present
        exact buildPaddingRoutedExperts_head ranked built
    · intro scores given
      cases given
      rfl
    · intro logProbs given
      cases given
      rfl

/-! ### The transfer queue -/

omit [Zero K] in
theorem kvBatchPut_other {tq : TransferQueue K} {partitionId : String} {entries : List (Key × Sample K)} {key : Key}
    (other : key ∉ entries.map Prod.fst) (partition : String) :
    kvBatchPut tq partitionId entries partition key = tq partition key := by
  unfold kvBatchPut
  induction entries generalizing tq with
  | nil => rfl
  | cons entry entries ih =>
    rw [map_cons, mem_cons, not_or] at other
    rw [foldl_cons, ih other.2, if_neg (fun same => other.1 same.2)]

omit [Zero K] in
theorem kvBatchPut_entry {tq : TransferQueue K} {partitionId : String} {entries : List (Key × Sample K)}
    (apart : (entries.map Prod.fst).Nodup) {entry : Key × Sample K} (member : entry ∈ entries) :
    kvBatchPut tq partitionId entries partitionId entry.1 = some entry.2 := by
  induction entries generalizing tq with
  | nil => cases member
  | cons first entries ih =>
    obtain ⟨different, apart⟩ := nodup_cons.mp apart
    have put : kvBatchPut tq partitionId (first :: entries) = kvBatchPut
        (fun partition key => if partition = partitionId ∧ key = first.1 then some first.2 else tq partition key)
        partitionId entries := rfl
    rw [put]
    cases member with
    | head => rw [kvBatchPut_other different, if_pos ⟨rfl, rfl⟩]
    | tail _ later => exact ih apart later

theorem padKeys_nodup (padUid : String) (padSize : Nat) : (padKeys padUid padSize).Nodup := by
  apply (nodup_range (n := padSize)).map
  intro first second same
  exact (Key.mk.inj same).2.1

/-! ### The batch -/

omit [Zero K] in
/-- A batch of trajectories in the transfer queue; the identifier of the padding is new. -/
structure Upsampling (K : Type) where
  tq : TransferQueue K
  batch : KVBatchMeta
  batchMultiple : Nat
  eosTokenId : Int
  hex : String
  filled : batch.keys ≠ []
  positive : 0 < batchMultiple
  tagged : batch.tags.length = batch.keys.length
  stored : ∀ key ∈ batch.keys, ∃ sample, tq batch.partitionId key = some sample ∧ sample.Consistent ∧ sample.uid = key.uid
  fresh : ∀ key ∈ batch.keys, key.uid ≠ "pad" ++ hex

namespace Upsampling
variable (upsampling : Upsampling K)

omit [Zero K] in
/-- The samples of the batch. -/
def sample (key : Key) : Option (Sample K) := upsampling.tq upsampling.batch.partitionId key

def result : Except Failure (KVBatchMeta × TransferQueue K) :=
  upsampleBatchToDivisibleSize upsampling.tq upsampling.batch upsampling.batchMultiple upsampling.eosTokenId upsampling.hex

omit [Zero K] in
/-- How many samples are missing. -/
def padSize : Nat :=
  if upsampling.batch.keys.length % upsampling.batchMultiple = 0 then 0
  else upsampling.batchMultiple - upsampling.batch.keys.length % upsampling.batchMultiple

omit [Zero K] in
/-- The keys of the padding. -/
def padding : List Key := padKeys ("pad" ++ upsampling.hex) upsampling.padSize

omit [Zero K] in
theorem padding_nodup : upsampling.padding.Nodup := padKeys_nodup _ _

omit [Zero K] in
theorem padding_uid {key : Key} (member : key ∈ upsampling.padding) : key.uid = "pad" ++ upsampling.hex := by
  obtain ⟨localIdx, _, rfl⟩ := mem_map.mp member
  rfl

omit [Zero K] in
theorem padding_new {key : Key} (member : key ∈ upsampling.padding) : key ∉ upsampling.batch.keys :=
  fun real => upsampling.fresh key real (upsampling.padding_uid member)

omit [Zero K] in
theorem padSize_least : upsampling.batchMultiple ∣ upsampling.batch.keys.length + upsampling.padSize ∧
    ∀ length, upsampling.batchMultiple ∣ length → upsampling.batch.keys.length ≤ length →
      upsampling.batch.keys.length + upsampling.padSize ≤ length := by
  have positive := upsampling.positive
  unfold padSize
  generalize upsampling.batch.keys.length = count at *
  generalize upsampling.batchMultiple = multiple at *
  have split := Nat.div_add_mod count multiple
  have below := Nat.mod_lt count positive
  split
  · next whole =>
    rw [Nat.add_zero]
    exact ⟨Nat.dvd_of_mod_eq_zero whole, fun length _ fits => fits⟩
  · next rest =>
    have next : count + (multiple - count % multiple) = multiple * (count / multiple + 1) := by
      rw [Nat.mul_succ]
      omega
    rw [next]
    refine ⟨Nat.dvd_mul_right _ _, ?_⟩
    rintro length ⟨factor, rfl⟩ fits
    apply Nat.mul_le_mul_left
    by_contra small
    have few : factor ≤ count / multiple := by omega
    have most := Nat.mul_le_mul_left multiple few
    omega

/-- The batch after the call, and the transfer queue: it has the samples of before, and those of the padding. -/
theorem result_ok : ∃ source sourceTag tags tq, upsampling.batch.keys.head?.bind upsampling.sample = some source ∧
    upsampling.result = .ok ({ upsampling.batch with keys := upsampling.batch.keys ++ upsampling.padding, tags := tags }, tq) ∧
    (∀ key, key ∉ upsampling.padding → tq upsampling.batch.partitionId key = upsampling.sample key) ∧
    ∀ key ∈ upsampling.padding, tq upsampling.batch.partitionId key =
      some (paddingOf source sourceTag upsampling.eosTokenId ("pad" ++ upsampling.hex) key.sessionId) := by
  obtain ⟨sourceKey, rest, isKeys⟩ := exists_cons_of_ne_nil upsampling.filled
  obtain ⟨sourceTag, later, isTags⟩ : ∃ tag later, upsampling.batch.tags = tag :: later := by
    apply exists_cons_of_length_pos
    rw [upsampling.tagged, isKeys]
    exact Nat.succ_pos _
  obtain ⟨source, found, -, -⟩ := upsampling.stored sourceKey (isKeys ▸ mem_cons_self)
  have head : upsampling.batch.keys.head?.bind upsampling.sample = some source := by
    rw [isKeys]
    exact found
  by_cases whole : upsampling.batch.keys.length % upsampling.batchMultiple = 0
  · have none : upsampling.padding = [] := by
      rw [padding, padSize, if_pos whole]
      rfl
    refine ⟨source, sourceTag, upsampling.batch.tags, upsampling.tq, head, ?_, fun _ _ => rfl, ?_⟩
    · rw [result, upsampleBatchToDivisibleSize, if_neg (Nat.ne_of_gt upsampling.positive), none, append_nil]
      exact if_pos whole
    · rw [none]
      exact fun key member => (not_mem_nil member).elim
  · let samples := (range upsampling.padSize).map
      (paddingOf source sourceTag upsampling.eosTokenId ("pad" ++ upsampling.hex))
    have keys : (upsampling.padding.zip samples).map Prod.fst = upsampling.padding :=
      map_fst_zip (by simp [samples, padding, padKeys])
    have size : upsampling.batchMultiple - upsampling.batch.keys.length % upsampling.batchMultiple = upsampling.padSize := by
      rw [padSize, if_neg whole]
    refine ⟨source, sourceTag, upsampling.batch.tags ++ replicate upsampling.padSize
      (constructMinimalPaddingTemplate source sourceTag upsampling.eosTokenId).2,
      kvBatchPut upsampling.tq upsampling.batch.partitionId (upsampling.padding.zip samples), head, ?_, ?_, ?_⟩
    · have firstKey : upsampling.batch.keys[0]? = some sourceKey := by rw [isKeys]; rfl
      have firstTag : upsampling.batch.tags[0]? = some sourceTag := by rw [isTags]; rfl
      rw [result, upsampleBatchToDivisibleSize, if_neg (Nat.ne_of_gt upsampling.positive)]
      dsimp only
      rw [if_neg whole, firstKey, firstTag]
      dsimp only
      rw [found, size]
      rfl
    · intro key other
      exact kvBatchPut_other (by rwa [keys]) _
    · intro key member
      obtain ⟨localIdx, inside, rfl⟩ := mem_map.mp member
      have entry : ((⟨"pad" ++ upsampling.hex, localIdx, 0⟩ : Key), paddingOf source sourceTag upsampling.eosTokenId
          ("pad" ++ upsampling.hex) localIdx) ∈ upsampling.padding.zip samples := by
        rw [padding, padKeys, zip_map', mem_map]
        exact ⟨localIdx, inside, rfl⟩
      exact kvBatchPut_entry (by rw [keys]; exact upsampling.padding_nodup) entry

end Upsampling

end LLMFusion.PaddingUtils

namespace LLMFusion.SyncTrainer
open List hiding Vector
open CoreAlgos Losses Distillation PaddingUtils

/-- A trainer whose losses are means over tokens. -/
structure Training (K : Type) [Field K] [LinearOrder K] extends Trainer K where
  alone : ∀ width, (choices width).Local
  mean : TokenMean config
  accepted : Accepted config
  criticMean : ∀ config, critic = some config → config.lossAggMode = "token-mean"

/-- The micro-batches of some mini-batches of rows with and without padding. -/
structure MiniBatches {K : Type} (upsampling : Upsampling K) where
  miniBatches : List (List (List Key))
  rows : ∀ miniBatch ∈ miniBatches, ∀ microBatch ∈ miniBatch, ∀ key ∈ microBatch,
    key ∈ upsampling.batch.keys ∨ key ∈ upsampling.padding

section Statement
variable {K : Type} [Field K] [LinearOrder K] (upsampling : Upsampling K)

/-- The keys of the trajectories. -/
def realKeys (keys : List Key) : List Key := keys.filter (fun key => decide (key ∈ upsampling.batch.keys))

/-- A micro-batch that holds only padding rows. -/
def OnlyPadding (microBatch : List Key) : Prop := microBatch ≠ [] ∧ ∀ key ∈ microBatch, key ∉ upsampling.batch.keys

/-- Training on the batch after the call is training on the batch before it. -/
structure NoOp (training : Training K) (division : MiniBatches upsampling) (batch : KVBatchMeta) (tq : TransferQueue K) : Prop where
  least : upsampling.batchMultiple ∣ batch.keys.length ∧ upsampling.batch.keys.length ≤ batch.keys.length ∧
    ∀ length, upsampling.batchMultiple ∣ length → upsampling.batch.keys.length ≤ length → batch.keys.length ≤ length
  keys : upsampling.batch.keys <+: batch.keys
  kept : ∀ key ∈ upsampling.batch.keys, tq upsampling.batch.partitionId key = upsampling.sample key
  rows : ∀ key ∈ batch.keys, key ∉ upsampling.batch.keys →
    ∃ sample, tq upsampling.batch.partitionId key = some sample ∧ sample.Consistent ∧ sample.responses.length = 1
  advantages : ∀ outputs estimator,
    (advantages training.toTrainer tq upsampling.batch.partitionId outputs estimator batch.keys).map
        (firstRows upsampling.batch.keys.length) =
      advantages training.toTrainer upsampling.tq upsampling.batch.partitionId outputs estimator upsampling.batch.keys
  losses : ∀ outputs state, ∀ miniBatch ∈ division.miniBatches, ∀ microBatch ∈ miniBatch,
    (∃ key ∈ microBatch, key ∈ upsampling.batch.keys) →
      actorLoss training.toTrainer tq upsampling.batch.partitionId outputs state miniBatch.flatten microBatch =
        actorLoss training.toTrainer upsampling.tq upsampling.batch.partitionId outputs state
          (realKeys upsampling miniBatch.flatten) (realKeys upsampling microBatch) ∧
      ∀ config, training.critic = some config → ∀ data data',
        criticLoss config tq upsampling.batch.partitionId outputs data microBatch =
          criticLoss config upsampling.tq upsampling.batch.partitionId outputs data' (realKeys upsampling microBatch)
  defined : ∀ outputs state, ∀ miniBatch ∈ division.miniBatches, ∀ microBatch ∈ miniBatch, OnlyPadding upsampling microBatch →
    (∃ loss, actorLoss training.toTrainer tq upsampling.batch.partitionId outputs state miniBatch.flatten microBatch =
      .ok (some loss)) ∧
    ∀ config, training.critic = some config → ∀ data,
      ∃ loss, criticLoss config tq upsampling.batch.partitionId outputs data microBatch = .ok (some loss)

/-- The sample that is copied fits its two tokens, and where a micro-batch holds only padding rows, no
teacher and no critic is trained with, and the rest of the mini-batch has a token. -/
def Neutral (training : Training K) (division : MiniBatches upsampling) : Prop :=
  (upsampling.batchMultiple ∣ upsampling.batch.keys.length ∨
    ∀ source, upsampling.batch.keys.head?.bind upsampling.sample = some source → TeacherFits source) ∧
  ∀ miniBatch ∈ division.miniBatches, ∀ microBatch ∈ miniBatch, OnlyPadding upsampling microBatch →
    training.distillation = none ∧ training.critic = none ∧
      0 < numTokens upsampling.tq upsampling.batch.partitionId (realKeys upsampling miniBatch.flatten)

end Statement

section Loss
variable {K : Type} [Field K] [LinearOrder K] (training : Training K)

theorem actorLossOf_live (state : State K) (data : BatchData) (rows : List (Vector (DistillationToken K) training.width)) :
    actorLossOf training.toTrainer state data rows =
      actorLossOf training.toTrainer state data (rows.filter (live (fun token => token.valid))) := by
  have policy : (rows.filter (live (fun token => token.valid))).map (Vector.map DistillationToken.toPpoToken) =
      (rows.map (Vector.map DistillationToken.toPpoToken)).filter (live (fun token => token.valid)) := by
    rw [filter_map]
    congr 2
    funext row
    exact (live_map DistillationToken.toPpoToken (fun token => token.valid) row).symm
  unfold actorLossOf
  cases training.distillation with
  | none =>
    dsimp only
    rw [ppoLoss_live training.f (training.alone _) training.mean, policy]
  | some lossConfig =>
    dsimp only
    rw [distillationPpoLoss_live training.f training.alone training.mean]

theorem actorLossOf_none (state : State K) (data : BatchData) {tokens : Nat} (counted : data.batchNumTokens = some tokens) :
    (∃ loss, actorLossOf training.toTrainer state data [] = .ok (some loss)) ↔
      training.distillation = none ∧ (tokens : K) ≠ 0 := by
  unfold actorLossOf
  cases training.distillation with
  | none =>
    rw [eq_self, true_and]
    exact ppoLoss_none training.f _ training.mean training.accepted _ _ _ counted
  | some lossConfig =>
    dsimp only
    rw [distillationPpoLoss_none training.f _ _ lossConfig state rfl]
    simp

end Loss

/-! ### The rows after the call -/

theorem live_masked {α β : Type} {width : Nat} {valid : β → Bool} {f : Nat → α → β}
    (masked : ∀ place item, valid (f place item) = false) (row : Vector α width) : live valid (row.mapIdx f) = false := by
  rw [live, any_eq_false]
  intro item member
  obtain ⟨place, inside, rfl⟩ := getElem_of_mem member
  simp [masked]

section Rows
variable {K : Type} [Field K] [LinearOrder K] {upsampling : Upsampling K} {source : Sample K} {sourceTag : Tag}
  {tq : TransferQueue K}

section Masked
variable {width : Nat} {sample : Option (Sample K)} (masked : ∀ place, maskAt sample place = false)
include masked

omit [Field K] [LinearOrder K] in
theorem actorRow_masked (tokens : Vector (DistillationToken K) width) :
    live (fun token => token.valid) (actorRow tokens sample) = false := by
  apply live_masked
  intro place token
  exact masked place

omit [Field K] [LinearOrder K] in
theorem criticRow_masked (tokens : Vector (ValueToken K) width) : live ValueToken.valid (criticRow tokens sample) = false := by
  apply live_masked
  intro place token
  exact masked place

omit [LinearOrder K] in
theorem valuedRow_masked (values : Vector K width) : live (fun token => token.valid) (valuedRow values sample) = false := by
  apply live_masked
  intro place value
  exact masked place

end Masked

omit [LinearOrder K] in
theorem maskAt_padding (source : Sample K) (sourceTag : Tag) (eosTokenId : Int) (padUid : String) (localIdx place : Nat) :
    maskAt (some (paddingOf source sourceTag eosTokenId padUid localIdx)) place = false := by
  cases place with
  | zero => rfl
  | succ place => rfl

structure Padded (upsampling : Upsampling K) (source : Sample K) (sourceTag : Tag) (tq : TransferQueue K) : Prop where
  kept : ∀ key, key ∉ upsampling.padding → tq upsampling.batch.partitionId key = upsampling.sample key
  pads : ∀ key ∈ upsampling.padding, tq upsampling.batch.partitionId key =
    some (paddingOf source sourceTag upsampling.eosTokenId ("pad" ++ upsampling.hex) key.sessionId)

namespace Padded
variable (padded : Padded upsampling source sourceTag tq)
include padded

omit [LinearOrder K] in
theorem real {key : Key} (member : key ∈ upsampling.batch.keys) :
    tq upsampling.batch.partitionId key = upsampling.tq upsampling.batch.partitionId key :=
  padded.kept key (fun pad => upsampling.padding_new pad member)

omit [LinearOrder K] in
theorem masked {key : Key} (member : key ∈ upsampling.padding) (place : Nat) :
    maskAt (tq upsampling.batch.partitionId key) place = false := by
  rw [padded.pads key member]
  exact maskAt_padding _ _ _ _ _ _

omit [LinearOrder K] in
theorem numTokens_real {keys : List Key} (rows : ∀ key ∈ keys, key ∈ upsampling.batch.keys ∨ key ∈ upsampling.padding) :
    numTokens tq upsampling.batch.partitionId keys =
      numTokens upsampling.tq upsampling.batch.partitionId (realKeys upsampling keys) := by
  have none : ∀ key ∈ keys, decide (key ∈ upsampling.batch.keys) = false →
      (tq upsampling.batch.partitionId key).elim 0 (fun sample => sample.lossMask.count true) = 0 := by
    intro key member other
    have pad := (rows key member).resolve_left (of_decide_eq_false other)
    rw [padded.pads key pad]
    rfl
  unfold numTokens realKeys
  rw [← sum_kept _ none]
  refine congrArg sum (map_congr_left ?_)
  intro key member
  rw [padded.real (of_decide_eq_true (mem_filter.mp member).2)]

omit [LinearOrder K] in
theorem live_real {α : Type} {width : Nat} (valid : α → Bool) (mask : Vector α width → Option (Sample K) → Vector α width)
    (dead : ∀ row sample, (∀ place, maskAt sample place = false) → live valid (mask row sample) = false)
    (outputs : Key → Vector α width) {keys : List Key}
    (rows : ∀ key ∈ keys, key ∈ upsampling.batch.keys ∨ key ∈ upsampling.padding) :
    (keys.map (fun key => mask (outputs key) (tq upsampling.batch.partitionId key))).filter (live valid) =
      ((realKeys upsampling keys).map (fun key =>
        mask (outputs key) (upsampling.tq upsampling.batch.partitionId key))).filter (live valid) := by
  apply filter_live
  · intro key member other
    have pad := (rows key member).resolve_left (of_decide_eq_false other)
    exact dead _ _ (padded.masked pad)
  · intro key _ real
    rw [padded.real (of_decide_eq_true real)]

theorem actorLoss_real (training : Training K) (outputs : Outputs K training.width) (state : State K)
    {miniBatch microBatch : List Key} (rows : ∀ key ∈ miniBatch, key ∈ upsampling.batch.keys ∨ key ∈ upsampling.padding)
    (inside : ∀ key ∈ microBatch, key ∈ upsampling.batch.keys ∨ key ∈ upsampling.padding) :
    actorLoss training.toTrainer tq upsampling.batch.partitionId outputs state miniBatch microBatch =
      actorLoss training.toTrainer upsampling.tq upsampling.batch.partitionId outputs state (realKeys upsampling miniBatch)
        (realKeys upsampling microBatch) := by
  have live := padded.live_real (fun token => token.valid) actorRow
    (fun row sample masked => actorRow_masked masked row) outputs.actor inside
  unfold actorLoss batchData
  rw [padded.numTokens_real rows, actorLossOf_live, live, ← actorLossOf_live]

theorem criticLoss_real {width : Nat} {config : CriticConfig K} (mean : config.lossAggMode = "token-mean")
    (outputs : Outputs K width) (data data' : BatchData) {microBatch : List Key}
    (inside : ∀ key ∈ microBatch, key ∈ upsampling.batch.keys ∨ key ∈ upsampling.padding) :
    criticLoss config tq upsampling.batch.partitionId outputs data microBatch =
      criticLoss config upsampling.tq upsampling.batch.partitionId outputs data' (realKeys upsampling microBatch) := by
  have live := padded.live_real ValueToken.valid criticRow
    (fun row sample masked => criticRow_masked masked row) outputs.critic inside
  unfold criticLoss
  rw [valueLoss_live mean, live, ← valueLoss_live mean]
  rfl

theorem advantages_real (trainer : Trainer K) (outputs : Outputs K trainer.width) (estimator : Estimator) :
    (advantages trainer tq upsampling.batch.partitionId outputs estimator (upsampling.batch.keys ++ upsampling.padding)).map
        (firstRows upsampling.batch.keys.length) =
      advantages trainer upsampling.tq upsampling.batch.partitionId outputs estimator upsampling.batch.keys := by
  let row (tq : TransferQueue K) (key : Key) : Trajectory K trainer.width :=
    ⟨(tq upsampling.batch.partitionId key).map Sample.uid, valuedRow (outputs.values key) (tq upsampling.batch.partitionId key)⟩
  have same : upsampling.batch.keys.map (row tq) = upsampling.batch.keys.map (row upsampling.tq) := by
    apply map_congr_left
    intro key member
    simp only [row, padded.real member]
  have uid (key : Key) (member : key ∈ upsampling.padding) : (row tq key).uid = some ("pad" ++ upsampling.hex) := by
    simp only [row, padded.pads key member]
    rfl
  unfold advantages
  rw [map_append, same]
  apply advantages_append
  · exact length_map _
  · exact length_map _
  · exact upsampling.filled
  · apply upsampling.padding_nodup.map_on
    intro first member second member' equal
    obtain ⟨localIdx, _, rfl⟩ := mem_map.mp member
    obtain ⟨localIdx', _, rfl⟩ := mem_map.mp member'
    exact congrArg (fun localIdx : Nat => (⟨"pad" ++ upsampling.hex, localIdx, 0⟩ : Key)) (Prod.mk.inj equal).2
  · intro key member found
    obtain ⟨real, inside, equal⟩ := mem_map.mp found
    exact upsampling.fresh real inside ((Prod.mk.inj equal).1.trans (upsampling.padding_uid member))
  · intro trajectory member found
    obtain ⟨key, inside, rfl⟩ := mem_map.mp member
    obtain ⟨pad, padMember, equal⟩ := mem_map.mp found
    obtain ⟨key', inside', rfl⟩ := mem_map.mp padMember
    obtain ⟨sample, stored, -, named⟩ := upsampling.stored key inside
    have real : (row upsampling.tq key).uid = some key.uid := by
      simp only [row, stored, Option.map_some, named]
    rw [uid key' inside'] at equal
    exact upsampling.fresh key inside (Option.some.inj (real.symm.trans equal.symm))
  · intro trajectory member
    obtain ⟨key, inside, rfl⟩ := mem_map.mp member
    exact valuedRow_masked (padded.masked inside) (outputs.values key)

omit [LinearOrder K] in
/-- The samples of the padding are consistent when there are none, or when the one that is copied fits. -/
theorem rows_iff (head : upsampling.batch.keys.head?.bind upsampling.sample = some source) :
    (∀ key ∈ upsampling.batch.keys ++ upsampling.padding, key ∉ upsampling.batch.keys →
      ∃ sample, tq upsampling.batch.partitionId key = some sample ∧ sample.Consistent ∧ sample.responses.length = 1) ↔
    upsampling.batchMultiple ∣ upsampling.batch.keys.length ∨
      ∀ source, upsampling.batch.keys.head?.bind upsampling.sample = some source → TeacherFits source := by
  have ranked : ∀ experts, source.routedExperts = some (.tensor experts) → experts.shape ≠ [] := by
    obtain ⟨key, found, sampled⟩ := Option.bind_eq_some_iff.mp head
    obtain ⟨sample, stored, consistent, -⟩ := upsampling.stored key (mem_of_mem_head? found)
    have same : sample = source := Option.some.inj (stored.symm.trans sampled)
    intro experts given none
    have first := consistent.routedExperts experts (same ▸ given)
    rw [none] at first
    cases first
  constructor
  · intro rows
    by_cases whole : upsampling.batchMultiple ∣ upsampling.batch.keys.length
    · exact Or.inl whole
    · right
      intro other found
      have remaining : ¬ upsampling.batch.keys.length % upsampling.batchMultiple = 0 :=
        fun none => whole (Nat.dvd_of_mod_eq_zero none)
      have below := Nat.mod_lt upsampling.batch.keys.length upsampling.positive
      have some : 0 < upsampling.padSize := by
        rw [Upsampling.padSize, if_neg remaining]
        omega
      have member : (⟨"pad" ++ upsampling.hex, 0, 0⟩ : Key) ∈ upsampling.padding :=
        mem_map.mpr ⟨0, mem_range.mpr some, rfl⟩
      obtain ⟨sample, stored, consistent, -⟩ := rows _ (mem_append_right _ member) (upsampling.padding_new member)
      have same := Option.some.inj (stored.symm.trans (padded.pads _ member))
      rw [head] at found
      rw [← Option.some.inj found]
      exact (paddingOf_consistent ranked).mp (same ▸ consistent)
  · intro fits key member other
    have pad := (mem_append.mp member).resolve_left other
    refine ⟨_, padded.pads key pad, (paddingOf_consistent ranked).mpr ?_, rfl⟩
    cases fits with
    | inl whole =>
      have none : upsampling.padding = [] := by
        rw [Upsampling.padding, Upsampling.padSize, if_pos (Nat.mod_eq_zero_of_dvd whole)]
        rfl
      rw [none] at pad
      cases pad
    | inr fits => exact fits source head

end Padded

def noOutputs (width : Nat) : Outputs K width where
  values := fun _ => Vector.replicate width 0
  actor := fun _ => Vector.replicate width
    { oldLogProb := 0, logProb := 0, advantage := 0, rolloutIsWeight := 0, valid := false, entropy := 0, refLogProb := 0,
      teacherLogProb := 0, topkLoss := 0 }
  critic := fun _ => Vector.replicate width ⟨0, 0, 0, false⟩

variable [IsStrictOrderedRing K] (padded : Padded upsampling source sourceTag tq) (training : Training K)
include padded

omit [Field K] [LinearOrder K] [IsStrictOrderedRing K] padded in
theorem realKeys_none {microBatch : List Key} (only : ∀ key ∈ microBatch, key ∉ upsampling.batch.keys) :
    realKeys upsampling microBatch = [] := by
  apply filter_eq_nil_iff.mpr
  intro key member
  simpa using only key member

theorem actorLoss_padding (outputs : Outputs K training.width) (state : State K) {miniBatch microBatch : List Key}
    (rows : ∀ key ∈ miniBatch, key ∈ upsampling.batch.keys ∨ key ∈ upsampling.padding)
    (inside : ∀ key ∈ microBatch, key ∈ upsampling.batch.keys ∨ key ∈ upsampling.padding)
    (only : ∀ key ∈ microBatch, key ∉ upsampling.batch.keys) :
    (∃ loss, actorLoss training.toTrainer tq upsampling.batch.partitionId outputs state miniBatch microBatch = .ok (some loss)) ↔
      training.distillation = none ∧
        0 < numTokens upsampling.tq upsampling.batch.partitionId (realKeys upsampling miniBatch) := by
  have positive (tokens : Nat) : 0 < tokens ↔ (tokens : K) ≠ 0 := by
    rw [Nat.pos_iff_ne_zero, ne_eq, ne_eq, Nat.cast_eq_zero]
  rw [padded.actorLoss_real training outputs state rows inside, realKeys_none only, positive]
  exact actorLossOf_none training state _ rfl

omit [IsStrictOrderedRing K] in
theorem criticLoss_padding {width : Nat} {config : CriticConfig K} (mean : config.lossAggMode = "token-mean")
    (outputs : Outputs K width) (data : BatchData) {microBatch : List Key}
    (inside : ∀ key ∈ microBatch, key ∈ upsampling.batch.keys ∨ key ∈ upsampling.padding)
    (only : ∀ key ∈ microBatch, key ∉ upsampling.batch.keys) :
    criticLoss config tq upsampling.batch.partitionId outputs data microBatch = .ok none := by
  rw [padded.criticLoss_real mean outputs data data inside, realKeys_none only]
  exact valueLoss_none mean () data

theorem noOp_of {division : MiniBatches upsampling} (head : upsampling.batch.keys.head?.bind upsampling.sample = some source)
    (tags : List Tag) :
    NoOp upsampling training division { upsampling.batch with keys := upsampling.batch.keys ++ upsampling.padding, tags := tags } tq ↔
      Neutral upsampling training division := by
  have rowsOf {miniBatch : List (List Key)} (member : miniBatch ∈ division.miniBatches) :
      ∀ key ∈ miniBatch.flatten, key ∈ upsampling.batch.keys ∨ key ∈ upsampling.padding := by
    intro key inside
    obtain ⟨microBatch, inMini, inMicro⟩ := mem_flatten.mp inside
    exact division.rows miniBatch member microBatch inMini key inMicro
  constructor
  · intro noOp
    refine ⟨(padded.rows_iff head).mp noOp.rows, ?_⟩
    intro miniBatch member microBatch inside only
    have rows := division.rows miniBatch member microBatch inside
    obtain ⟨actor, critic⟩ := noOp.defined (noOutputs training.width) ⟨.empty, .empty⟩ miniBatch member microBatch inside only
    obtain ⟨untaught, counted⟩ := (actorLoss_padding padded training _ _ (rowsOf member) rows only.2).mp actor
    refine ⟨untaught, ?_, counted⟩
    cases isCritic : training.critic with
    | none => rfl
    | some config =>
      obtain ⟨loss, defined⟩ := critic config isCritic ⟨1, none, none⟩
      rw [criticLoss_padding padded (training.criticMean config isCritic) _ _ rows only.2] at defined
      cases defined
  · intro neutral
    have length : (upsampling.batch.keys ++ upsampling.padding).length = upsampling.batch.keys.length + upsampling.padSize := by
      rw [length_append, Upsampling.padding, padKeys, length_map, length_range]
    exact {
      least := by
        dsimp only
        rw [length]
        exact ⟨upsampling.padSize_least.1, Nat.le_add_right _ _, upsampling.padSize_least.2⟩
      keys := prefix_append _ _
      kept := fun key member => padded.real member
      rows := (padded.rows_iff head).mpr neutral.1
      advantages := fun outputs estimator => padded.advantages_real training.toTrainer outputs estimator
      losses := by
        intro outputs state miniBatch member microBatch inside _
        have rows := division.rows miniBatch member microBatch inside
        refine ⟨padded.actorLoss_real training outputs state (rowsOf member) rows, ?_⟩
        intro config isCritic data data'
        exact padded.criticLoss_real (training.criticMean config isCritic) outputs data data' rows
      defined := by
        intro outputs state miniBatch member microBatch inside only
        have rows := division.rows miniBatch member microBatch inside
        obtain ⟨untaught, uncritical, counted⟩ := neutral.2 miniBatch member microBatch inside only
        refine ⟨(actorLoss_padding padded training outputs state (rowsOf member) rows only.2).mpr ⟨untaught, counted⟩, ?_⟩
        intro config isCritic
        rw [uncritical] at isCritic
        cases isCritic }

end Rows

/-- Upsampling is a no-op for training exactly when the sample that is copied fits the padding, and no
loss of a teacher or a critic and no mini-batch without tokens meets padding alone. -/
theorem noOp_iff {K : Type} [Field K] [LinearOrder K] [IsStrictOrderedRing K] (upsampling : Upsampling K) (training : Training K)
    (division : MiniBatches upsampling) :
    (∃ batch tq, upsampling.result = .ok (batch, tq) ∧ NoOp upsampling training division batch tq) ↔
      Neutral upsampling training division := by
  obtain ⟨source, sourceTag, tags, tq, head, returned, kept, pads⟩ := upsampling.result_ok
  have padded : Padded upsampling source sourceTag tq := ⟨kept, pads⟩
  rw [← noOp_of padded training head tags]
  constructor
  · rintro ⟨batch, tq', returned', noOp⟩
    cases returned.symm.trans returned'
    exact noOp
  · exact fun noOp => ⟨_, _, returned, noOp⟩

/-! ### One trajectory of three tokens -/

def theKey : Key := ⟨"a", 0, 0⟩

/-- With or without what a teacher says of its tokens. -/
def trajectory (teacherIds : Option (List (List Int))) : Sample ℚ where
  uid := "a"
  sessionId := some 0
  prompts := [5, 6]
  responses := [7]
  inputIds := [5, 6, 7]
  attentionMask := none
  positionIds := none
  numTurns := 2
  responseMask := [true]
  lossMask := [true]
  rmScores := some [1]
  rolloutLogProbs := none
  multiModalInputs := none
  routedExperts := none
  teacherIds := teacherIds
  teacherLogprobs := none

theorem trajectory_consistent {teacherIds : Option (List (List Int))} (aligned : ∀ ids, teacherIds = some ids → ids.length = 3) :
    (trajectory teacherIds).Consistent where
  inputIds := rfl
  attentionMask := by intro mask given; cases given
  positionIds := by intro ids given; cases given
  routedExperts := by intro experts given; cases given
  teacherIds := aligned
  teacherLogprobs := by intro logprobs given; cases given
  responseMask := rfl
  lossMask := rfl
  rmScores := by intro scores given; cases given; rfl
  rolloutLogProbs := by intro logProbs given; cases given

def trajectoryBatch : KVBatchMeta := ⟨[theKey], [⟨1, "success", 2, 1, 3, false⟩], "train", none, []⟩

theorem trajectory_stored {sample : Sample ℚ} (consistent : sample.Consistent) (named : sample.uid = "a") :
    ∀ key ∈ trajectoryBatch.keys, ∃ stored, (some sample : Option (Sample ℚ)) = some stored ∧ stored.Consistent ∧ stored.uid = key.uid := by
  intro key member
  cases mem_singleton.mp member
  exact ⟨sample, rfl, consistent, named⟩

theorem trajectory_fresh : ∀ key ∈ trajectoryBatch.keys, key.uid ≠ "pad" ++ "0" := by
  intro key member
  cases mem_singleton.mp member
  decide

def alone (teacherIds : Option (List (List Int))) (aligned : ∀ ids, teacherIds = some ids → ids.length = 3) : Upsampling ℚ where
  tq := fun _ _ => some (trajectory teacherIds)
  batch := trajectoryBatch
  batchMultiple := 2
  eosTokenId := 0
  hex := "0"
  filled := List.cons_ne_nil _ _
  positive := Nat.two_pos
  tagged := rfl
  stored := trajectory_stored (trajectory_consistent aligned) rfl
  fresh := trajectory_fresh

theorem nothing_aligned : ∀ ids, (none : Option (List (List Int))) = some ids → ids.length = 3 := by
  intro ids given
  cases given

theorem three_aligned : ∀ ids, some [[5], [6], [7]] = some (ids : List (List Int)) → ids.length = 3 := by
  intro ids given
  cases given
  rfl

def untaught : Upsampling ℚ := alone none nothing_aligned

def taught : Upsampling ℚ := alone (some [[5], [6], [7]]) three_aligned

/-- Nothing is chosen. -/
def noneChosen (width : Nat) : BatchChoices ℚ width := ⟨fun _ _ _ => false, fun _ _ _ => false, fun _ _ _ => (none, false)⟩

theorem unmoved_constant {γ : Type} {width : Nat} (value : γ) :
    Unmoved (fun (_ : List (Vector (PolicyToken ℚ) width)) (_ _ : Nat) => value) := by
  intro batch
  have all (batch : List (Vector (PolicyToken ℚ) width)) :
      decided (fun _ _ _ => value) batch = batch.map (Vector.map (fun token => (token, value))) := by
    rw [decided]
    apply ext_getElem?
    intro index
    rw [List.getElem?_mapIdx, List.getElem?_map]
    congr 1
    funext row
    apply Vector.ext
    intro place inside
    simp
  rw [all, all, filter_map]
  congr 2
  funext row
  exact live_map _ _ row

theorem noneChosen_local (width : Nat) : (noneChosen width).Local where
  topKIdx := unmoved_constant false
  largeCovIdxs := unmoved_constant false
  rolloutCorrection := unmoved_constant (none, false)
  masks := by
    intro batch row member entry inside chosen
    obtain ⟨index, _, rfl⟩ := mem_mapIdx.mp member
    obtain ⟨place, _, rfl⟩ := getElem_of_mem inside
    simp [noneChosen] at chosen

theorem actor_mean : TokenMean Distillation.actor where
  mode := rfl
  tokens := by decide

theorem actor_accepted : Accepted Distillation.actor := by
  intro _
  rw [Distillation.actor]
  norm_num

def plainTrainer : Trainer ℚ where
  f := atOne
  sqrt := id
  rsqrt := id
  width := 1
  gamma := 1
  lam := 1
  normAdvByStdInGrpo := false
  dpSize := 2
  globalBatchSize := some 2
  choices := noneChosen
  config := Distillation.actor
  fields := ⟨false, false⟩
  distillation := none
  critic := none

def plainTraining : Training ℚ where
  toTrainer := plainTrainer
  alone := noneChosen_local
  mean := actor_mean
  accepted := actor_accepted
  criticMean := by intro config isCritic; cases isCritic

def padKey : Key := ⟨"pad0", 0, 0⟩

theorem each_rows (upsampling : Upsampling ℚ) (real : theKey ∈ upsampling.batch.keys) (pad : padKey ∈ upsampling.padding) :
    ∀ miniBatch ∈ [[[theKey], [padKey]]], ∀ microBatch ∈ miniBatch, ∀ key ∈ microBatch,
      key ∈ upsampling.batch.keys ∨ key ∈ upsampling.padding := by
  intro miniBatch member microBatch inside key inMicro
  cases mem_singleton.mp member
  simp only [mem_cons, not_mem_nil, or_false] at inside
  cases inside with
  | inl first =>
    cases first
    cases mem_singleton.mp inMicro
    exact Or.inl real
  | inr second =>
    cases second
    cases mem_singleton.mp inMicro
    exact Or.inr pad

theorem untaught_pad : padKey ∈ untaught.padding := by decide

/-- The trajectory and the padding in a micro-batch each. -/
def each : MiniBatches untaught := ⟨[[[theKey], [padKey]]], each_rows untaught List.mem_cons_self untaught_pad⟩

theorem untaught_neutral : Neutral untaught plainTraining each := by
  constructor
  · right
    intro source found
    cases found
    constructor
    · intro ids given
      cases given
    · intro logprobs given
      cases given
  · intro miniBatch member microBatch inside only
    refine ⟨rfl, rfl, ?_⟩
    cases mem_singleton.mp member
    decide

theorem noOp_untaught :
    ∃ batch tq, untaught.result = .ok (batch, tq) ∧ NoOp untaught plainTraining each batch tq :=
  (noOp_iff untaught plainTraining each).mpr untaught_neutral

theorem nowhere_rows : ∀ miniBatch ∈ ([] : List (List (List Key))), ∀ microBatch ∈ miniBatch, ∀ key ∈ microBatch,
    key ∈ taught.batch.keys ∨ key ∈ taught.padding := by
  intro miniBatch member
  cases member

/-- The padding has what a teacher says of three tokens. -/
theorem not_noOp : ¬ ∃ batch tq, taught.result = .ok (batch, tq) ∧ NoOp taught plainTraining ⟨[], nowhere_rows⟩ batch tq := by
  rintro ⟨batch, tq', returned', noOp⟩
  obtain ⟨source, sourceTag, tags, tq, head, returned, kept, pads⟩ := taught.result_ok
  cases returned.symm.trans returned'
  have padded : Padded taught source sourceTag tq' := ⟨kept, pads⟩
  cases (padded.rows_iff head).mp noOp.rows with
  | inl whole => exact absurd whole (by decide)
  | inr fits => exact absurd ((fits (trajectory (some [[5], [6], [7]])) rfl).1 _ rfl) (by decide)

end LLMFusion.SyncTrainer
