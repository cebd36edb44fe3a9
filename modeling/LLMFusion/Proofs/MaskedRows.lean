import LLMFusion.Proofs.DistillationLosses

/-! Rows without valid tokens in a micro-batch. The losses that are means over the valid tokens of the
mini-batch do not see them. -/

namespace LLMFusion.CoreAlgos
open List hiding Vector
open TorchFunctional

/-- A row has a valid token. -/
def live {α : Type} {width : Nat} (valid : α → Bool) (row : Vector α width) : Bool := row.toList.any valid

theorem live_map {α β : Type} {width : Nat} (f : α → β) (valid : β → Bool) (row : Vector α width) :
    live valid (row.map f) = live (fun item => valid (f item)) row := by
  rw [live, Vector.toList_map, any_map]
  rfl

theorem filter_live {ι α : Type} {width : Nat} {valid : α → Bool} {keep : ι → Bool} {row row' : ι → Vector α width}
    {items : List ι} (dead : ∀ item ∈ items, keep item = false → live valid (row' item) = false)
    (same : ∀ item ∈ items, keep item = true → row' item = row item) :
    (items.map row').filter (live valid) = ((items.filter keep).map row).filter (live valid) := by
  induction items with
  | nil => rfl
  | cons item items ih =>
    obtain ⟨deadItem, dead⟩ := forall_mem_cons.mp dead
    obtain ⟨sameItem, same⟩ := forall_mem_cons.mp same
    cases kept : keep item with
    | true =>
      rw [filter_cons_of_pos kept, map_cons, map_cons, sameItem kept, filter_cons, filter_cons,
        ih dead same]
    | false =>
      have dropped : ¬ live valid (row' item) = true := by
        rw [deadItem kept]
        exact Bool.false_ne_true
      rw [filter_cons_of_neg (by simp [kept]), map_cons, filter_cons_of_neg dropped, ih dead same]

variable {α K : Type} [Field K] {width : Nat}

theorem maskedSum_dead {row : List (K × Bool)} (dead : row.any Prod.snd = false) : maskedSum row = 0 := by
  rw [maskedSum]
  apply sum_eq_zero
  intro term member
  obtain ⟨entry, inside, rfl⟩ := mem_map.mp member
  have masked : entry.2 = false := by simpa using any_eq_false.mp dead entry inside
  rw [masked, weight_false, mul_zero]

theorem maskSum_dead {mask : List Bool} (dead : mask.any id = false) : (maskSum mask : K) = 0 := by
  rw [maskSum]
  apply sum_eq_zero
  intro term member
  obtain ⟨valid, inside, rfl⟩ := mem_map.mp member
  have masked : valid = false := by simpa using any_eq_false.mp dead valid inside
  rw [masked, weight_false]

theorem sum_kept {M : Type} [AddMonoid M] (value : α → M) {keep : α → Bool} {items : List α}
    (nothing : ∀ item ∈ items, keep item = false → value item = 0) :
    ((items.filter keep).map value).sum = (items.map value).sum := by
  induction items with
  | nil => rfl
  | cons item items ih =>
    have rest := ih (fun other member => nothing other (mem_cons_of_mem _ member))
    cases kept : keep item with
    | true => rw [filter_cons_of_pos kept, map_cons, map_cons, sum_cons, sum_cons, rest]
    | false =>
      rw [filter_cons_of_neg (by simp [kept]), rest, map_cons, sum_cons, nothing item mem_cons_self kept,
        zero_add]

theorem maskSum_flatten (rows : List (List Bool)) : (maskSum rows.flatten : K) = (rows.map maskSum).sum := by
  induction rows with
  | nil => rfl
  | cons row rows ih =>
    rw [flatten_cons, map_cons, sum_cons, ← ih, maskSum, map_append, sum_append]
    rfl

variable [LinearOrder K]

theorem aggregate_sums {first second : List (Vector (K × Bool) width)}
    (sums : maskedSum (first.map Vector.toList).flatten = maskedSum (second.map Vector.toList).flatten)
    (counts : (maskSum ((first.map Vector.toList).flatten.map Prod.snd) : K) =
      maskSum ((second.map Vector.toList).flatten.map Prod.snd)) (info : GlobalBatchInfo K) :
    aggregate first "token-mean" info = aggregate second "token-mean" info := by
  unfold aggregate aggLoss divisor
  simp only [if_true, sums, counts]

theorem aggregate_live (losses : α → Vector (K × Bool) width) {keep : α → Bool} {items : List α}
    (dead : ∀ item ∈ items, keep item = false → live Prod.snd (losses item) = false) (info : GlobalBatchInfo K) :
    aggregate (items.map losses) "token-mean" info = aggregate ((items.filter keep).map losses) "token-mean" info := by
  apply aggregate_sums
  · rw [maskedSum_flatten, maskedSum_flatten, map_map, map_map, map_map, map_map]
    exact (sum_kept _ (fun item member dropped => maskedSum_dead (dead item member dropped))).symm
  · rw [map_flatten, map_flatten, maskSum_flatten, maskSum_flatten, map_map, map_map, map_map,
      map_map, map_map, map_map]
    refine (sum_kept _ (fun item member dropped => maskSum_dead ?_)).symm
    have unset := dead item member dropped
    rw [live] at unset
    simpa using unset

theorem tokenwise_live (term : α → K) (valid : α → Bool) (batch : List (Vector α width)) (info : GlobalBatchInfo K) :
    aggregate (tokenwise term valid batch) "token-mean" info =
      aggregate (tokenwise term valid (batch.filter (live valid))) "token-mean" info := by
  apply aggregate_live
  intro row _ dropped
  rw [live_map]
  exact dropped

/-! ### Policy losses -/

/-- The tokens of a batch with what is decided of them. -/
def decided {γ : Type} (decision : List (Vector (PolicyToken K) width) → Nat → Nat → γ)
    (batch : List (Vector (PolicyToken K) width)) : List (Vector (PolicyToken K × γ) width) :=
  batch.mapIdx (fun index row => row.mapIdx (fun place token => (token, decision batch index place)))

/-- What is decided of the other rows does not change when rows without valid tokens are left out. -/
def Unmoved {γ : Type} (decision : List (Vector (PolicyToken K) width) → Nat → Nat → γ) : Prop :=
  ∀ batch, (decided decision batch).filter (live (fun entry => entry.1.valid)) =
    decided decision (batch.filter (live PolicyToken.valid))

/-- Only valid tokens are chosen from, and the correction validates no token. -/
structure BatchChoices.Local (choices : BatchChoices K width) : Prop where
  topKIdx : Unmoved choices.topKIdx
  largeCovIdxs : Unmoved choices.largeCovIdxs
  rolloutCorrection : Unmoved choices.rolloutCorrection
  masks : ∀ batch, ∀ row ∈ decided choices.rolloutCorrection batch, ∀ entry ∈ row.toList, entry.2.2 = true → entry.1.valid = true

/-- A loss that `loss_agg_mode` aggregates, over tokens. -/
structure TokenMean (config : ActorConfig K) : Prop where
  mode : config.lossAggMode = "token-mean"
  tokens : config.lossMode ≠ .gspo ∧ config.lossMode ≠ .sapo ∧ config.lossMode ≠ .geoMean

omit [Field K] [LinearOrder K] in
theorem mapIdx_decided {β γ : Type} (decision : List (Vector (PolicyToken K) width) → Nat → Nat → γ)
    (f : PolicyToken K → γ → β) (batch : List (Vector (PolicyToken K) width)) :
    batch.mapIdx (fun index row => row.mapIdx (fun place token => f token (decision batch index place))) =
      (decided decision batch).map (Vector.map (fun entry => f entry.1 entry.2)) := by
  rw [decided]
  apply ext_getElem?
  intro index
  rw [getElem?_map, getElem?_mapIdx, getElem?_mapIdx, Option.map_map]
  congr 1
  funext row
  apply Vector.ext
  intro place inside
  simp

theorem decided_live {γ : Type} {decision : List (Vector (PolicyToken K) width) → Nat → Nat → γ} (unmoved : Unmoved decision)
    (loss : PolicyToken K × γ → K × Bool) (batch : List (Vector (PolicyToken K) width))
    (masks : ∀ row ∈ decided decision batch, ∀ entry ∈ row.toList, (loss entry).2 = true → entry.1.valid = true)
    (info : GlobalBatchInfo K) : aggregate ((decided decision batch).map (Vector.map loss)) "token-mean" info =
      aggregate ((decided decision (batch.filter (live PolicyToken.valid))).map (Vector.map loss)) "token-mean" info := by
  rw [← unmoved batch]
  apply aggregate_live
  intro row member dropped
  rw [live_map, live, any_eq_false]
  intro entry inside chosen
  have valid := masks row member entry inside chosen
  rw [live, any_eq_false] at dropped
  exact dropped entry inside valid

theorem computePolicyLossVanilla_live (f : Elementary K) (config : ClipConfig K) (weighted : Bool)
    (batch : List (Vector (PolicyToken K) width)) (info : GlobalBatchInfo K) :
    computePolicyLossVanilla f config weighted batch "token-mean" info =
      computePolicyLossVanilla f config weighted (batch.filter (live PolicyToken.valid)) "token-mean" info := by
  rw [computePolicyLossVanilla, computePolicyLossVanilla]
  simp only [tokenwise_live _ PolicyToken.valid batch]

theorem bypassMode_live (f : Elementary K) {choices : BatchChoices K width} (alone : choices.Local) (config : ClipConfig K)
    (lossType : LossType) (batch : List (Vector (PolicyToken K) width)) (info : GlobalBatchInfo K) :
    computePolicyLossBypassMode f config choices lossType batch "token-mean" info =
      computePolicyLossBypassMode f config choices lossType (batch.filter (live PolicyToken.valid)) "token-mean" info := by
  have rows (batch : List (Vector (PolicyToken K) width)) : corrected choices.rolloutCorrection batch =
      (decided choices.rolloutCorrection batch).map (Vector.map (fun entry =>
        ({ entry.1 with valid := entry.2.2 }, entry.2.1))) :=
    mapIdx_decided choices.rolloutCorrection
      (fun token correction => ((({ token with valid := correction.2 } : PolicyToken K)), correction.1)) batch
  unfold computePolicyLossBypassMode
  rw [rows, rows]
  cases lossType with
  | reinforce =>
    simp only [tokenwise, map_map, Function.comp_def, Vector.map_map]
    exact decided_live alone.rolloutCorrection _ batch (alone.masks batch) info
  | ppoClip =>
    simp only [computePolicyLossVanilla, tokenwise, map_map, Function.comp_def, Vector.map_map]
    rw [decided_live alone.rolloutCorrection _ batch (alone.masks batch) info]

theorem computePolicyLoss_live (f : Elementary K) {choices : BatchChoices K width} (alone : choices.Local)
    {config : ActorConfig K} (mean : TokenMean config) (weighted : Bool) (batch : List (Vector (PolicyToken K) width))
    (info : GlobalBatchInfo K) : computePolicyLoss f choices config weighted batch info =
      computePolicyLoss f choices config weighted (batch.filter (live PolicyToken.valid)) info := by
  obtain ⟨gspo, sapo, geoMean⟩ := mean.tokens
  have chosen (decision : List (Vector (PolicyToken K) width) → Nat → Nat → Bool) (term : Bool → PolicyToken K → K)
      (batch : List (Vector (PolicyToken K) width)) :
      chosenwise decision term batch =
        (decided decision batch).map (Vector.map (fun entry => (term entry.2 entry.1, entry.1.valid))) :=
    mapIdx_decided decision (fun token chosen => (term chosen token, token.valid)) batch
  unfold computePolicyLoss
  rw [mean.mode]
  cases isMode : config.lossMode with
  | vanilla => exact computePolicyLossVanilla_live f _ weighted batch info
  | dppoTv | dppoKl | gpg | cispo => exact tokenwise_live _ PolicyToken.valid batch info
  | gspo => exact absurd isMode gspo
  | sapo => exact absurd isMode sapo
  | geoMean => exact absurd isMode geoMean
  | clipCov =>
    simp only [chosen]
    exact decided_live alone.topKIdx _ batch (fun _ _ _ _ valid => valid) info
  | klCov =>
    simp only [chosen]
    exact decided_live alone.largeCovIdxs _ batch (fun _ _ _ _ valid => valid) info
  | bypassMode => exact bypassMode_live f alone _ _ batch info

end LLMFusion.CoreAlgos

namespace LLMFusion.Losses
open CoreAlgos

variable {K : Type} [Field K] [LinearOrder K] {width : Nat} (f : Elementary K)

theorem combinedLoss_live {choices : BatchChoices K width} (alone : choices.Local) {config : ActorConfig K}
    (mean : TokenMean config) (fields : Fields) (batch : List (Vector (PpoToken K) width)) (info : GlobalBatchInfo K) :
    combinedLoss f choices config fields batch info =
      combinedLoss f choices config fields (batch.filter (live (fun token => token.valid))) info := by
  have policy : (batch.filter (live (fun token => token.valid))).map (Vector.map PpoToken.toPolicyToken) =
      (batch.map (Vector.map PpoToken.toPolicyToken)).filter (live PolicyToken.valid) := by
    rw [List.filter_map]
    congr 2
    funext row
    exact (live_map PpoToken.toPolicyToken PolicyToken.valid row).symm
  unfold combinedLoss
  rw [policy, ← computePolicyLoss_live f alone mean, mean.mode]
  simp only [tokenwise_live _ (fun token : PpoToken K => token.valid) batch]

theorem ppoLoss_live {choices : BatchChoices K width} (alone : choices.Local) {config : ActorConfig K}
    (mean : TokenMean config) (fields : Fields) (info : GlobalBatchInfo K) (data : BatchData)
    (batch : List (Vector (PpoToken K) width)) : ppoLoss f choices config fields info data batch =
      ppoLoss f choices config fields info data (batch.filter (live (fun token => token.valid))) := by
  unfold ppoLoss
  simp only [combinedLoss_live f alone mean fields batch]

theorem valueLoss_live {config : CriticConfig K} (mean : config.lossAggMode = "token-mean") (state : Unit) (data : BatchData)
    (batch : List (Vector (ValueToken K) width)) :
    valueLoss config state data batch = valueLoss config state data (batch.filter (live ValueToken.valid)) := by
  unfold valueLoss computeValueLoss
  rw [mean, tokenwise_live]

/-! ### No valid token -/

theorem aggregate_none (width : Nat) (info : GlobalBatchInfo K) {dpSize tokens : Nat} (ranks : info.dpSize = some dpSize)
    (counted : info.batchNumTokens = some (some tokens)) :
    aggregate ([] : List (Vector (K × Bool) width)) "token-mean" info = .ok (if (tokens : K) = 0 then none else some 0) := by
  unfold aggregate aggLoss divisor
  rw [ranks, counted]
  simp [orCount, TorchFunctional.maskedSum]

/-- The assertion on the clip ratio. -/
def Accepted (config : ActorConfig K) : Prop :=
  (config.lossMode = .vanilla ∨ config.lossMode = .bypassMode) → 1 < config.clipRatioC.getD ((3 : Nat) : K)

theorem computePolicyLoss_none (choices : BatchChoices K width) {config : ActorConfig K} (mean : TokenMean config)
    (accepted : Accepted config) (weighted : Bool) {info : GlobalBatchInfo K} {dpSize tokens : Nat}
    (ranks : info.dpSize = some dpSize) (counted : info.batchNumTokens = some (some tokens)) :
    computePolicyLoss f choices config weighted [] info = .ok (if (tokens : K) = 0 then none else some 0) := by
  obtain ⟨gspo, sapo, geoMean⟩ := mean.tokens
  have none := aggregate_none width info ranks counted
  unfold computePolicyLoss
  rw [mean.mode]
  cases isMode : config.lossMode with
  | vanilla => exact (if_pos (accepted (Or.inl isMode))).trans none
  | dppoTv | dppoKl | gpg | cispo | clipCov | klCov => exact none
  | gspo => exact absurd isMode gspo
  | sapo => exact absurd isMode sapo
  | geoMean => exact absurd isMode geoMean
  | bypassMode =>
    unfold computePolicyLossBypassMode
    cases config.lossType with
    | reinforce => exact none
    | ppoClip => exact (if_pos (accepted (Or.inr isMode))).trans none

theorem ppoLoss_none (choices : BatchChoices K width) {config : ActorConfig K} (mean : TokenMean config)
    (accepted : Accepted config) (fields : Fields) (info : GlobalBatchInfo K) (data : BatchData) {tokens : Nat}
    (counted : data.batchNumTokens = some tokens) :
    (∃ loss, (ppoLoss f choices config fields info data []).1 = .ok (some loss)) ↔ (tokens : K) ≠ 0 := by
  have normalisers : info.update (batchInfo config data) = batchInfo config data := rfl
  have items : (batchInfo config data).batchNumTokens = some (some tokens) := congrArg some counted
  have none := aggregate_none width (batchInfo config data) rfl items
  have policy := computePolicyLoss_none f choices mean accepted fields.rolloutIsWeights rfl items
  unfold ppoLoss
  rw [normalisers]
  unfold combinedLoss
  simp only [List.map_nil, policy, tokenwise, mean.mode, none]
  by_cases nothing : (tokens : K) = 0
  · cases fields.entropy <;> cases config.useKlLoss <;> simp [nothing, Pure.pure, Except.pure]
  · cases fields.entropy <;> cases config.useKlLoss <;> simp [nothing, Pure.pure, Except.pure]

theorem valueLoss_none {config : CriticConfig K} (mean : config.lossAggMode = "token-mean") (state : Unit) (data : BatchData) :
    (valueLoss config state data ([] : List (Vector (ValueToken K) width))).1 = .ok none := by
  unfold valueLoss computeValueLoss aggregate aggLoss divisor
  rw [mean]
  simp [GlobalBatchInfo.empty, tokenwise, orCount, TorchFunctional.maskSum, Pure.pure, Except.pure]

end LLMFusion.Losses

namespace LLMFusion.Distillation
open List hiding Vector
open CoreAlgos Losses

variable {K : Type} [Field K] [LinearOrder K] (f : Elementary K)

omit [Field K] [LinearOrder K] in
theorem masked_live {width : Nat} (fields : Fields) (data : BatchData) (rows : List (Vector (DistillationToken K) width)) :
    MicroBatch.masked ⟨width, fields, data, rows.filter (live (fun token => token.valid))⟩ =
      MicroBatch.masked ⟨width, fields, data, rows⟩ := by
  rw [Bool.eq_iff_iff, MicroBatch.masked, MicroBatch.masked, all_eq_true, all_eq_true]
  constructor
  · intro kept row member
    by_cases alive : live (fun token : DistillationToken K => token.valid) row = true
    · exact kept row (mem_filter.mpr ⟨member, alive⟩)
    · rw [all_eq_true]
      intro token inside
      rw [live, Bool.not_eq_true, any_eq_false] at alive
      simpa using alive token inside
  · intro all row member
    exact all row (mem_filter.mp member).1

theorem aggregatedLoss_live {width : Nat} (lossConfig : DistillationLossConfig K) (info : GlobalBatchInfo K) (fields : Fields)
    (data : BatchData) (rows : List (Vector (DistillationToken K) width)) :
    aggregatedLoss f lossConfig "token-mean" info ⟨width, fields, data, rows⟩ =
      aggregatedLoss f lossConfig "token-mean" info ⟨width, fields, data, rows.filter (live (fun token => token.valid))⟩ := by
  have policy : (rows.filter (live (fun token => token.valid))).map (Vector.map (rewarded f lossConfig)) =
      (rows.map (Vector.map (rewarded f lossConfig))).filter (live PolicyToken.valid) := by
    rw [List.filter_map]
    congr 2
    funext row
    exact (live_map (rewarded f lossConfig) PolicyToken.valid row).symm
  unfold aggregatedLoss
  simp only [policy]
  rw [← computePolicyLossVanilla_live, tokenwise_live]

theorem distillationPpoLoss_live {choices : (width : Nat) → BatchChoices K width} (alone : ∀ width, (choices width).Local)
    {config : ActorConfig K} (mean : TokenMean config) (lossConfig : DistillationLossConfig K) (state : State K) {width : Nat}
    (fields : Fields) (data : BatchData) (rows : List (Vector (DistillationToken K) width)) :
    distillationPpoLoss f lossConfig config choices state ⟨width, fields, data, rows⟩ =
      distillationPpoLoss f lossConfig config choices state
        ⟨width, fields, data, rows.filter (live (fun token => token.valid))⟩ := by
  have distilled : distillationLoss f lossConfig config state ⟨width, fields, data, rows⟩ =
      distillationLoss f lossConfig config state ⟨width, fields, data, rows.filter (live (fun token => token.valid))⟩ := by
    unfold distillationLoss
    rw [masked_live, mean.mode]
    simp only [aggregatedLoss_live f lossConfig _ fields data rows]
  have policy : (rows.filter (live (fun token => token.valid))).map (Vector.map DistillationToken.toPpoToken) =
      (rows.map (Vector.map DistillationToken.toPpoToken)).filter (live (fun token => token.valid)) := by
    rw [List.filter_map]
    congr 2
    funext row
    exact (live_map DistillationToken.toPpoToken (fun token => token.valid) row).symm
  unfold distillationPpoLoss
  simp only [distilled, policy]
  rw [ppoLoss_live f (alone width) mean]

theorem distillationPpoLoss_none (choices : (width : Nat) → BatchChoices K width) (config : ActorConfig K)
    (lossConfig : DistillationLossConfig K) (state : State K) {batch : MicroBatch K} (empty : batch.rows = []) :
    (distillationPpoLoss f lossConfig config choices state batch).1 = .error .noValidToken := by
  have masked : batch.masked = true := by rw [MicroBatch.masked, empty, all_nil]
  rw [distillationPpoLoss, distillationLoss_masked f lossConfig config masked]

end LLMFusion.Distillation
