import LLMFusion.DistillationLosses
import LLMFusion.Proofs.Losses

/-! The distillation loss over a run of calls. It is normalised by what the configs hold before the
call, which is what the call before it wrote. It is that of the micro-batch alone where the two are
the same. -/

namespace LLMFusion.Distillation
open CoreAlgos Losses

/-! ### What an aggregation reads of the normalisers -/

section Reading
variable {K : Type} [Field K] [LinearOrder K] {width : Nat} {mode : String} {first second : GlobalBatchInfo K}

/-- The size of the data parallel group, the normaliser of the mode and, where it is used, the factor. -/
def reading (mode : String) (info : GlobalBatchInfo K) : Nat × Option Nat × Option K :=
  (info.dpSize.getD 1, if mode = "token-mean" then info.batchNumTokens.join else info.globalBatchSize.join,
    if mode = "seq-mean-token-sum-norm" then info.lossScaleFactor.join else none)

theorem aggregate_congr (same : reading mode first = reading mode second) (losses : List (Vector (K × Bool) width)) :
    aggregate losses mode first = aggregate losses mode second := by
  obtain ⟨ranks, normalisers, factors⟩ : first.dpSize.getD 1 = second.dpSize.getD 1 ∧ _ ∧ _ := by
    simpa only [reading, Prod.mk.injEq] using same
  unfold aggregate aggLoss divisor
  simp only [ranks]
  by_cases tokens : mode = "token-mean"
  · rw [if_pos tokens, if_pos tokens] at normalisers
    simp only [tokens, if_true, normalisers]
  · rw [if_neg tokens, if_neg tokens] at normalisers
    by_cases norm : mode = "seq-mean-token-sum-norm"
    · rw [if_pos norm, if_pos norm] at factors
      simp only [norm, normalisers, factors]
      rfl
    · simp only [tokens, norm, normalisers, or_false, if_false]

end Reading

variable {K : Type} [Field K] [LinearOrder K] (f : Elementary K) (lossConfig : DistillationLossConfig K)
  (config : ActorConfig K) (choices : (width : Nat) → BatchChoices K width)

theorem aggregatedLoss_congr {mode : String} {first second : GlobalBatchInfo K} (same : reading mode first = reading mode second)
    (batch : MicroBatch K) : aggregatedLoss f lossConfig mode first batch = aggregatedLoss f lossConfig mode second batch := by
  unfold aggregatedLoss computePolicyLossVanilla
  simp only [aggregate_congr same]

/-! ### A run of calls -/

/-- The normalisers that a call uses for the distillation loss. -/
def held (state : State K) : GlobalBatchInfo K :=
  if lossConfig.usePolicyGradient then state.distillation.update state.actor else state.actor

/-- The loss of a micro-batch with the normalisers that it carries. -/
def ownLoss (batch : MicroBatch K) : Except LossFailure (Option K) := do
  if batch.masked then throw .noValidToken
  let distillLoss ← aggregatedLoss f lossConfig config.lossAggMode (batchInfo config batch.data) batch
  let policyLoss ← combinedLoss f (choices batch.width) config batch.fields
    (batch.rows.map (Vector.map DistillationToken.toPpoToken)) (batchInfo config batch.data)
  return weighLosses lossConfig policyLoss distillLoss

/-- What the configs hold are the normalisers that the micro-batch carries. -/
def Carries (info : GlobalBatchInfo K) (batch : MicroBatch K) : Prop :=
  reading config.lossAggMode info = reading config.lossAggMode (batchInfo config batch.data)

/-- Every micro-batch carries the normalisers of the one before it, and the first those in the configs. -/
def Steady : GlobalBatchInfo K → List (MicroBatch K) → Prop
  | _, [] => True
  | info, batch :: rest => Carries config info batch ∧ Steady (batchInfo config batch.data) rest

omit [Field K] [LinearOrder K] in
variable {config} in
theorem Steady.congr {first second : GlobalBatchInfo K} (same : reading config.lossAggMode first = reading config.lossAggMode second)
    {batches : List (MicroBatch K)} (steady : Steady config first batches) : Steady config second batches := by
  cases batches with
  | nil => trivial
  | cons batch rest => exact ⟨same.symm.trans steady.1, steady.2⟩

theorem distillationLoss_masked {state : State K} {batch : MicroBatch K} (masked : batch.masked = true) :
    distillationLoss f lossConfig config state batch = (.error .noValidToken, state.distillation) := if_pos masked

theorem distillationLoss_result (state : State K) {batch : MicroBatch K} (live : ¬ batch.masked = true) :
    (distillationLoss f lossConfig config state batch).1 =
      aggregatedLoss f lossConfig config.lossAggMode (held lossConfig state) batch := by
  rw [distillationLoss, if_neg live, held]
  cases lossConfig.usePolicyGradient <;> rfl

omit [Field K] [LinearOrder K] in
theorem update_again (info items : GlobalBatchInfo K) : (info.update items).update items = info.update items := by
  unfold GlobalBatchInfo.update
  cases items.dpSize <;> cases items.batchNumTokens <;> cases items.globalBatchSize <;> cases items.lossScaleFactor <;> rfl

theorem distillationLoss_held (state : State K) (batch : MicroBatch K) :
    held lossConfig ⟨state.actor, (distillationLoss f lossConfig config state batch).2⟩ = held lossConfig state := by
  by_cases masked : batch.masked = true
  · rw [distillationLoss_masked f lossConfig config masked]
  · rw [distillationLoss, if_neg masked, held, held]
    cases lossConfig.usePolicyGradient with
    | false => rfl
    | true => exact update_again _ _

omit [Field K] [LinearOrder K] in
theorem batchInfo_held (data : BatchData) (distillation : GlobalBatchInfo K) :
    held lossConfig ⟨batchInfo config data, distillation⟩ = batchInfo config data := by
  rw [held]
  cases lossConfig.usePolicyGradient <;> rfl

/-- One call that finds the normalisers of its micro-batch has the loss of that micro-batch, and the
configs still hold these normalisers. -/
theorem distillationPpoLoss_own {state : State K} {batch : MicroBatch K} (carries : Carries config (held lossConfig state) batch) :
    (distillationPpoLoss f lossConfig config choices state batch).1 = ownLoss f lossConfig config choices batch ∧
      reading config.lossAggMode (held lossConfig (distillationPpoLoss f lossConfig config choices state batch).2) =
        reading config.lossAggMode (batchInfo config batch.data) := by
  have kept := (congrArg (reading config.lossAggMode) (distillationLoss_held f lossConfig config state batch)).trans carries
  by_cases masked : batch.masked = true
  · rw [distillationLoss_masked f lossConfig config masked] at kept
    rw [distillationPpoLoss, distillationLoss_masked f lossConfig config masked, ownLoss, if_pos masked]
    exact ⟨rfl, kept⟩
  · have own := (distillationLoss_result f lossConfig config state masked).trans
      (aggregatedLoss_congr f lossConfig carries batch)
    rw [ownLoss, if_neg masked, ← own]
    rw [distillationPpoLoss]
    generalize distillationLoss f lossConfig config state batch = call at kept ⊢
    obtain ⟨result, distillation⟩ := call
    cases result with
    | error failure => exact ⟨rfl, kept⟩
    | ok distillLoss =>
      have after := congrArg (reading config.lossAggMode) (batchInfo_held lossConfig config batch.data distillation)
      have policy := ppoLoss_result f (choices batch.width) config batch.fields state.actor batch.data
        (batch.rows.map (Vector.map DistillationToken.toPpoToken))
      change _ = ((combinedLoss f (choices batch.width) config batch.fields
        (batch.rows.map (Vector.map DistillationToken.toPpoToken)) (batchInfo config batch.data)) >>= fun policyLoss =>
          pure (weighLosses lossConfig policyLoss distillLoss)) ∧ _
      have call : ppoLoss f (choices batch.width) config batch.fields state.actor batch.data
          (batch.rows.map (Vector.map DistillationToken.toPpoToken)) =
          (combinedLoss f (choices batch.width) config batch.fields
            (batch.rows.map (Vector.map DistillationToken.toPpoToken)) (batchInfo config batch.data),
            batchInfo config batch.data) := Prod.ext policy rfl
      simp only [call]
      cases combinedLoss f (choices batch.width) config batch.fields
        (batch.rows.map (Vector.map DistillationToken.toPpoToken)) (batchInfo config batch.data) with
      | error failure => exact ⟨rfl, after⟩
      | ok policyLoss => exact ⟨rfl, after⟩

/-- In a run whose micro-batches all find their normalisers, every call has the loss of its micro-batch. -/
theorem losses_own {state : State K} {batches : List (MicroBatch K)} (steady : Steady config (held lossConfig state) batches) :
    losses f lossConfig config choices state batches = batches.map (ownLoss f lossConfig config choices) := by
  induction batches generalizing state with
  | nil => rfl
  | cons batch rest ih =>
    have call := distillationPpoLoss_own f lossConfig config choices steady.1
    rw [List.map_cons, ← call.1, ← ih (steady.2.congr call.2.symm)]
    rfl

/-! ### A call that finds the normalisers of none -/

/-- A supervised loss without task rewards. -/
def supervised : DistillationLossConfig ℚ where
  clipRatio := 1 / 5
  clipRatioLow := some (1 / 5)
  clipRatioHigh := some (1 / 5)
  clipRatioC := none
  lossMode := .k2
  useTaskRewards := false
  distillationLossCoef := 1
  lossMaxClamp := some 10
  usePolicyGradient := false
  policyLossMode := .vanilla
  noClipRatioC := rfl
  vanillaOnly := rfl
  estimates := fun _ => LossMode.noConfusion

theorem tokenMean_valid : "token-mean" ∈ validLossAggModes := List.mem_cons_self

def actor : ActorConfig ℚ where
  clipRatio := 1 / 5
  clipRatioLow := some (1 / 5)
  clipRatioHigh := some (1 / 5)
  clipRatioC := some 3
  lossMode := .vanilla
  lossType := .ppoClip
  ppoKlCoef := some (1 / 10)
  tauPos := 1
  tauNeg := 1
  entropyCoeff := 0
  useKlLoss := false
  klLossCoef := 0
  klLossType := .k3
  straightThrough := false
  lossAggMode := "token-mean"
  lossScaleFactor := none
  validMode := tokenMean_valid

/-- One of the two valid tokens of a mini-batch. -/
def halfBatch : MicroBatch ℚ := ⟨1, ⟨false, false⟩, ⟨1, some 2, some 2⟩, [#v[⟨⟨⟨0, 0, 0, 0, true⟩, 0, 0⟩, 2, 0⟩]]⟩

def noChoices (width : Nat) : BatchChoices ℚ width := ⟨fun _ _ _ => false, fun _ _ _ => false, fun _ _ _ => (none, true)⟩

theorem losses_own_twice :
    losses atOne supervised actor noChoices ⟨batchInfo actor halfBatch.data, .empty⟩ [halfBatch, halfBatch] =
      [halfBatch, halfBatch].map (ownLoss atOne supervised actor noChoices) :=
  losses_own atOne supervised actor noChoices ⟨rfl, rfl, trivial⟩

/-- The first call finds no normalisers, and the second those of the first. -/
theorem loss_of_history :
    ¬ ∃ own : MicroBatch ℚ → Except LossFailure (Option ℚ), ∀ batches,
      losses atOne supervised actor noChoices ⟨.empty, .empty⟩ batches = batches.map own := by
  rintro ⟨own, alone⟩
  have twice : losses atOne supervised actor noChoices ⟨.empty, .empty⟩ [halfBatch, halfBatch] =
      [.ok (some 2), .ok (some 1)] := by decide +kernel
  rw [alone, List.map_cons, List.map_cons, List.cons.injEq, List.cons.injEq] at twice
  cases twice.1.symm.trans twice.2.1

end LLMFusion.Distillation
