import LLMFusion.Losses
import LLMFusion.Proofs.AggLoss
import Mathlib.Analysis.Complex.Exponential

/-! The loss of a mini-batch over all its divisions into micro-batches. A loss with the normalisers
of the global batch is the same over each. One that is normalised by its own micro-batch is so only
where every micro-batch has its share of the normaliser of the whole. -/

namespace LLMFusion.CoreAlgos
open TorchFunctional

variable {K : Type} [Field K] [LinearOrder K] {width : Nat}

theorem modes_valid {mode : String} (accepted : mode ∈ validLossAggModes) : mode ∈ modes := by
  simp only [validLossAggModes, modes, List.mem_cons, List.not_mem_nil, or_false] at accepted ⊢
  tauto

def quotient (size sum : K) (ranks : Nat) : Option K := if size = 0 then none else some (sum / size * ranks)

theorem aggregate_global (losses : List (Vector (K × Bool) width)) {mode : String} (accepted : mode ∈ validLossAggModes)
    (ranks tokens size : Nat) (factor : Option K) :
    aggregate losses mode ⟨some ranks, some (some tokens), some (some size), some factor⟩ =
      .ok (quotient (normaliser width mode (tokens : K) (size : K) factor) (totalLoss mode losses) ranks) := by
  simp only [aggregate, Option.getD_some, Option.join_some, aggLoss_global losses (modes_valid accepted)]
  rfl

variable [IsStrictOrderedRing K]

theorem aggregate_counted (losses : List (Vector (K × Bool) width)) {mode : String} (accepted : mode ∈ validLossAggModes) :
    aggregate losses mode .empty =
      .ok (quotient (normaliser width mode (countTokens losses : K) (countSequences losses : K) none) (totalLoss mode losses) 1) := by
  have size : divisor losses mode none none none =
      normaliser width mode (countTokens losses : K) (countSequences losses : K) none := by
    rw [← maskSum_tokens, ← maskSum_sequences]
    rfl
  simp only [aggregate, GlobalBatchInfo.empty, Option.getD_none, Option.join_none, aggLoss_counted,
    aggLoss_global losses (modes_valid accepted), size]
  rfl

omit [IsStrictOrderedRing K] in
theorem aggregate_invalid (losses : List (Vector (K × Bool) width)) {mode : String} (invalid : mode ∉ validLossAggModes)
    (info : GlobalBatchInfo K) : aggregate losses mode info = .error (.aggregation (.invalidMode mode)) := by
  simp only [validLossAggModes, List.mem_cons, List.not_mem_nil, or_false, not_or] at invalid
  simp only [aggregate, aggLoss, invalid, or_self, if_false]

theorem clamp_eq_zero {x bound : ℝ} (positive : 0 < bound) : clamp x (-bound) bound = 0 ↔ x = 0 := by
  rw [clamp]
  grind

end LLMFusion.CoreAlgos

namespace LLMFusion.Losses
open List hiding Vector
open CoreAlgos PartialSums

/-! ### The engine -/

section Engine
variable {K α σ : Type} [Field K] {loss : σ → BatchData → List α → Except LossFailure (Option K) × σ} {data : BatchData}

theorem backwardAll_ok {part : List α → Option K} (each : ∀ state microBatch, (loss state data microBatch).1 = .ok (part microBatch))
    (microBatches : List (List α)) (gradient : Option K) (state : σ) :
    backwardAll loss data gradient state microBatches = .ok (Option.map₂ (· + ·) gradient (total (microBatches.map part))) := by
  induction microBatches generalizing gradient state with
  | nil => cases gradient with
    | none => rfl
    | some sum => exact congrArg (fun sum => Except.ok (some sum)) (add_zero sum).symm
  | cons microBatch rest ih =>
    obtain ⟨next, called⟩ : ∃ next, loss state data microBatch = (.ok (part microBatch), next) :=
      ⟨_, Prod.ext (each state microBatch) rfl⟩
    rw [backwardAll, called, map_cons, total_cons]
    exact (ih _ _).trans (congrArg Except.ok (Option.map₂_assoc add_assoc))

theorem backwardAll_error {failure : LossFailure} (each : ∀ state microBatch, (loss state data microBatch).1 = .error failure)
    {microBatches : List (List α)} (present : microBatches ≠ []) (gradient : Option K) (state : σ) :
    backwardAll loss data gradient state microBatches = .error failure := by
  cases microBatches with
  | nil => exact absurd rfl present
  | cons microBatch rest =>
    obtain ⟨next, called⟩ : ∃ next, loss state data microBatch = (.error failure, next) :=
      ⟨_, Prod.ext (each state microBatch) rfl⟩
    rw [backwardAll, called]

variable {numTokens : α → Nat} {state : σ} {size : Option Nat} {ranks : List (List (List α))}

theorem forwardBackward_ok {part : Nat → List α → Option K}
    (each : ∀ state microBatch, (loss state ⟨ranks.length, some (ranks.flatten.flatten.map numTokens).sum, size⟩ microBatch).1 =
      .ok (part ranks.length microBatch)) : forwardBackwardBatch loss numTokens state size ranks =
      .ok ((total (ranks.flatten.map (part ranks.length))).map (· / ranks.length)) := by
  have sums : ranks.mapM (backwardAll loss ⟨ranks.length, some (ranks.flatten.flatten.map numTokens).sum, size⟩ (some 0) state) =
      .ok (ranks.map (fun microBatches => total (microBatches.map (part ranks.length)))) := by
    apply Fallible.mapM_map
    intro microBatches _
    rw [backwardAll_ok each]
    cases total (microBatches.map (part ranks.length)) with
    | none => rfl
    | some sum => exact congrArg (fun sum => Except.ok (some sum)) (zero_add sum)
  rw [forwardBackwardBatch, sums, map_flatten, total_flatten, map_map]
  rfl

theorem mapM_backwardAll_error {failure : LossFailure} (each : ∀ state microBatch, (loss state data microBatch).1 = .error failure)
    {ranks : List (List (List α))} (present : ranks.flatten ≠ []) :
    ranks.mapM (backwardAll loss data (some 0) state) = .error failure := by
  induction ranks with
  | nil => exact absurd rfl present
  | cons microBatches rest ih =>
    rw [mapM_cons]
    cases microBatches with
    | nil => rw [backwardAll, ih present]; rfl
    | cons microBatch later => rw [backwardAll_error each (cons_ne_nil _ _)]; rfl

theorem forwardBackward_error {failure : LossFailure} (present : ranks.flatten ≠ [])
    (each : ∀ state microBatch, (loss state ⟨ranks.length, some (ranks.flatten.flatten.map numTokens).sum, size⟩ microBatch).1 =
      .error failure) : forwardBackwardBatch loss numTokens state size ranks = .error failure := by
  rw [forwardBackwardBatch, mapM_backwardAll_error each present]
  rfl

end Engine

/-! ### Averages over a division -/

namespace Division
open List hiding Vector
variable {α : Type} {rows : Nat} (division : Division rows)

theorem batches_flatten (row : Fin rows → α) : (division.batches row).flatten = division.ranks.flatten.map (map row) :=
  map_flatten.symm

theorem batches_length (row : Fin rows → α) : (division.batches row).length = division.ranks.length := length_map _

theorem distinct : division.ranks.flatten.flatten.Nodup := (division.covers.nodup_iff).mpr (nodup_finRange rows)

theorem sum_rows {K : Type} [AddCommMonoid K] (term : Fin rows → K) :
    (division.ranks.flatten.flatten.map term).sum = ((finRange rows).map term).sum := (division.covers.map term).sum_eq

theorem present {count : Nat} (division : Division (count + 1)) : division.ranks.flatten ≠ [] := by
  intro missing
  have all := division.covers.length_eq
  rw [missing, length_finRange] at all
  exact absurd all.symm count.succ_ne_zero

theorem ranks_pos {count : Nat} (division : Division (count + 1)) : 0 < division.ranks.length := by
  apply length_pos_of_ne_nil
  intro missing
  exact division.present (by rw [missing, flatten_nil])

end Division

section Averages
variable {K α : Type} [Field K] {count : Nat}

/-- The average over the ranks of the sums over their micro-batches, by what each micro-batch gives. -/
def averaged (part : Nat → List α → Option K) (row : Fin (count + 1) → α) (division : Division (count + 1)) : Option K :=
  (total (division.ranks.flatten.map (fun microBatch => part division.ranks.length (microBatch.map row)))).map
    (· / division.ranks.length)

theorem averaged_undivided (part : Nat → List α → Option K) (row : Fin (count + 1) → α) :
    averaged part row (Division.undivided count) = part 1 ((finRange (count + 1)).map row) := by
  change (Option.map₂ (· + ·) (part 1 ((finRange (count + 1)).map row)) (some 0)).map (· / ((1 : Nat) : K)) = _
  cases part 1 ((finRange (count + 1)).map row) with
  | none => rfl
  | some sum => exact congrArg some ((congrArg (· / ((1 : Nat) : K)) (add_zero sum)).trans (by rw [Nat.cast_one, div_one]))

theorem averaged_combined (combine : K → K → K) (zeros : combine 0 0 = 0)
    (sums : ∀ a b c d, combine (a + b) (c + d) = combine a c + combine b d)
    (ratios : ∀ a b c, combine a b / c = combine (a / c) (b / c)) (left right : Nat → List α → Option K)
    (row : Fin (count + 1) → α) (division : Division (count + 1)) :
    averaged (fun ranks batch => Option.map₂ combine (left ranks batch) (right ranks batch)) row division =
      Option.map₂ combine (averaged left row division) (averaged right row division) := by
  rw [averaged, total_combined zeros sums, averaged, averaged]
  cases total (division.ranks.flatten.map (fun microBatch => left division.ranks.length (microBatch.map row))) with
  | none => rfl
  | some a =>
    cases total (division.ranks.flatten.map (fun microBatch => right division.ranks.length (microBatch.map row))) with
    | none => rfl
    | some b => exact congrArg some (ratios a b _)

theorem averaged_missing {part : Nat → List α → Option K} {row : Fin (count + 1) → α} {division : Division (count + 1)}
    {microBatch : List (Fin (count + 1))} (member : microBatch ∈ division.ranks.flatten)
    (missing : part division.ranks.length (microBatch.map row) = none) : averaged part row division = none := by
  rw [averaged, total_missing (mem_map.mpr ⟨microBatch, member, missing⟩)]
  rfl

theorem averaged_some {part : Nat → List α → Option K} {row : Fin (count + 1) → α} {division : Division (count + 1)}
    {number : List (Fin (count + 1)) → K}
    (each : ∀ microBatch ∈ division.ranks.flatten, part division.ranks.length (microBatch.map row) = some (number microBatch)) :
    averaged part row division = some ((division.ranks.flatten.map (fun microBatch =>
      number microBatch * (division.ranks.length : K)⁻¹)).sum) := by
  rw [averaged, total_of_some each, sum_map_mul_right]
  exact congrArg some (div_eq_mul_inv _ _)

variable [LinearOrder K]

theorem averaged_quotient [IsStrictOrderedRing K] (size : K) (term : α → K) (row : Fin (count + 1) → α) (division : Division (count + 1)) :
    averaged (fun ranks batch => quotient size (batch.map term).sum ranks) row division =
      averaged (fun ranks batch => quotient size (batch.map term).sum ranks) row (Division.undivided count) := by
  rw [averaged_undivided]
  by_cases none_left : size = 0
  · obtain ⟨microBatch, member⟩ := exists_mem_of_ne_nil _ division.present
    rw [averaged_missing member (by rw [quotient, if_pos none_left]), quotient, if_pos none_left]
  · rw [averaged_some (fun microBatch _ => if_neg none_left), quotient, if_neg none_left]
    have ranks : (division.ranks.length : K) ≠ 0 := Nat.cast_ne_zero.mpr division.ranks_pos.ne'
    refine congrArg some ?_
    have each : ∀ microBatch : List (Fin (count + 1)),
        ((microBatch.map row).map term).sum / size * division.ranks.length * (division.ranks.length : K)⁻¹ =
          (microBatch.map (fun index => term (row index))).sum * size⁻¹ := by
      intro microBatch
      rw [mul_inv_cancel_right₀ ranks, map_map, div_eq_mul_inv]
      rfl
    simp only [each]
    rw [sum_uniform (fun index => term (row index)) (fun _ _ => rfl), division.sum_rows, Nat.cast_one, mul_one, map_map,
      div_eq_mul_inv]
    rfl

/-! ### Losses over a divisor of their own -/

def ownQuotient (size : List α → K) (term : α → K) (batch : List α) : Option K := quotient (size batch) (batch.map term).sum 1

variable {size : List α → K} {term : α → K} {row : Fin (count + 1) → α} {division : Division (count + 1)}

theorem averaged_own (defined : ∀ microBatch ∈ division.ranks.flatten, size (microBatch.map row) ≠ 0) :
    averaged (fun _ => ownQuotient size term) row division = some ((division.ranks.flatten.map (fun microBatch =>
      (microBatch.map (fun index => term (row index))).sum * (size (microBatch.map row) * division.ranks.length)⁻¹)).sum) := by
  rw [averaged_some (fun microBatch member => if_neg (defined microBatch member))]
  refine congrArg (fun numbers => some (sum numbers)) (map_congr_left ?_)
  intro microBatch _
  rw [Nat.cast_one, mul_one, div_eq_mul_inv, mul_assoc, ← mul_inv, map_map]
  rfl

theorem own_undivided (defined : size ((finRange (count + 1)).map row) ≠ 0) :
    averaged (fun _ => ownQuotient size term) row (Division.undivided count) =
      some (((finRange (count + 1)).map (fun index => term (row index))).sum *
        (size ((finRange (count + 1)).map row))⁻¹) := by
  rw [averaged_undivided, ownQuotient, quotient, if_neg defined, Nat.cast_one, mul_one, div_eq_mul_inv, map_map]
  rfl

theorem own_agrees (defined : ∀ microBatch ∈ division.ranks.flatten, size (microBatch.map row) ≠ 0)
    (whole : size ((finRange (count + 1)).map row) ≠ 0)
    (shares : ∀ microBatch ∈ division.ranks.flatten, (∀ index ∈ microBatch, term (row index) = 0) ∨
      size (microBatch.map row) * division.ranks.length = size ((finRange (count + 1)).map row)) :
    averaged (fun _ => ownQuotient size term) row division =
      averaged (fun _ => ownQuotient size term) row (Division.undivided count) := by
  rw [averaged_own defined, own_undivided whole, ← division.sum_rows, ← sum_uniform _ (fun _ _ => rfl)]
  refine congrArg (fun numbers => some (sum numbers)) (map_congr_left ?_)
  intro microBatch member
  cases shares microBatch member with
  | inl nothing => rw [sum_eq_zero (by simpa using nothing), zero_mul, zero_mul]
  | inr share => rw [share]

theorem own_share (defined : ∀ microBatch ∈ division.ranks.flatten, size (microBatch.map row) ≠ 0)
    (whole : size ((finRange (count + 1)).map row) ≠ 0) {item : Fin (count + 1)} {value : K} (nonzero : value ≠ 0)
    (single : ∀ index, term (row index) = if index = item then value else 0)
    (agree : averaged (fun _ => ownQuotient size term) row division =
      averaged (fun _ => ownQuotient size term) row (Division.undivided count))
    {microBatch : List (Fin (count + 1))} (member : microBatch ∈ division.ranks.flatten) (inside : item ∈ microBatch) :
    size (microBatch.map row) * division.ranks.length = size ((finRange (count + 1)).map row) := by
  rw [averaged_own defined, own_undivided whole, Option.some.injEq] at agree
  simp only [single] at agree
  rw [sum_single division.distinct member inside, sum_here (nodup_finRange _) (mem_finRange _)] at agree
  exact inv_injective (mul_left_cancel₀ nonzero agree)

end Averages

/-! ### The policy losses -/

section Policy
variable {K : Type} [Field K] [LinearOrder K] {width : Nat} (f : Elementary K) (choices : BatchChoices K width)
  (config : ActorConfig K)

/-- Each row gives its terms by itself: no token is chosen by its covariance in the batch, and what
the rollout correction gives a row does not depend on the other rows. -/
def RowByRow : Prop :=
  match config.lossMode with
  | .clipCov | .klCov => False
  | .bypassMode => ∃ correction : Vector (PolicyToken K) width → Nat → Option K × Bool, ∀ batch index row,
      batch[index]? = some row → choices.rolloutCorrection batch index = correction row
  | _ => True

omit [Field K] [LinearOrder K] in
theorem corrected_rows {correct : List (Vector (PolicyToken K) width) → Nat → Nat → Option K × Bool}
    {correction : Vector (PolicyToken K) width → Nat → Option K × Bool}
    (alone : ∀ batch index row, batch[index]? = some row → correct batch index = correction row)
    (batch : List (Vector (PolicyToken K) width)) :
    corrected correct batch = batch.map (fun row => row.mapIdx (fun place token =>
      ({ token with valid := (correction row place).2 }, (correction row place).1))) := by
  apply ext_getElem?
  intro index
  rw [corrected, getElem?_mapIdx, getElem?_map]
  cases found : batch[index]? with
  | none => rfl
  | some row => simp only [Option.map_some, alone batch index row found]

theorem vanilla_rows (clip : ClipConfig K) (weighted : Bool) {mode : String} :
    (∃ failure, ∀ (batch : List (Vector (PolicyToken K) width)) info,
      computePolicyLossVanilla f clip weighted batch mode info = .error failure) ∨
    ∃ losses : Vector (PolicyToken K) width → Vector (K × Bool) width, ∀ batch info,
      computePolicyLossVanilla f clip weighted batch mode info = aggregate (batch.map losses) mode info := by
  by_cases accepted : 1 < clip.clipRatioC.getD ((3 : Nat) : K)
  · exact Or.inr ⟨_, fun batch info => if_pos accepted⟩
  · exact Or.inl ⟨_, fun batch info => if_neg accepted⟩

theorem policyLoss_rows (alone : RowByRow choices config) (aggregated : config.lossMode ≠ .geoMean) (weighted : Bool) :
    (∃ failure, ∀ batch info, computePolicyLoss f choices config weighted batch info = .error failure) ∨
    ∃ mode ∈ validLossAggModes, ∃ losses : Vector (PolicyToken K) width → Vector (K × Bool) width, ∀ batch info,
      computePolicyLoss f choices config weighted batch info = aggregate (batch.map losses) mode info := by
  have sequences : "seq-mean-token-mean" ∈ validLossAggModes := by simp [validLossAggModes]
  unfold RowByRow at alone
  unfold computePolicyLoss
  cases isMode : config.lossMode with
  | vanilla => exact (vanilla_rows f config.toClipConfig weighted).imp_right (fun rows => ⟨_, config.validMode, rows⟩)
  | dppoTv | dppoKl | gpg | cispo => exact Or.inr ⟨_, config.validMode, _, fun batch info => rfl⟩
  | gspo | sapo => exact Or.inr ⟨_, sequences, _, fun batch info => rfl⟩
  | clipCov | klCov => rw [isMode] at alone; exact alone.elim
  | geoMean => exact absurd isMode aggregated
  | bypassMode =>
    rw [isMode] at alone
    obtain ⟨correction, alone⟩ := alone
    simp only [computePolicyLossBypassMode, corrected_rows alone]
    cases config.lossType with
    | reinforce => exact Or.inr ⟨_, config.validMode, _, fun batch info => by simp only [tokenwise, map_map]; rfl⟩
    | ppoClip =>
      cases @vanilla_rows K _ _ width f config.toClipConfig false config.lossAggMode with
      | inl fails =>
        obtain ⟨failure, fails⟩ := fails
        exact Or.inl ⟨failure, fun batch info => fails _ info⟩
      | inr rows =>
        obtain ⟨losses, rows⟩ := rows
        exact Or.inr ⟨_, config.validMode, _, fun batch info => by rw [rows, map_map, map_map]⟩

end Policy

/-! ### The losses of a batch as sums over its rows -/

section Rows
variable {K : Type} [Field K] [LinearOrder K] {width : Nat}

def rowTerm {α : Type} (mode : String) (term : α → K) (valid : α → Bool) (row : Vector α width) : K :=
  rowLoss mode (row.toList.map (fun token => (term token, valid token)))

theorem totalLoss_tokenwise {α : Type} (mode : String) (term : α → K) (valid : α → Bool) (batch : List (Vector α width)) :
    totalLoss mode (tokenwise term valid batch) = (batch.map (rowTerm mode term valid)).sum := by
  rw [totalLoss, tokenwise, map_map]
  refine congrArg sum (map_congr_left ?_)
  intro row _
  rw [Function.comp_apply, Vector.toList_map]
  rfl

def withSides (config : ActorConfig K) (fields : Fields) (pgLoss entropyLoss klLoss : Option K) : Option K :=
  let policyLoss :=
    if fields.entropy then Option.map₂ (fun loss entropy => loss - config.entropyCoeff * entropy) pgLoss entropyLoss else pgLoss
  if config.useKlLoss then Option.map₂ (fun loss kl => loss + kl * config.klLossCoef) policyLoss klLoss else policyLoss

def SideMissing (config : ActorConfig K) (fields : Fields) (entropyLoss klLoss : Option K) : Prop :=
  (fields.entropy = true ∧ entropyLoss = none) ∨ (config.useKlLoss = true ∧ klLoss = none)

omit [Field K] [LinearOrder K] in
theorem map₂_cancel (combine : K → K → K) (cancel : ∀ a b c, combine a c = combine b c → a = b) (first second side : Option K) :
    Option.map₂ combine first side = Option.map₂ combine second side ↔ side = none ∨ first = second := by
  constructor
  · intro same
    cases side with
    | none => exact Or.inl rfl
    | some c =>
      right
      cases first with
      | none =>
        cases second with
        | none => rfl
        | some b => cases same
      | some a =>
        cases second with
        | none => cases same
        | some b => exact congrArg some (cancel a b c (Option.some.inj same))
  · intro held
    cases held with
    | inl missing => rw [missing, Option.map₂_none_right, Option.map₂_none_right]
    | inr same => rw [same]

omit [LinearOrder K] in
theorem withSides_cancel (config : ActorConfig K) (fields : Fields) (first second entropyLoss klLoss : Option K) :
    withSides config fields first entropyLoss klLoss = withSides config fields second entropyLoss klLoss ↔
      SideMissing config fields entropyLoss klLoss ∨ first = second := by
  have entropies := map₂_cancel (fun loss entropy => loss - config.entropyCoeff * entropy)
    (fun a b c same => sub_left_injective same) first second entropyLoss
  have kls := fun first second => map₂_cancel (fun loss kl => loss + kl * config.klLossCoef)
    (fun a b c same => add_right_cancel same) first second klLoss
  unfold withSides SideMissing
  cases fields.entropy with
  | false => cases config.useKlLoss <;> simp [kls]
  | true => cases config.useKlLoss <;> simp [entropies, kls, or_comm, or_left_comm]

/-- What the entropy or the KL loss of a global batch is over. -/
def sideDivisor (config : ActorConfig K) (width tokens size : Nat) : K :=
  normaliser width config.lossAggMode (tokens : K) (size : K) config.lossScaleFactor

def entropyTerm (config : ActorConfig K) : Vector (PpoToken K) width → K :=
  rowTerm config.lossAggMode PpoToken.entropy (fun token => token.valid)

def klTerm (f : Elementary K) (config : ActorConfig K) : Vector (PpoToken K) width → K :=
  rowTerm config.lossAggMode
    (fun token => klPenalty f token.logProb token.refLogProb config.klLossType config.straightThrough) (fun token => token.valid)

variable (f : Elementary K) (choices : BatchChoices K width) (config : ActorConfig K) (fields : Fields)

theorem ppoLoss_result (info : GlobalBatchInfo K) (data : BatchData) (batch : List (Vector (PpoToken K) width)) :
    (ppoLoss f choices config fields info data batch).1 = combinedLoss f choices config fields batch (batchInfo config data) := rfl

theorem combinedLoss_ok {batch : List (Vector (PpoToken K) width)} {ranks tokens size : Nat} {pgLoss : Option K}
    (policy : computePolicyLoss f choices config fields.rolloutIsWeights (batch.map (Vector.map PpoToken.toPolicyToken))
      (batchInfo config ⟨ranks, some tokens, some size⟩) = .ok pgLoss) :
    combinedLoss f choices config fields batch (batchInfo config ⟨ranks, some tokens, some size⟩) =
      .ok (withSides config fields pgLoss
        (quotient (sideDivisor config width tokens size) (batch.map (entropyTerm config)).sum ranks)
        (quotient (sideDivisor config width tokens size) (batch.map (klTerm f config)).sum ranks)) := by
  have sides := fun losses : List (Vector (K × Bool) width) =>
    aggregate_global losses config.validMode ranks tokens size config.lossScaleFactor
  simp only [combinedLoss, policy, Fallible.ok_bind]
  simp only [batchInfo, sides, totalLoss_tokenwise, Fallible.ok_bind, withSides, sideDivisor, entropyTerm, klTerm]
  cases fields.entropy <;> cases config.useKlLoss <;> rfl

theorem combinedLoss_error {batch : List (Vector (PpoToken K) width)} {info : GlobalBatchInfo K} {failure : LossFailure}
    (policy : computePolicyLoss f choices config fields.rolloutIsWeights (batch.map (Vector.map PpoToken.toPolicyToken)) info =
      .error failure) : combinedLoss f choices config fields batch info = .error failure := by
  rw [combinedLoss, policy]
  rfl

omit [LinearOrder K] in
theorem averaged_withSides {α : Type} {count : Nat} (pgLoss entropyLoss klLoss : Nat → List α → Option K)
    (row : Fin (count + 1) → α) (division : Division (count + 1)) :
    averaged (fun ranks batch => withSides config fields (pgLoss ranks batch) (entropyLoss ranks batch) (klLoss ranks batch))
        row division = withSides config fields (averaged pgLoss row division) (averaged entropyLoss row division)
        (averaged klLoss row division) := by
  have entropies := averaged_combined (fun loss entropy : K => loss - config.entropyCoeff * entropy) (by ring)
    (fun a b c d => by ring) (fun a b c => by ring) pgLoss entropyLoss row division
  have kls := fun pgLoss => averaged_combined (fun loss kl : K => loss + kl * config.klLossCoef) (by ring)
    (fun a b c d => by ring) (fun a b c => by ring) pgLoss klLoss row division
  unfold withSides
  cases fields.entropy <;> cases config.useKlLoss <;> simp [entropies, kls]

end Rows

/-! ### Training -/

section Training
variable {K α σ : Type} [Field K] {count : Nat} {loss : σ → BatchData → List α → Except LossFailure (Option K) × σ}
  {numTokens : α → Nat} {state : σ} {size : Option Nat} {row : Fin (count + 1) → α} {division : Division (count + 1)}

def allTokens (numTokens : α → Nat) (row : Fin (count + 1) → α) : Nat :=
  ((List.finRange (count + 1)).map (fun index => numTokens (row index))).sum

theorem batches_tokens : ((division.batches row).flatten.flatten.map numTokens).sum = allTokens numTokens row := by
  rw [division.batches_flatten, ← map_flatten, map_map]
  exact division.sum_rows _

theorem trainingLoss_ok (part : Nat → List α → Option K)
    (each : ∀ state microBatch, (loss state ⟨division.ranks.length, some (allTokens numTokens row), size⟩ microBatch).1 =
      .ok (part division.ranks.length microBatch)) :
    trainingLoss loss numTokens state size row division = .ok (averaged part row division) := by
  rw [← batches_tokens, ← division.batches_length row] at each
  rw [trainingLoss, forwardBackward_ok each, division.batches_flatten, division.batches_length, map_map]
  rfl

theorem trainingLoss_error {failure : LossFailure}
    (each : ∀ state microBatch, (loss state ⟨division.ranks.length, some (allTokens numTokens row), size⟩ microBatch).1 =
      .error failure) : trainingLoss loss numTokens state size row division = .error failure := by
  rw [← batches_tokens, ← division.batches_length row] at each
  rw [trainingLoss]
  apply forwardBackward_error _ each
  rw [division.batches_flatten, ne_eq, map_eq_nil_iff]
  exact division.present

end Training

/-! ### Rows of one value -/

section Constant
variable {K : Type} [Field K] [LinearOrder K] [IsStrictOrderedRing K] {width : Nat}

theorem tiny_pos : 0 < (TorchFunctional.tiny : K) := by
  rw [TorchFunctional.tiny]
  positivity

theorem maskedSum_constant (value : K) (mask : List Bool) :
    TorchFunctional.maskedSum (mask.map (fun valid => (value, valid))) = value * mask.count true := by
  induction mask with
  | nil => simp [TorchFunctional.maskedSum]
  | cons valid mask ih =>
    rw [TorchFunctional.maskedSum] at ih ⊢
    rw [map_cons, map_cons, sum_cons, ih]
    cases valid with
    | false => simp
    | true =>
      simp only [if_true, TorchFunctional.weight_true, count_cons_self]
      push_cast
      ring

theorem tokenSum_constant (value : K) (mask : List Bool) :
    tokenSum (mask.map (fun valid => (value, valid))) = value * mask.count true := by
  rw [← maskedSum_constant, tokenSum, TorchFunctional.maskedSum, map_map, map_map]
  refine congrArg sum (map_congr_left ?_)
  intro valid _
  cases valid <;> simp

theorem rowLoss_constant (mode : String) (value : K) (mask : List Bool) :
    rowLoss mode (mask.map (fun valid => (value, valid))) =
      if mode = "seq-mean-token-mean" then value * mask.count true / (mask.count true + TorchFunctional.tiny)
      else value * mask.count true := by
  have valids : (mask.map (fun valid => (value, valid))).map Prod.snd = mask := by
    rw [map_map]
    exact map_id mask
  rw [rowLoss, valids, maskedSum_constant, tokenSum_constant, maskSum_count]
  by_cases empty : mask.count true = 0
  · simp [empty]
  · have positive : (0 : K) < mask.count true := Nat.cast_pos.mpr (Nat.pos_of_ne_zero empty)
    by_cases tokens : mode = "token-mean"
    · simp [tokens]
    · simp [tokens, positive]

theorem rowLoss_zero (mode : String) (mask : List Bool) : rowLoss mode (mask.map (fun valid => ((0 : K), valid))) = 0 := by
  rw [rowLoss_constant]
  simp

theorem rowLoss_one (mode : String) {mask : List Bool} (live : true ∈ mask) :
    rowLoss mode (mask.map (fun valid => ((1 : K), valid))) ≠ 0 := by
  have positive : (0 : K) < mask.count true := Nat.cast_pos.mpr (count_pos_iff.mpr live)
  have larger : (0 : K) < mask.count true + TorchFunctional.tiny := add_pos positive tiny_pos
  rw [rowLoss_constant, one_mul]
  split
  · exact (div_pos positive larger).ne'
  · exact positive.ne'

end Constant

/-! ### The value loss -/

section Value
variable {K : Type} [Field K] [LinearOrder K] [IsStrictOrderedRing K] {width : Nat}

/-- What `agg_loss` counts of a batch in a mode, by the masks of its rows. -/
def modeCount (mode : String) (masks : List (Vector Bool width)) : Nat :=
  if mode = "token-mean" then (masks.map (fun mask => mask.toList.count true)).sum
  else masks.countP (fun mask => mask.toList.contains true)

theorem modeCount_pos (mode : String) (masks : List (Vector Bool width)) :
    0 < modeCount mode masks ↔ ∃ mask ∈ masks, true ∈ mask.toList := by
  unfold modeCount
  split
  · rw [List.sum_pos_iff_exists_pos_nat]
    simp only [mem_map, exists_exists_and_eq_and, count_pos_iff]
  · simp only [countP_pos_iff, contains_iff_mem]

def horizon (mode : String) (width : Nat) : K := if mode = "seq-mean-token-sum-norm" then width else 1

theorem horizon_ne (mode : String) {masks : List (Vector Bool width)} (counted : 0 < modeCount mode masks) :
    (horizon mode width : K) ≠ 0 := by
  obtain ⟨mask, _, live⟩ := (modeCount_pos mode masks).mp counted
  have positive : 0 < width := by
    rw [← mask.length_toList]
    exact length_pos_of_mem live
  unfold horizon
  split
  · exact Nat.cast_ne_zero.mpr positive.ne'
  · exact one_ne_zero

def valueMask (row : Vector (ValueToken K) width) : Vector Bool width := row.map ValueToken.valid

def valueSize (mode : String) (batch : List (Vector (ValueToken K) width)) : K :=
  modeCount mode (batch.map valueMask) * horizon mode width

def valueTerm (config : CriticConfig K) (row : Vector (ValueToken K) width) : K :=
  1 / (2 : Nat) * rowTerm config.lossAggMode (clippedVfLoss config.cliprangeValue) ValueToken.valid row

omit [Field K] [LinearOrder K] [IsStrictOrderedRing K] in
theorem tokenwise_masks (term : ValueToken K → K) (row : Vector (ValueToken K) width) :
    (row.map (fun token => (term token, token.valid))).toList.map Prod.snd = (valueMask row).toList := by
  rw [Vector.toList_map, map_map, valueMask, Vector.toList_map]
  rfl

omit [LinearOrder K] [IsStrictOrderedRing K] in
theorem value_divisor (mode : String) (term : ValueToken K → K) (batch : List (Vector (ValueToken K) width)) :
    normaliser width mode (countTokens (tokenwise term ValueToken.valid batch) : K)
      (countSequences (tokenwise term ValueToken.valid batch) : K) none = valueSize mode batch := by
  have tokens : countTokens (tokenwise term ValueToken.valid batch) =
      ((batch.map valueMask).map (fun mask => mask.toList.count true)).sum := by
    rw [countTokens, tokenwise, map_map, map_map]
    refine congrArg sum (map_congr_left ?_)
    intro row _
    rw [Function.comp_apply, tokenwise_masks]
    rfl
  have sequences : countSequences (tokenwise term ValueToken.valid batch) =
      (batch.map valueMask).countP (fun mask => mask.toList.contains true) := by
    rw [countSequences, tokenwise, countP_map, countP_map]
    refine countP_congr ?_
    intro row _
    rw [Function.comp_apply, tokenwise_masks]
    rfl
  rw [tokens, sequences, normaliser, valueSize, modeCount, horizon]
  by_cases isTokens : mode = "token-mean"
  · simp [isTokens]
  · by_cases isNorm : mode = "seq-mean-token-sum-norm" <;> simp [isTokens, isNorm]

theorem computeValueLoss_own (config : CriticConfig K) (accepted : config.lossAggMode ∈ validLossAggModes)
    (batch : List (Vector (ValueToken K) width)) : computeValueLoss config.cliprangeValue batch config.lossAggMode =
      .ok (ownQuotient (valueSize config.lossAggMode) (valueTerm config) batch) := by
  rw [computeValueLoss, aggregate_counted _ accepted, value_divisor, totalLoss_tokenwise, ownQuotient, quotient, quotient]
  by_cases empty : valueSize config.lossAggMode batch = 0
  · simp only [if_pos empty]
    rfl
  · simp only [if_neg empty]
    refine congrArg (fun loss => Except.ok (some loss)) ?_
    unfold valueTerm
    rw [sum_map_mul_left]
    ring

/-- A row whose tokens all have the loss of one value. -/
def valueRow (cliprangeValue value : K) (mask : Vector Bool width) : Vector (ValueToken K) width :=
  mask.map (fun valid => ⟨value, value + cliprangeValue, 0, valid⟩)

omit [IsStrictOrderedRing K] in
theorem valueRow_loss (cliprangeValue value : K) (valid : Bool) :
    clippedVfLoss cliprangeValue ⟨value, value + cliprangeValue, 0, valid⟩ = value ^ 2 := by
  have inside : clipByValue value (value + cliprangeValue - cliprangeValue) (value + cliprangeValue + cliprangeValue) = value := by
    rw [clipByValue, add_sub_cancel_right]
    exact max_eq_right (min_le_left _ _)
  simp only [clippedVfLoss, inside, sub_zero, max_self]

omit [LinearOrder K] [IsStrictOrderedRing K] in
theorem valueRow_mask (cliprangeValue value : K) (mask : Vector Bool width) : valueMask (valueRow cliprangeValue value mask) = mask := by
  rw [valueMask, valueRow, Vector.map_map]
  exact Vector.map_id mask

omit [IsStrictOrderedRing K] in
theorem valueTerm_row (config : CriticConfig K) (value : K) (mask : Vector Bool width) :
    valueTerm config (valueRow config.cliprangeValue value mask) =
      1 / (2 : Nat) * rowLoss config.lossAggMode (mask.toList.map (fun valid => (value ^ 2, valid))) := by
  rw [valueTerm, rowTerm, valueRow, Vector.toList_map, map_map]
  simp only [Function.comp_def, valueRow_loss]

variable {count : Nat}

/-- Every micro-batch has its share of what the mode counts. -/
def CountsShared (mode : String) (masks : Fin (count + 1) → Vector Bool width) (division : Division (count + 1)) : Prop :=
  ∀ microBatch ∈ division.ranks.flatten, division.ranks.length * modeCount mode (microBatch.map masks) =
    modeCount mode ((List.finRange (count + 1)).map masks)

section Counts
variable {mode : String} {masks : Fin (count + 1) → Vector Bool width}

theorem all_counted {microBatch : List (Fin (count + 1))} (counted : 0 < modeCount mode (microBatch.map masks)) :
    0 < modeCount mode ((finRange (count + 1)).map masks) := by
  rw [modeCount_pos] at counted ⊢
  obtain ⟨mask, member, live⟩ := counted
  obtain ⟨index, _, rfl⟩ := mem_map.mp member
  exact ⟨_, mem_map_of_mem (mem_finRange index), live⟩

variable {row : Fin (count + 1) → Vector (ValueToken K) width} (held : ∀ index, valueMask (row index) = masks index)
include held

omit [LinearOrder K] [IsStrictOrderedRing K] in
theorem valueSize_masks (microBatch : List (Fin (count + 1))) :
    valueSize mode (microBatch.map row) = modeCount mode (microBatch.map masks) * horizon mode width := by
  rw [valueSize, map_map]
  exact congrArg (fun masks => (modeCount mode masks : K) * horizon mode width) (map_congr_left (fun index _ => held index))

theorem valueSize_ne {microBatch : List (Fin (count + 1))} :
    (valueSize mode (microBatch.map row) : K) ≠ 0 ↔ 0 < modeCount mode (microBatch.map masks) := by
  rw [valueSize_masks held]
  constructor
  · intro nonzero
    apply Nat.pos_of_ne_zero
    intro empty
    exact nonzero (by rw [empty, Nat.cast_zero, zero_mul])
  · intro counted
    exact mul_ne_zero (Nat.cast_ne_zero.mpr counted.ne') (horizon_ne mode counted)

end Counts

variable {config : CriticConfig K} {masks : Fin (count + 1) → Vector Bool width} {division : Division (count + 1)}

theorem value_trained (accepted : config.lossAggMode ∈ validLossAggModes) (numTokens : Vector (ValueToken K) width → Nat)
    (size : Option Nat) (row : Fin (count + 1) → Vector (ValueToken K) width) (division : Division (count + 1)) :
    trainingLoss (valueLoss config) numTokens () size row division =
      .ok (averaged (fun _ => ownQuotient (valueSize config.lossAggMode) (valueTerm config)) row division) :=
  trainingLoss_ok (fun _ => ownQuotient (valueSize config.lossAggMode) (valueTerm config))
    (fun _ microBatch => computeValueLoss_own config accepted microBatch)

theorem value_agrees (shared : CountsShared config.lossAggMode masks division)
    {row : Fin (count + 1) → Vector (ValueToken K) width} (held : ∀ index, valueMask (row index) = masks index) :
    averaged (fun _ => ownQuotient (valueSize config.lossAggMode) (valueTerm config)) row division =
      averaged (fun _ => ownQuotient (valueSize config.lossAggMode) (valueTerm config)) row (Division.undivided count) := by
  by_cases empty : modeCount config.lossAggMode ((finRange (count + 1)).map masks) = 0
  · obtain ⟨microBatch, member⟩ := exists_mem_of_ne_nil _ division.present
    have nothing : ∀ part : List (Fin (count + 1)), modeCount config.lossAggMode (part.map masks) = 0 →
        ownQuotient (valueSize config.lossAggMode) (valueTerm config) (part.map row) = none := by
      intro part none_counted
      apply if_pos
      rw [valueSize_masks held, none_counted, Nat.cast_zero, zero_mul]
    have share := (shared microBatch member).trans empty
    rw [averaged_undivided, nothing _ empty]
    exact averaged_missing member (nothing _ ((Nat.mul_eq_zero.mp share).resolve_left division.ranks_pos.ne'))
  · have counted : ∀ microBatch ∈ division.ranks.flatten, 0 < modeCount config.lossAggMode (microBatch.map masks) := by
      intro microBatch member
      apply Nat.pos_of_ne_zero
      intro none_counted
      exact empty (by rw [← shared microBatch member, none_counted, Nat.mul_zero])
    apply own_agrees
    · exact fun microBatch member => (valueSize_ne held).mpr (counted microBatch member)
    · exact (valueSize_ne held).mpr (Nat.pos_of_ne_zero empty)
    · intro microBatch member
      right
      rw [valueSize_masks held, valueSize_masks held, ← shared microBatch member]
      push_cast
      ring

def valueRows (cliprangeValue : K) (masks : Fin (count + 1) → Vector Bool width) (item index : Fin (count + 1)) :
    Vector (ValueToken K) width :=
  valueRow cliprangeValue (if index = item then 1 else 0) (masks index)

theorem valueRows_single (masks : Fin (count + 1) → Vector Bool width) (item index : Fin (count + 1)) :
    valueTerm config (valueRows config.cliprangeValue masks item index) =
      if index = item then valueTerm config (valueRow config.cliprangeValue 1 (masks item)) else 0 := by
  unfold valueRows
  by_cases same : index = item
  · rw [if_pos same, if_pos same, same]
  · rw [if_neg same, if_neg same, valueTerm_row, zero_pow two_ne_zero, rowLoss_zero, mul_zero]

theorem value_shared
    (agree : ∀ row : Fin (count + 1) → Vector (ValueToken K) width, (∀ index, valueMask (row index) = masks index) →
      averaged (fun _ => ownQuotient (valueSize config.lossAggMode) (valueTerm config)) row division =
        averaged (fun _ => ownQuotient (valueSize config.lossAggMode) (valueTerm config)) row (Division.undivided count)) :
    CountsShared config.lossAggMode masks division := by
  have held : ∀ item index, valueMask (valueRows config.cliprangeValue masks item index) = masks index :=
    fun item index => valueRow_mask _ _ _
  intro microBatch member
  by_cases empty : modeCount config.lossAggMode ((finRange (count + 1)).map masks) = 0
  · rw [empty, Nat.mul_eq_zero]
    right
    by_contra counted
    exact (all_counted (Nat.pos_of_ne_zero counted)).ne' empty
  have whole := Nat.pos_of_ne_zero empty
  have counted : ∀ microBatch ∈ division.ranks.flatten, 0 < modeCount config.lossAggMode (microBatch.map masks) := by
    intro other inside
    apply Nat.pos_of_ne_zero
    intro none_counted
    have same := agree (valueRows config.cliprangeValue masks 0) (held 0)
    have missing : ownQuotient (valueSize config.lossAggMode) (valueTerm config)
        (other.map (valueRows config.cliprangeValue masks 0)) = none := by
      apply if_pos
      rw [valueSize_masks (held 0), none_counted, Nat.cast_zero, zero_mul]
    rw [averaged_missing inside missing, own_undivided ((valueSize_ne (held 0)).mpr whole)] at same
    cases same
  obtain ⟨mask, found, live⟩ := (modeCount_pos _ _).mp (counted microBatch member)
  obtain ⟨item, inside, rfl⟩ := mem_map.mp found
  have nonzero : valueTerm config (valueRow config.cliprangeValue 1 (masks item)) ≠ 0 := by
    rw [valueTerm_row, one_pow]
    exact mul_ne_zero (one_div_ne_zero (Nat.cast_ne_zero.mpr two_ne_zero)) (rowLoss_one _ live)
  have share := own_share (fun other within => (valueSize_ne (held item)).mpr (counted other within))
    ((valueSize_ne (held item)).mpr whole) nonzero (valueRows_single masks item) (agree _ (held item)) member inside
  rw [valueSize_masks (held item), valueSize_masks (held item), mul_right_comm] at share
  have counts := mul_right_cancel₀ (horizon_ne config.lossAggMode whole) share
  rw [Nat.mul_comm]
  exact_mod_cast counts

end Value

/-! ### The policy losses with the entropy and the KL loss -/

section Ppo
variable {K : Type} [Field K] [LinearOrder K] [IsStrictOrderedRing K] {width count : Nat} (f : Elementary K)
  (choices : BatchChoices K width) (config : ActorConfig K) (fields : Fields) (state : GlobalBatchInfo K) (size : Nat)

def ppoMask (row : Vector (PpoToken K) width) : Vector Bool width := row.map (fun token => token.valid)

/-- The mask of a row is its loss mask too. -/
def lossMaskTokens (row : Vector (PpoToken K) width) : Nat := (ppoMask row).toList.count true

theorem ppo_trained (pgLoss : Nat → List (Vector (PpoToken K) width) → Option K) (row : Fin (count + 1) → Vector (PpoToken K) width)
    (division : Division (count + 1))
    (policy : ∀ batch, computePolicyLoss f choices config fields.rolloutIsWeights (batch.map (Vector.map PpoToken.toPolicyToken))
      (batchInfo config ⟨division.ranks.length, some (allTokens lossMaskTokens row), some size⟩) =
        .ok (pgLoss division.ranks.length batch)) :
    trainingLoss (ppoLoss f choices config fields) lossMaskTokens state (some size) row division =
      .ok (withSides config fields (averaged pgLoss row division)
        (quotient (sideDivisor config width (allTokens lossMaskTokens row) size)
          (((finRange (count + 1)).map row).map (entropyTerm config)).sum 1)
        (quotient (sideDivisor config width (allTokens lossMaskTokens row) size)
          (((finRange (count + 1)).map row).map (klTerm f config)).sum 1)) := by
  have sides := fun term : Vector (PpoToken K) width → K =>
    (averaged_quotient (sideDivisor config width (allTokens lossMaskTokens row) size) term row division).trans
      (averaged_undivided _ row)
  rw [trainingLoss_ok (fun ranks batch => withSides config fields (pgLoss ranks batch)
      (quotient (sideDivisor config width (allTokens lossMaskTokens row) size) (batch.map (entropyTerm config)).sum ranks)
      (quotient (sideDivisor config width (allTokens lossMaskTokens row) size) (batch.map (klTerm f config)).sum ranks))
    (fun _ batch => combinedLoss_ok f choices config fields (policy batch)), averaged_withSides, sides, sides]

theorem ppo_agrees (alone : RowByRow choices config) (aggregated : config.lossMode ≠ .geoMean)
    (row : Fin (count + 1) → Vector (PpoToken K) width) (division : Division (count + 1)) :
    trainingLoss (ppoLoss f choices config fields) lossMaskTokens state (some size) row division =
      trainingLoss (ppoLoss f choices config fields) lossMaskTokens state (some size) row (Division.undivided count) := by
  cases policyLoss_rows f choices config alone aggregated fields.rolloutIsWeights with
  | inl fails =>
    obtain ⟨failure, fails⟩ := fails
    rw [trainingLoss_error (fun _ _ => combinedLoss_error f choices config fields (fails _ _)),
      trainingLoss_error (fun _ _ => combinedLoss_error f choices config fields (fails _ _))]
  | inr rows =>
    obtain ⟨mode, accepted, losses, rows⟩ := rows
    let pgLoss (ranks : Nat) (batch : List (Vector (PpoToken K) width)) : Option K :=
      quotient (normaliser width mode (allTokens lossMaskTokens row : K) (size : K) config.lossScaleFactor)
        (batch.map (fun row => rowLoss mode (losses (row.map PpoToken.toPolicyToken)).toList)).sum ranks
    have policy : ∀ ranks batch, computePolicyLoss f choices config fields.rolloutIsWeights
        (batch.map (Vector.map PpoToken.toPolicyToken))
        (batchInfo config ⟨ranks, some (allTokens lossMaskTokens row), some size⟩) = .ok (pgLoss ranks batch) := by
      intro ranks batch
      rw [rows, batchInfo, aggregate_global _ accepted, totalLoss, map_map, map_map]
      rfl
    rw [ppo_trained f choices config fields state size pgLoss row division (policy _),
      ppo_trained f choices config fields state size pgLoss row (Division.undivided count) (policy _), averaged_quotient]

/-! ### The mean over the sequences -/

/-- Every micro-batch with valid tokens has its share of the rows. -/
def RowsShared (masks : Fin (count + 1) → Vector Bool width) (division : Division (count + 1)) : Prop :=
  ∀ microBatch ∈ division.ranks.flatten, (∃ index ∈ microBatch, true ∈ (masks index).toList) →
    division.ranks.length * microBatch.length = count + 1

def geoTerm (row : Vector (PpoToken K) width) : K :=
  geoMeanTerm f config.toClipConfig fields.rolloutIsWeights (row.map PpoToken.toPolicyToken)

def rowCount (batch : List (Vector (PpoToken K) width)) : K := batch.length

theorem geoMean_own (batch : List (Vector (PpoToken K) width)) :
    computePolicyLossGeoMean f config.toClipConfig fields.rolloutIsWeights (batch.map (Vector.map PpoToken.toPolicyToken)) =
      ownQuotient rowCount (geoTerm f config fields) batch := by
  rw [computePolicyLossGeoMean, ownQuotient, quotient, rowCount]
  cases batch with
  | nil => simp
  | cons row rest =>
    have some_rows : ((row :: rest).length : K) ≠ 0 := Nat.cast_ne_zero.mpr (length_pos_of_mem mem_cons_self).ne'
    rw [map_cons, if_neg (cons_ne_nil _ _), ← map_cons, if_neg some_rows, mean, map_map, length_map,
      Nat.cast_one, mul_one]
    rfl

omit [LinearOrder K] [IsStrictOrderedRing K] in
theorem sequenceSum_masked {row : Vector (PolicyToken K) width} (masked : true ∉ (row.map PolicyToken.valid).toList)
    (term : PolicyToken K → K) : sequenceSum term row = 0 := by
  rw [sequenceSum]
  apply sum_eq_zero
  intro number member
  obtain ⟨token, found, rfl⟩ := mem_map.mp member
  cases valid : token.valid with
  | false => exact mul_zero _
  | true =>
    refine absurd ?_ masked
    rw [Vector.toList_map, ← valid]
    exact mem_map_of_mem found

omit [IsStrictOrderedRing K] in
theorem geoTerm_zero {row : Vector (PpoToken K) width}
    (nothing : sequenceSum PolicyToken.advantage (row.map PpoToken.toPolicyToken) = 0) : geoTerm f config fields row = 0 := by
  unfold geoTerm geoMeanTerm sequenceMean
  rw [nothing]
  simp

theorem geoTerm_ne (positive : ∀ x, f.exp x ≠ 0) {row : Vector (PpoToken K) width}
    (something : sequenceSum PolicyToken.advantage (row.map PpoToken.toPolicyToken) ≠ 0) : geoTerm f config fields row ≠ 0 := by
  have larger : (0 : K) < responseLength (row.map PpoToken.toPolicyToken) + TorchFunctional.tiny := by
    rw [responseLength, maskSum_count]
    exact add_pos_of_nonneg_of_pos (Nat.cast_nonneg _) tiny_pos
  have loss : -sequenceMean PolicyToken.advantage (row.map PpoToken.toPolicyToken) *
      f.exp (sequenceMean (negativeApproxKlMin config.toClipConfig) (row.map PpoToken.toPolicyToken)) ≠ 0 :=
    mul_ne_zero (neg_ne_zero.mpr (div_ne_zero something larger.ne')) (positive _)
  unfold geoTerm geoMeanTerm
  cases fields.rolloutIsWeights with
  | false => exact loss
  | true => exact mul_ne_zero loss (positive _)

variable {masks : Fin (count + 1) → Vector Bool width} {division : Division (count + 1)}

theorem rowCount_ne (row : Fin (count + 1) → Vector (PpoToken K) width) :
    ∀ microBatch ∈ division.ranks.flatten, (rowCount (microBatch.map row) : K) ≠ 0 := by
  intro microBatch member
  rw [rowCount, length_map]
  exact Nat.cast_ne_zero.mpr (length_pos_of_ne_nil (division.nonempty _ member)).ne'

theorem geo_agrees (shared : RowsShared masks division) {row : Fin (count + 1) → Vector (PpoToken K) width}
    (held : ∀ index, ppoMask (row index) = masks index) :
    averaged (fun _ => ownQuotient rowCount (geoTerm f config fields)) row division =
      averaged (fun _ => ownQuotient rowCount (geoTerm f config fields)) row (Division.undivided count) := by
  apply own_agrees (rowCount_ne row)
  · rw [rowCount, length_map, length_finRange]
    exact Nat.cast_ne_zero.mpr count.succ_ne_zero
  · intro microBatch member
    by_cases live : ∃ index ∈ microBatch, true ∈ (masks index).toList
    · right
      rw [rowCount, rowCount, length_map, length_map, length_finRange, mul_comm]
      exact_mod_cast shared microBatch member live
    · left
      intro index inside
      apply geoTerm_zero
      apply sequenceSum_masked
      rw [Vector.map_map]
      intro found
      exact live ⟨index, inside, held index ▸ found⟩

def policyRow (advantage : K) (mask : Vector Bool width) : Vector (PpoToken K) width :=
  mask.map (fun valid => ⟨⟨0, 0, advantage, 0, valid⟩, 0, 0⟩)

omit [LinearOrder K] [IsStrictOrderedRing K] in
theorem policyRow_mask (advantage : K) (mask : Vector Bool width) : ppoMask (policyRow advantage mask) = mask := by
  rw [ppoMask, policyRow, Vector.map_map]
  exact Vector.map_id mask

theorem policyRow_sum (advantage : K) (mask : Vector Bool width) :
    sequenceSum PolicyToken.advantage ((policyRow advantage mask).map PpoToken.toPolicyToken) =
      advantage * mask.toList.count true := by
  rw [← tokenSum_constant, sequenceSum, policyRow, Vector.map_map, Vector.toList_map, map_map, tokenSum, map_map]
  rfl

theorem geo_shared (positive : ∀ x, f.exp x ≠ 0)
    (agree : ∀ row : Fin (count + 1) → Vector (PpoToken K) width, (∀ index, ppoMask (row index) = masks index) →
      averaged (fun _ => ownQuotient rowCount (geoTerm f config fields)) row division =
        averaged (fun _ => ownQuotient rowCount (geoTerm f config fields)) row (Division.undivided count)) :
    RowsShared masks division := by
  rintro microBatch member ⟨item, inside, live⟩
  have held : ∀ index, ppoMask (policyRow (if index = item then (1 : K) else 0) (masks index)) = masks index :=
    fun index => policyRow_mask _ _
  have nonzero : geoTerm f config fields (policyRow 1 (masks item)) ≠ 0 := by
    apply geoTerm_ne f config fields positive
    rw [policyRow_sum, one_mul]
    exact Nat.cast_ne_zero.mpr (count_pos_iff.mpr live).ne'
  have single : ∀ index, geoTerm f config fields (policyRow (if index = item then (1 : K) else 0) (masks index)) =
      if index = item then geoTerm f config fields (policyRow 1 (masks item)) else 0 := by
    intro index
    by_cases same : index = item
    · rw [if_pos same, if_pos same, same]
    · rw [if_neg same, if_neg same]
      apply geoTerm_zero
      rw [policyRow_sum, zero_mul]
  have whole : (rowCount ((finRange (count + 1)).map
      (fun index => policyRow (if index = item then (1 : K) else 0) (masks index))) : K) ≠ 0 := by
    rw [rowCount, length_map, length_finRange]
    exact Nat.cast_ne_zero.mpr count.succ_ne_zero
  have share := own_share (rowCount_ne _) whole nonzero single (agree _ held) member inside
  rw [rowCount, rowCount, length_map, length_map, length_finRange] at share
  rw [Nat.mul_comm]
  exact_mod_cast share

/-- The valid tokens of a mini-batch with these masks. -/
def maskTokens (masks : Fin (count + 1) → Vector Bool width) : Nat :=
  ((List.finRange (count + 1)).map (fun index => (masks index).toList.count true)).sum

/-- What the policy losses need of a division: all but one need nothing. That one may also come with
another loss over a zero, and then no loss is a number. -/
def PolicyShared (masks : Fin (count + 1) → Vector Bool width) (division : Division (count + 1)) : Prop :=
  config.lossMode = .geoMean →
    RowsShared masks division ∨
      ((fields.entropy = true ∨ config.useKlLoss = true) ∧ sideDivisor config width (maskTokens masks) size = 0)

theorem geo_trained (isGeoMean : config.lossMode = .geoMean) (row : Fin (count + 1) → Vector (PpoToken K) width)
    (division : Division (count + 1)) :
    trainingLoss (ppoLoss f choices config fields) lossMaskTokens state (some size) row division =
      .ok (withSides config fields (averaged (fun _ => ownQuotient rowCount (geoTerm f config fields)) row division)
        (quotient (sideDivisor config width (allTokens lossMaskTokens row) size)
          (((finRange (count + 1)).map row).map (entropyTerm config)).sum 1)
        (quotient (sideDivisor config width (allTokens lossMaskTokens row) size)
          (((finRange (count + 1)).map row).map (klTerm f config)).sum 1)) := by
  apply ppo_trained f choices config fields state size (fun _ => ownQuotient rowCount (geoTerm f config fields)) row division
  intro batch
  simp only [computePolicyLoss, isGeoMean, geoMean_own]

theorem policy_iff (positive : ∀ x, f.exp x ≠ 0) (alone : RowByRow choices config) :
    (∀ row : Fin (count + 1) → Vector (PpoToken K) width, (∀ index, ppoMask (row index) = masks index) →
      trainingLoss (ppoLoss f choices config fields) lossMaskTokens state (some size) row division =
        trainingLoss (ppoLoss f choices config fields) lossMaskTokens state (some size) row (Division.undivided count)) ↔
      PolicyShared config fields size masks division := by
  by_cases isGeoMean : config.lossMode = .geoMean
  · have missing_iff : ∀ sum : K, quotient (sideDivisor config width (maskTokens masks) size) sum 1 = none ↔
        sideDivisor config width (maskTokens masks) size = 0 := by
      intro sum
      rw [quotient]
      split <;> simp_all
    have each : ∀ row : Fin (count + 1) → Vector (PpoToken K) width, (∀ index, ppoMask (row index) = masks index) →
        (trainingLoss (ppoLoss f choices config fields) lossMaskTokens state (some size) row division =
          trainingLoss (ppoLoss f choices config fields) lossMaskTokens state (some size) row (Division.undivided count) ↔
        ((fields.entropy = true ∨ config.useKlLoss = true) ∧ sideDivisor config width (maskTokens masks) size = 0) ∨
          averaged (fun _ => ownQuotient rowCount (geoTerm f config fields)) row division =
            averaged (fun _ => ownQuotient rowCount (geoTerm f config fields)) row (Division.undivided count)) := by
      intro row held
      have tokens : allTokens lossMaskTokens row = maskTokens masks :=
        congrArg sum (map_congr_left (fun index _ => congrArg (fun mask => mask.toList.count true) (held index)))
      rw [geo_trained f choices config fields state size isGeoMean, geo_trained f choices config fields state size isGeoMean,
        Except.ok.injEq, withSides_cancel, SideMissing, tokens, missing_iff, missing_iff, ← or_and_right]
    constructor
    · intro agree _
      by_cases missing : (fields.entropy = true ∨ config.useKlLoss = true) ∧ sideDivisor config width (maskTokens masks) size = 0
      · exact Or.inr missing
      · left
        apply geo_shared f config fields positive
        exact fun row held => ((each row held).mp (agree row held)).resolve_left missing
    · intro shared row held
      apply (each row held).mpr
      cases shared isGeoMean with
      | inl rows => exact Or.inr (geo_agrees f config fields rows held)
      | inr missing => exact Or.inl missing
  · constructor
    · exact fun _ same => absurd same isGeoMean
    · exact fun _ row _ => ppo_agrees f choices config fields state size alone isGeoMean row division

/-- A division changes the value loss of no rows with these masks exactly where every micro-batch
has its share of the counts, and a policy loss never, but for the mean over the sequences. -/
theorem training_loss_undivided_iff (positive : ∀ x, f.exp x ≠ 0) (masks : Fin (count + 1) → Vector Bool width)
    (division : Division (count + 1)) :
    (∀ (config : CriticConfig K) numTokens globalBatchSize,
      (∀ row : Fin (count + 1) → Vector (ValueToken K) width, (∀ index, valueMask (row index) = masks index) →
        trainingLoss (valueLoss config) numTokens () globalBatchSize row division =
          trainingLoss (valueLoss config) numTokens () globalBatchSize row (Division.undivided count)) ↔
      (config.lossAggMode ∈ validLossAggModes → CountsShared config.lossAggMode masks division)) ∧
    (∀ (choices : BatchChoices K width) (config : ActorConfig K) fields state globalBatchSize, RowByRow choices config →
      ((∀ row : Fin (count + 1) → Vector (PpoToken K) width, (∀ index, ppoMask (row index) = masks index) →
        trainingLoss (ppoLoss f choices config fields) lossMaskTokens state (some globalBatchSize) row division =
          trainingLoss (ppoLoss f choices config fields) lossMaskTokens state (some globalBatchSize) row
            (Division.undivided count)) ↔
      PolicyShared config fields globalBatchSize masks division)) := by
  constructor
  · intro config numTokens globalBatchSize
    by_cases accepted : config.lossAggMode ∈ validLossAggModes
    · simp only [value_trained accepted, Except.ok.injEq]
      constructor
      · exact fun agree _ => value_shared agree
      · exact fun shared row held => value_agrees (shared accepted) held
    · constructor
      · exact fun _ valid => absurd valid accepted
      · intro _ row _
        have fails : ∀ batch : List (Vector (ValueToken K) width), computeValueLoss config.cliprangeValue batch config.lossAggMode =
            .error (.aggregation (.invalidMode config.lossAggMode)) := by
          intro batch
          rw [computeValueLoss, aggregate_invalid _ accepted]
          rfl
        rw [trainingLoss_error (fun _ _ => fails _), trainingLoss_error (fun _ _ => fails _)]
  · intro choices config fields state globalBatchSize alone
    exact policy_iff f choices config fields state globalBatchSize positive alone

end Ppo

/-! ### Two rows -/

theorem pair_nonempty : ∀ microBatch ∈ ([[0], [1]] : List (List (Fin 2))), microBatch ≠ [] := by simp

theorem pair_covers : [[0, 1]].flatten.Perm (finRange 2) := List.Perm.refl _

/-- A rank for each of two rows. -/
def twoRanks : Division 2 := ⟨[[[0]], [[1]]], pair_nonempty, pair_covers⟩

/-- A micro-batch for each of two rows, on one rank. -/
def twoMicroBatches : Division 2 := ⟨[[[0], [1]]], pair_nonempty, pair_covers⟩

def pairMasks (_ : Fin 2) : Vector Bool 1 := #v[true]

/-- The functions at the logarithm of one. -/
def atOne : Elementary ℚ := ⟨fun _ => 1, fun _ => 0, fun _ => 1 / 2⟩

/-- One prediction is wrong by one. -/
def pairValues (index : Fin 2) : Vector (ValueToken ℚ) 1 := valueRow (1 / 2) (if index = 0 then 1 else 0) #v[true]

theorem training_loss_two_ranks :
    trainingLoss (valueLoss ⟨1 / 2, "token-mean"⟩) (fun _ => 1) () (some 2) pairValues twoRanks =
      trainingLoss (valueLoss ⟨1 / 2, "token-mean"⟩) (fun _ => 1) () (some 2) pairValues (Division.undivided 1) := by
  have positive : ∀ x, atOne.exp x ≠ 0 := fun _ => one_ne_zero
  have shared : CountsShared "token-mean" pairMasks twoRanks := by
    intro microBatch member
    have cases : microBatch = [0] ∨ microBatch = [1] := by simpa [twoRanks] using member
    rcases cases with rfl | rfl <;> rfl
  exact ((training_loss_undivided_iff atOne positive pairMasks twoRanks).1 ⟨1 / 2, "token-mean"⟩ (fun _ => 1) (some 2)).mpr
    (fun _ => shared) pairValues (fun _ => valueRow_mask _ _ _)

/-- The critic sums the means of its micro-batches. -/
theorem value_loss_doubled :
    trainingLoss (valueLoss ⟨1 / 2, "token-mean"⟩) (fun _ => 1) () (some 2) pairValues twoMicroBatches ≠
      trainingLoss (valueLoss ⟨1 / 2, "token-mean"⟩) (fun _ => 1) () (some 2) pairValues (Division.undivided 1) := by
  decide +kernel

end LLMFusion.Losses
