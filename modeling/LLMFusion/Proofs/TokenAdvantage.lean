import LLMFusion.CoreAlgos
import LLMFusion.Lib.Fallible
import LLMFusion.Lib.Masking

/-! Advantages and returns that are carried from the last token of a response to the first. One
estimator skips the observation tokens; the other starts again before them. -/

namespace LLMFusion.CoreAlgos
open List hiding Vector
open TorchFunctional Masking Fallible

/-! ### Whitening -/

section Whitening
variable {K : Type} [Field K] [LinearOrder K] [IsStrictOrderedRing K]

theorem maskSum_count (mask : List Bool) : maskSum mask = (mask.count true : K) := by
  induction mask with
  | nil => simp [maskSum]
  | cons valid mask ih =>
    rw [maskSum, map_cons, sum_cons, ← maskSum, ih]
    cases valid with
    | true => simp [add_comm]
    | false => simp

theorem maskedVar_succeeds (entries : List (K × Bool)) :
    (∃ variance, maskedVar entries true = .ok variance) ↔ 2 ≤ (entries.map Prod.snd).count true := by
  have zero : ((entries.map Prod.snd).count true : K) = 0 ↔ (entries.map Prod.snd).count true = 0 :=
    Nat.cast_eq_zero
  have one : ((entries.map Prod.snd).count true : K) = 1 ↔ (entries.map Prod.snd).count true = 1 :=
    Nat.cast_eq_one
  simp only [maskedVar, if_true, maskSum_count, zero, one]
  generalize (entries.map Prod.snd).count true = valid
  by_cases none : valid = 0
  · simp only [none, if_true]
    exact iff_of_false (by rintro ⟨_, returned⟩; cases returned) (by omega)
  · by_cases single : valid = 1
    · simp only [single, if_true]
      exact iff_of_false (by rintro ⟨_, returned⟩; cases returned) (by omega)
    · simp only [none, single, if_false]
      exact iff_of_true ⟨_, rfl⟩ (by omega)

theorem maskedWhiten_succeeds (rsqrt : K → K) (rows : List (List (K × Bool))) (shiftMean : Bool) :
    (∃ whitened, maskedWhiten rsqrt rows shiftMean = .ok whitened) ↔ 2 ≤ (rows.flatten.map Prod.snd).count true := by
  rw [← maskedVar_succeeds, maskedWhiten]
  cases maskedVar rows.flatten true with
  | error error => simp
  | ok variance => exact iff_of_true ⟨_, rfl⟩ ⟨variance, rfl⟩

theorem whiten_succeeds {τ : Type} (rsqrt : K → K) (valid : τ → Bool) {values : List τ → List K}
    (length : ∀ row, (values row).length = row.length) (rows : List (List τ)) : (∃ whitened, maskedWhiten rsqrt
        (zipWith (zipWith (fun value token => (value, valid token))) (rows.map values) rows) true = .ok whitened) ↔
      2 ≤ (rows.flatMap (List.map valid)).count true := by
  have masks : (zipWith (zipWith (fun value token => (value, valid token))) (rows.map values) rows).flatten.map
      Prod.snd = rows.flatMap (List.map valid) := by
    rw [map_flatten, flatMap_def, zipWith_map_left, zipWith_self, map_map]
    congr 1
    apply map_congr_left
    intro row _
    rw [Function.comp_apply, map_zipWith]
    apply ext_getElem (by simp [length row])
    intro i _ _
    simp
  rw [maskedWhiten_succeeds, masks]

end Whitening

/-! ### Skipping observation tokens -/

section Gae
variable {K : Type} [Field K] {width : Nat}

/-- The mask of a row. -/
def maskOf (row : List (ValuedToken K)) : List Bool := row.map (fun token => token.valid)

/-- The valid tokens alone. -/
def compacted (row : List (ValuedToken K)) : List (ValuedToken K) := row.filter (fun token => token.valid)

/-- The value of the first token, or zero behind the last. -/
def nextValue : List (ValuedToken K) → K
  | [] => 0
  | token :: _ => token.value

/-- Generalised advantages of a sequence without a mask. -/
def plainGae (gamma lam : K) : List (ValuedToken K) → List K
  | [] => []
  | token :: rest =>
    let delta := token.reward + gamma * nextValue rest - token.value
    let advantages := plainGae gamma lam rest
    (delta + gamma * lam * advantages.headD 0) :: advantages

/-- What the loop has reached: the value and the advantage of the next valid token, and an advantage
for every token, of which the valid ones are plain. -/
structure Reached (gamma lam : K) (row : List (ValuedToken K)) (state : GaeState K) : Prop where
  nextvalues : state.nextvalues = nextValue (compacted row)
  lastgaelam : state.lastgaelam = (plainGae gamma lam (compacted row)).headD 0
  length : state.advantages.length = row.length
  valid : select (maskOf row) state.advantages = plainGae gamma lam (compacted row)

theorem Reached.step {gamma lam : K} {row : List (ValuedToken K)} {state : GaeState K}
    (reached : Reached gamma lam row state) (token : ValuedToken K) :
    Reached gamma lam (token :: row) (gaeStep gamma lam token state) := by
  cases isValid : token.valid with
  | true =>
    have kept : compacted (token :: row) = token :: compacted row := by simp [compacted, isValid]
    have advantage : (gaeStep gamma lam token state).lastgaelam =
        (plainGae gamma lam (token :: compacted row)).headD 0 := by
      simp only [gaeStep, isValid, weight_true, plainGae, headD_cons, reached.nextvalues, reached.lastgaelam]
      ring
    refine ⟨?_, ?_, congrArg Nat.succ reached.length, ?_⟩
    · rw [kept]
      simp [gaeStep, isValid, nextValue]
    · rw [kept, advantage]
    · have selected : select (maskOf (token :: row)) (gaeStep gamma lam token state).advantages =
          (gaeStep gamma lam token state).lastgaelam :: select (maskOf row) state.advantages := by
        rw [maskOf, map_cons, isValid]
        rfl
      rw [selected, advantage, reached.valid, kept]
      rfl
  | false =>
    have skipped : compacted (token :: row) = compacted row := by simp [compacted, isValid]
    refine ⟨?_, ?_, congrArg Nat.succ reached.length, ?_⟩
    · rw [skipped, ← reached.nextvalues]
      simp [gaeStep, isValid]
    · rw [skipped, ← reached.lastgaelam]
      simp [gaeStep, isValid]
    · rw [skipped, ← reached.valid, maskOf, map_cons, isValid]
      rfl

theorem gae_reached (gamma lam : K) (row : List (ValuedToken K)) :
    Reached gamma lam row (row.foldr (gaeStep gamma lam) ⟨0, 0, []⟩) := by
  induction row with
  | nil => exact ⟨rfl, rfl, rfl, rfl⟩
  | cons token row ih => exact ih.step token

theorem gaeAdvantages_length (gamma lam : K) (row : List (ValuedToken K)) :
    (gaeAdvantages gamma lam row).length = row.length := (gae_reached gamma lam row).length

theorem gaeAdvantages_valid (gamma lam : K) (row : List (ValuedToken K)) :
    select (maskOf row) (gaeAdvantages gamma lam row) = plainGae gamma lam (compacted row) :=
  (gae_reached gamma lam row).valid

/-- The returns of a sequence without a mask. -/
def plainReturns (gamma lam : K) (row : List (ValuedToken K)) : List K :=
  List.zipWith (fun advantage token => advantage + token.value) (plainGae gamma lam row) row

theorem gaeReturns_valid (gamma lam : K) (row : List (ValuedToken K)) :
    select (maskOf row) (zipWith (fun advantage token => advantage + token.value) (gaeAdvantages gamma lam row) row) =
      plainReturns gamma lam (compacted row) := by
  rw [select_zipWith _ (gaeAdvantages_length gamma lam row), gaeAdvantages_valid, maskOf, select_filter]
  rfl

/-- What the valid tokens of a batch have of a matrix. -/
def atValid (batch : List (Vector (ValuedToken K) width)) (rows : List (List K)) : List (List K) :=
  List.zipWith (fun row values => select (maskOf row.toList) values) batch rows

/-- The valid tokens are the same, in the same places. -/
def SameValid (batch batch' : List (Vector (ValuedToken K) width)) : Prop :=
  batch.map (fun row => maskOf row.toList) = batch'.map (fun row => maskOf row.toList) ∧
    batch.map (fun row => compacted row.toList) = batch'.map (fun row => compacted row.toList)

omit [Field K] in
theorem atValid_map {f : List (ValuedToken K) → List K} {plain : List (ValuedToken K) → List K}
    (same : ∀ row, select (maskOf row) (f row) = plain (compacted row)) (batch : List (Vector (ValuedToken K) width)) :
    atValid batch (batch.map (fun row => f row.toList)) = batch.map (fun row => plain (compacted row.toList)) := by
  rw [atValid, zipWith_map_right, zipWith_self]
  exact map_congr_left (fun row _ => same row.toList)

omit [Field K] in
theorem SameValid.map {α : Type} {batch batch' : List (Vector (ValuedToken K) width)} (same : SameValid batch batch')
    (plain : List (ValuedToken K) → α) : batch.map (fun row => plain (compacted row.toList)) =
        batch'.map (fun row => plain (compacted row.toList)) := by
  have mapped := congrArg (List.map plain) same.2
  rwa [map_map, map_map] at mapped

variable [LinearOrder K] [IsStrictOrderedRing K]

omit [IsStrictOrderedRing K] in
theorem computeGae_returns (rsqrt : K → K) (batch : List (Vector (ValuedToken K) width)) (gamma lam : K)
    {result : List (List K) × List (List K)} (returned : computeGaeAdvantageReturn rsqrt batch gamma lam = .ok result) :
    result.2 = batch.map (fun row => zipWith (fun advantage token => advantage + token.value)
          (gaeAdvantages gamma lam row.toList) row.toList) := by
  rw [computeGaeAdvantageReturn] at returned
  split at returned
  · cases returned
  · obtain ⟨whitened, _, returned⟩ := bind_eq_ok.mp returned
    cases returned
    simp only [map_map, zipWith_map, zipWith_self, Function.comp_def]

theorem computeGae_succeeds (rsqrt : K → K) (batch : List (Vector (ValuedToken K) width)) (gamma lam : K) :
    (∃ result, computeGaeAdvantageReturn rsqrt batch gamma lam = .ok result) ↔
      2 ≤ (batch.flatMap (fun row => maskOf row.toList)).count true := by
  have whitened := whiten_succeeds rsqrt (fun token : ValuedToken K => token.valid)
    (gaeAdvantages_length gamma lam)
    (batch.map Vector.toList)
  rw [flatMap_map] at whitened
  rw [computeGaeAdvantageReturn]
  by_cases empty : width = 0
  · subst empty
    have none : batch.flatMap (fun row => maskOf row.toList) = [] := by
      simp [flatMap_eq_nil_iff, maskOf]
    rw [if_pos rfl, none]
    exact iff_of_false (by rintro ⟨_, returned⟩; cases returned) (by simp)
  · rw [if_neg empty]
    refine Iff.trans ?_ whitened
    constructor
    · rintro ⟨result, returned⟩
      obtain ⟨advantages, made, _⟩ := bind_eq_ok.mp returned
      exact ⟨advantages, made⟩
    · rintro ⟨advantages, made⟩
      exact ⟨_, bind_eq_ok.mpr ⟨advantages, made, rfl⟩⟩

omit [IsStrictOrderedRing K] in
theorem gaeReturns_atValid {rsqrt : K → K} {batch : List (Vector (ValuedToken K) width)} {gamma lam : K}
    {result : List (List K) × List (List K)} (returned : computeGaeAdvantageReturn rsqrt batch gamma lam = .ok result) :
    atValid batch result.2 = batch.map (fun row => plainReturns gamma lam (compacted row.toList)) := by
  rw [computeGae_returns rsqrt batch gamma lam returned]
  exact atValid_map (gaeReturns_valid gamma lam) batch

/-- The returns at valid tokens, and the advantages before they are whitened, are those of the valid
tokens alone, whatever stands at masked ones. -/
theorem gae_compacted (rsqrt : K → K) (batch : List (Vector (ValuedToken K) width)) (gamma lam : K) :
    atValid batch (batch.map (fun row => gaeAdvantages gamma lam row.toList)) =
        batch.map (fun row => plainGae gamma lam (compacted row.toList)) ∧
      ((∃ result, computeGaeAdvantageReturn rsqrt batch gamma lam = .ok result) ↔
        2 ≤ (batch.flatMap (fun row => maskOf row.toList)).count true) ∧
      (∀ result, computeGaeAdvantageReturn rsqrt batch gamma lam = .ok result →
        atValid batch result.2 = batch.map (fun row => plainReturns gamma lam (compacted row.toList))) ∧
      ∀ batch', SameValid batch batch' →
        atValid batch (batch.map (fun row => gaeAdvantages gamma lam row.toList)) =
          atValid batch' (batch'.map (fun row => gaeAdvantages gamma lam row.toList)) ∧
        ∀ result result', computeGaeAdvantageReturn rsqrt batch gamma lam = .ok result →
          computeGaeAdvantageReturn rsqrt batch' gamma lam = .ok result' →
              atValid batch result.2 = atValid batch' result'.2 := by
  refine ⟨atValid_map (gaeAdvantages_valid gamma lam) batch, computeGae_succeeds rsqrt batch gamma lam,
    fun _ => gaeReturns_atValid, ?_⟩
  intro batch' same
  constructor
  · rw [atValid_map (gaeAdvantages_valid gamma lam), atValid_map (gaeAdvantages_valid gamma lam),
      same.map (plainGae gamma lam)]
  · intro result result' returned returned'
    rw [gaeReturns_atValid returned, gaeReturns_atValid returned', same.map (plainReturns gamma lam)]

/-- A token of each of two turns, with an observation token between them. -/
def turns (value : ℚ) : List (Vector (ValuedToken ℚ) 3) :=
  [#v[⟨⟨0, true⟩, 1⟩, ⟨⟨5, false⟩, value⟩, ⟨⟨2, true⟩, 1⟩]]

theorem gae_compacted_turns :
    ∃ result, computeGaeAdvantageReturn id (turns 7) 1 1 = .ok result ∧ atValid (turns 7) result.2 = [[2, 2]] ∧
      ∃ result', computeGaeAdvantageReturn id (turns 9) 1 1 = .ok result' ∧
        atValid (turns 7) result.2 = atValid (turns 9) result'.2 := by
  obtain ⟨-, succeeds, plain, same⟩ := gae_compacted id (turns 7) 1 1
  obtain ⟨-, succeeds', -, -⟩ := gae_compacted id (turns 9) 1 1
  obtain ⟨result, returned⟩ := succeeds.mpr (by decide)
  obtain ⟨result', returned'⟩ := succeeds'.mpr (by decide)
  refine ⟨result, returned, ?_, result', returned',
    (same (turns 9) ⟨rfl, rfl⟩).2 result result' returned returned'⟩
  rw [plain result returned]
  norm_num [turns, compacted, plainReturns, plainGae, nextValue]

omit [LinearOrder K] [IsStrictOrderedRing K] in
theorem plainReturns_one (gamma : K) (row : List (ValuedToken K)) (valid : ∀ token ∈ row, token.valid = true) :
    plainReturns gamma 1 row = reinforceReturns gamma (row.map ValuedToken.toToken) ∧
      nextValue row + (plainGae gamma 1 row).headD 0 =
        ((row.map ValuedToken.toToken).foldr (reinforceStep gamma) ⟨0, []⟩).runningReturn := by
  induction row with
  | nil => exact ⟨rfl, add_zero 0⟩
  | cons token row ih =>
    obtain ⟨returns, running⟩ := ih (fun other member => valid other (mem_cons_of_mem _ member))
    have first : token.toToken.valid = true := valid token mem_cons_self
    rw [plainReturns] at returns
    simp only [reinforceReturns] at returns ⊢
    simp only [plainReturns, plainGae, nextValue, zipWith_cons_cons, map_cons, foldr_cons, reinforceStep,
      headD_cons, returns,
      ← running, first, weight_true, cons.injEq, and_true]
    constructor <;> ring

/-- With `lam = 1` the returns of the valid tokens are those that the other estimator gives them without observation tokens. -/
theorem computeGae_one_iff (rsqrt : K → K) (batch : List (Vector (ValuedToken K) width)) (gamma : K) :
    (∃ result, computeGaeAdvantageReturn rsqrt batch gamma 1 = .ok result ∧ atValid batch result.2 =
      batch.map (fun row => reinforceReturns gamma ((compacted row.toList).map ValuedToken.toToken))) ↔
      2 ≤ (batch.flatMap (fun row => maskOf row.toList)).count true := by
  rw [← computeGae_succeeds rsqrt batch gamma 1]
  refine exists_congr (fun result => and_iff_left_of_imp (fun returned => ?_))
  rw [computeGae_returns rsqrt batch gamma 1 returned, atValid_map (gaeReturns_valid gamma 1)]
  apply map_congr_left
  intro row _
  exact (plainReturns_one gamma _ (fun token member => (mem_filter.mp member).2)).1

theorem computeGae_one_pair :
    let batch : List (Vector (ValuedToken ℚ) 3) := [⟨#[⟨⟨1, true⟩, 0⟩, ⟨⟨0, false⟩, 3⟩, ⟨⟨2, true⟩, 1⟩], rfl⟩]
    ∃ result, computeGaeAdvantageReturn id batch (1 / 2) 1 = .ok result ∧ atValid batch result.2 = [[2, 2]] := by
  intro batch
  obtain ⟨result, returned, agree⟩ := (computeGae_one_iff id batch (1 / 2)).mpr (by decide)
  exact ⟨result, returned, agree.trans (by decide +kernel)⟩

end Gae

/-! ### Starting again -/

section Reinforce
variable {K : Type} [Field K] {width : Nat}

/-- The rewards of the valid tokens. -/
def rewardToGo (tokens : List (Token K)) : K :=
  ((tokens.filter (fun token => token.valid)).map Token.reward).sum

/-- What the loop carries from the first token of a sequence to the one before it. -/
def carried (row : List (Token K)) : K := (row.foldr (reinforceStep 1) ⟨0, []⟩).runningReturn

/-- Rewards are placed at valid tokens only. -/
def RewardsValid (row : List (Token K)) : Prop := ∀ token ∈ row, token.valid = false → token.reward = 0

/-- The return at each valid token is the sum of the rewards from there on. -/
def ReachesAll (row : List (Token K)) : Prop :=
  ∀ i token, row[i]? = some token → token.valid = true →
    (reinforceReturns 1 row)[i]? = some (rewardToGo (row.drop i))

/-- Behind a valid token that a masked one follows, the rewards sum to zero. -/
def NothingBehindGaps (row : List (Token K)) : Prop :=
  ∀ i token next, row[i]? = some token → row[i + 1]? = some next → token.valid = true → next.valid = false →
    rewardToGo (row.drop (i + 1)) = 0

section
variable (token : Token K) (row : List (Token K))
include token row

theorem rewardToGo_cons :
    rewardToGo (token :: row) = (if token.valid = true then token.reward else 0) + rewardToGo row := by
  cases isValid : token.valid <;> simp [rewardToGo, isValid]

theorem reinforceReturns_cons :
    reinforceReturns 1 (token :: row) = (token.reward + carried row) :: reinforceReturns 1 row := by
  simp [reinforceReturns, carried, reinforceStep]

theorem carried_cons : carried (token :: row) = (token.reward + carried row) * weight token.valid := by
  simp [carried, reinforceStep]

theorem reachesAll_cons :
    ReachesAll (token :: row) ↔ (token.valid = true → carried row = rewardToGo row) ∧ ReachesAll row := by
  constructor
  · intro reaches
    constructor
    · intro isValid
      have head := reaches 0 token rfl isValid
      rw [reinforceReturns_cons, getElem?_cons_zero, drop_zero, rewardToGo_cons, if_pos isValid,
        Option.some.injEq] at head
      exact add_left_cancel head
    · intro i other found isValid
      have later := reaches (i + 1) other found isValid
      rwa [reinforceReturns_cons, getElem?_cons_succ, drop_succ_cons] at later
  · rintro ⟨head, rest⟩ i other found isValid
    cases i with
    | zero =>
      rw [getElem?_cons_zero, Option.some.injEq] at found
      subst found
      rw [reinforceReturns_cons, getElem?_cons_zero, drop_zero, rewardToGo_cons, if_pos isValid, head isValid]
    | succ i =>
      rw [reinforceReturns_cons, getElem?_cons_succ, drop_succ_cons]
      exact rest i other found isValid

theorem nothingBehindGaps_cons : NothingBehindGaps (token :: row) ↔
      (token.valid = true → ∀ next, row[0]? = some next → next.valid = false → rewardToGo row = 0) ∧
        NothingBehindGaps row := by
  constructor
  · intro nothing
    exact ⟨fun isValid next found masked => nothing 0 token next rfl found isValid masked,
      fun i other next found later => nothing (i + 1) other next found later⟩
  · rintro ⟨head, rest⟩ i other next found later isValid masked
    cases i with
    | zero =>
      rw [getElem?_cons_zero, Option.some.injEq] at found
      subst found
      exact head isValid next later masked
    | succ i => exact rest i other next found later isValid masked

end

/-- The loop starts again at masked tokens, so a valid one before them sees no later reward. -/
theorem reachesAll_iff {row : List (Token K)} (rewards : RewardsValid row) : ReachesAll row ↔ NothingBehindGaps row := by
  induction row with
  | nil => exact iff_of_true (by intro i token found; cases found) (by intro i token next found; cases found)
  | cons token row ih =>
    rw [reachesAll_cons, nothingBehindGaps_cons,
      ← ih (fun other member => rewards other (mem_cons_of_mem _ member))]
    apply and_congr_left
    intro reaches
    apply imp_congr_right
    intro _
    cases row with
    | nil => exact iff_of_true rfl (by intro next found; cases found)
    | cons next row =>
      rw [carried_cons]
      cases isValid : next.valid with
      | true =>
        have same := ((reachesAll_cons next row).mp reaches).1 isValid
        rw [rewardToGo_cons, if_pos isValid, same, weight_true, mul_one]
        apply iff_of_true rfl
        rintro other found masked
        rw [getElem?_cons_zero, Option.some.injEq] at found
        rw [← found, isValid] at masked
        cases masked
      | false =>
        rw [weight_false, mul_zero]
        exact ⟨fun none _ _ _ => none.symm, fun none => (none next rfl isValid).symm⟩

theorem reinforceReturns_length (gamma : K) (row : List (Token K)) :
    (reinforceReturns gamma row).length = row.length := by
  have kept : (row.foldr (reinforceStep gamma) ⟨0, []⟩).returns.length = row.length := by
    induction row with
    | nil => rfl
    | cons token row ih => exact congrArg Nat.succ ih
  exact kept

variable [LinearOrder K] [IsStrictOrderedRing K]

omit [IsStrictOrderedRing K] in
theorem computeReinforce_returns {rsqrt : K → K} {batch : List (Vector (Token K) width)} {gamma : K}
    {result : List (List K) × List (List K)}
    (returned : computeReinforcePlusPlusOutcomeAdvantage rsqrt batch gamma = .ok result) :
    result.2 = batch.map (fun row => reinforceReturns gamma row.toList) := by
  rw [computeReinforcePlusPlusOutcomeAdvantage] at returned
  obtain ⟨whitened, _, returned⟩ := bind_eq_ok.mp returned
  cases returned
  rw [map_map]
  rfl

theorem computeReinforce_succeeds (rsqrt : K → K) (batch : List (Vector (Token K) width)) (gamma : K) :
    (∃ result, computeReinforcePlusPlusOutcomeAdvantage rsqrt batch gamma = .ok result) ↔
      2 ≤ (batch.flatMap (fun row => row.toList.map Token.valid)).count true := by
  have whitened := whiten_succeeds rsqrt Token.valid (reinforceReturns_length gamma) (batch.map Vector.toList)
  rw [flatMap_map] at whitened
  refine Iff.trans ?_ whitened
  rw [computeReinforcePlusPlusOutcomeAdvantage]
  constructor
  · rintro ⟨result, returned⟩
    obtain ⟨advantages, made, _⟩ := bind_eq_ok.mp returned
    exact ⟨advantages, made⟩
  · rintro ⟨advantages, made⟩
    exact ⟨_, bind_eq_ok.mpr ⟨advantages, made, rfl⟩⟩

/-- Every valid token gets the sum of its own and all later rewards exactly when none is behind a gap,
and enough tokens are valid for whitening. -/
theorem reinforce_reaches (rsqrt : K → K) {batch : List (Vector (Token K) width)}
    (rewards : ∀ row ∈ batch, RewardsValid row.toList) :
    (∃ result, computeReinforcePlusPlusOutcomeAdvantage rsqrt batch 1 = .ok result ∧
        ∀ pair ∈ batch.zip result.2, ∀ i token, pair.1.toList[i]? = some token → token.valid = true →
          pair.2[i]? = some (rewardToGo (pair.1.toList.drop i))) ↔
      2 ≤ (batch.flatMap (fun row => row.toList.map Token.valid)).count true ∧
        ∀ row ∈ batch, NothingBehindGaps row.toList := by
  have rows : ∀ result, computeReinforcePlusPlusOutcomeAdvantage rsqrt batch 1 = .ok result →
      ((∀ pair ∈ batch.zip result.2, ∀ i token, pair.1.toList[i]? = some token → token.valid = true →
        pair.2[i]? = some (rewardToGo (pair.1.toList.drop i))) ↔
            ∀ row ∈ batch, NothingBehindGaps row.toList) := by
    intro result returned
    rw [computeReinforce_returns returned, List.zip_map_right, List.zip_eq_zipWith, List.zipWith_self,
      List.map_map,
      List.forall_mem_map]
    exact forall₂_congr (fun row member => reachesAll_iff (rewards row member))
  rw [← computeReinforce_succeeds rsqrt batch 1]
  constructor
  · rintro ⟨result, returned, reaches⟩
    exact ⟨⟨result, returned⟩, (rows result returned).mp reaches⟩
  · rintro ⟨⟨result, returned⟩, nothing⟩
    exact ⟨result, returned, (rows result returned).mpr nothing⟩

/-- The reward of a response at its last token: two tokens and padding. -/
def padded : List (Vector (Token ℚ) 3) := [#v[⟨0, true⟩, ⟨1, true⟩, ⟨0, false⟩]]

theorem reinforce_reaches_padded :
    ∃ result, computeReinforcePlusPlusOutcomeAdvantage id padded 1 = .ok result ∧
      ∀ pair ∈ padded.zip result.2, ∀ i token, pair.1.toList[i]? = some token → token.valid = true →
        pair.2[i]? = some (rewardToGo (pair.1.toList.drop i)) := by
  have rewards : ∀ row ∈ padded, RewardsValid row.toList := by
    intro row member
    rw [List.mem_singleton.mp member]
    change RewardsValid [⟨0, true⟩, ⟨1, true⟩, ⟨0, false⟩]
    simp [RewardsValid]
  apply (reinforce_reaches id rewards).mpr
  refine ⟨by decide, ?_⟩
  intro row member
  rw [List.mem_singleton.mp member]
  change NothingBehindGaps [⟨0, true⟩, ⟨1, true⟩, ⟨0, false⟩]
  have none : NothingBehindGaps ([] : List (Token ℚ)) := fun i token _ found => by cases found
  rw [nothingBehindGaps_cons, nothingBehindGaps_cons, nothingBehindGaps_cons]
  simp [none, rewardToGo]

/-- Two turns with an observation between them: the reward of the second does not reach the first. -/
def twoTurns : List (Vector (Token ℚ) 3) := [#v[⟨0, true⟩, ⟨0, false⟩, ⟨1, true⟩]]

theorem final_reward_lost :
    ¬ ∃ result, computeReinforcePlusPlusOutcomeAdvantage id twoTurns 1 = .ok result ∧
      ∀ pair ∈ twoTurns.zip result.2, ∀ i token, pair.1.toList[i]? = some token → token.valid = true →
        pair.2[i]? = some (rewardToGo (pair.1.toList.drop i)) := by
  rintro ⟨result, returned, reaches⟩
  rw [computeReinforce_returns returned] at reaches
  have first := reaches _ List.mem_cons_self 0 _ rfl rfl
  norm_num [reinforceReturns, reinforceStep, rewardToGo] at first

end Reinforce

end LLMFusion.CoreAlgos
