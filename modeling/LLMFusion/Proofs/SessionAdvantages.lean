import LLMFusion.Proofs.FinalSessions
import LLMFusion.Proofs.PaddingUtils

/-! The advantage of a session is that of its final output. It is read back from the masked advantages,
so that it is lost if the final output has no valid token. -/

namespace LLMFusion.SyncTrainer
open List hiding Vector
open TorchFunctional CoreAlgos Grouping
open PaddingUtils hiding Failure

/-! ### Scores -/

variable {K : Type} {width : Nat}

theorem finalRows_outputs (rows : List (Key × Trajectory K width)) :
    finalRows (rows.map Prod.fst) (rows.map Prod.snd) = (finalOutputs rows).map Prod.snd := by
  rw [finalRows, finalOutputs, map_filterMap]
  apply filterMap_congr
  intro session _
  exact getElem?_map

def maskOf (row : Trajectory K width) : List Bool := row.tokens.toList.map (fun token => token.valid)

variable [Field K]

def totalReward (row : Trajectory K width) : K := (row.rewards.toList.map Token.reward).sum

/-- The rewards of the final outputs with a `uid`. -/
def groupTotals (rows : List (Key × Trajectory K width)) (uid : Option String) : List K :=
  members ((finals rows).map (fun row => (row.2.uid, totalReward row.2))) uid

/-- The advantage of a final output among those of its group. -/
def grpoAdvantage (trainer : Trainer K) (rows : List (Key × Trajectory K width)) (final : Trajectory K width) : K :=
  normalized trainer.sqrt epsilon trainer.normAdvByStdInGrpo (groupTotals rows final.uid) (totalReward final)

theorem mean_perm {scores others : List K} (same : scores.Perm others) : mean scores = mean others := by
  rw [mean, mean, same.sum_eq, same.length_eq]

theorem std_perm (sqrt : K → K) {scores others : List K} (same : scores.Perm others) : std sqrt scores = std sqrt others := by
  rw [std, std, mean_perm same, (same.map _).sum_eq, same.length_eq]

theorem normalized_perm (sqrt : K → K) (epsilon : K) (byStd : Bool) {group others : List K} (same : group.Perm others)
    (score : K) : normalized sqrt epsilon byStd group score = normalized sqrt epsilon byStd others score := by
  simp only [normalized, ofGroup, same.length_eq, mean_perm same, std_perm sqrt same]

theorem members_perm {ι α : Type} [DecidableEq ι] {entries others : List (ι × α)} (same : entries.Perm others) (label : ι) :
    (members entries label).Perm (members others label) := (same.filter _).map _

theorem grpoAdvantage_perm (trainer : Trainer K) {rows reordered : List (Key × Trajectory K width)}
    (same : reordered.Perm rows) (final : Trajectory K width) :
    grpoAdvantage trainer reordered final = grpoAdvantage trainer rows final :=
  normalized_perm _ _ _ (members_perm ((finals_perm same).map _) _) _

def readBack (row : Trajectory K width) (advantage : K) : K := if true ∈ maskOf row then advantage else 0

theorem readBack_masked (row : Trajectory K width) (wide : 0 < width) (advantage : K) :
    (row.tokens.toList.map (fun token => advantage * weight token.valid)).getD (firstNnz (maskOf row)) 0 =
      readBack row advantage := by
  have masked : row.tokens.toList.map (fun token => advantage * weight token.valid) =
      (maskOf row).map (fun valid => advantage * weight valid) := by
    rw [maskOf, map_map]
    rfl
  have length : (maskOf row).length = width := (length_map _).trans row.tokens.length_toList
  rw [masked, getD_eq_getElem?_getD, getElem?_map, firstNnz, readBack]
  by_cases found : true ∈ maskOf row
  · have inside := idxOf_lt_length_of_mem found
    have valid : (maskOf row)[(maskOf row).idxOf true] = true := getElem_idxOf inside
    rw [if_pos found, if_pos found, getElem?_eq_getElem inside, valid]
    exact mul_one advantage
  · have first : (maskOf row)[0]? = some false := by
      rw [getElem?_eq_getElem (length.symm ▸ wide)]
      congr 1
      apply Bool.eq_false_iff.mpr
      intro valid
      exact found (valid ▸ getElem_mem _)
    rw [if_neg found, if_neg found, first]
    exact mul_zero advantage

variable {rows : List (Key × Trajectory K width)}

theorem finalScores_outputs (trainer : Trainer K) (distinct : (rows.map Prod.fst).Nodup) (wide : 0 < width) :
    finalScores trainer (rows.map Prod.fst) (rows.map Prod.snd) =
      (finalOutputs rows).map (fun final => readBack final.2 (grpoAdvantage trainer rows final.2)) := by
  have entries : ((finalOutputs rows).map Prod.snd).map (fun row => (row.uid, totalReward row)) =
      (finalOutputs rows).map (fun row => (row.2.uid, totalReward row.2)) := map_map
  have totals : scoresOf (((finalOutputs rows).map Prod.snd).map Trajectory.rewards) =
      ((finalOutputs rows).map Prod.snd).map totalReward := map_map
  have groups : ∀ uid, (members ((finalOutputs rows).map (fun row => (row.2.uid, totalReward row.2))) uid).Perm
      (groupTotals rows uid) := fun uid => members_perm ((finalOutputs_perm distinct).map _) uid
  rw [finalScores, finalAdvantages, finalRows_outputs, grouped, totals, zip_map', entries, unsqueezeMask]
  simp only [map_map, zipWith_map, zipWith_self, zip_map']
  apply map_congr_left
  intro final _
  simp only [Function.comp_apply, normalized_perm _ _ _ (groups _), Trajectory.rewards, Vector.toList_map, map_map]
  exact readBack_masked final.2 wide _

theorem scoreOfKey_final (trainer : Trainer K)
    (distinct : (rows.map Prod.fst).Nodup) (wide : 0 < width) {row final : Key × Trajectory K width}
    (isFinal : final ∈ finals rows) (same : sessionOf final.1 = sessionOf row.1) :
    scoreOfKey trainer (rows.map Prod.fst) (rows.map Prod.snd) row.1 =
      readBack final.2 (grpoAdvantage trainer rows final.2) := by
  have apart : ((finalOutputs rows).map (fun row => sessionOf row.1)).Nodup := by
    rw [finalOutputs_sessions]
    exact finalSessions_distinct _
  obtain ⟨place, inside, rfl⟩ := getElem_of_mem ((finalOutputs_perm distinct).mem_iff.mpr isFinal)
  have bound : place < ((finalOutputs rows).map (fun row => sessionOf row.1)).length := by
    rw [length_map]
    exact inside
  have here : ((finalOutputs rows).map (fun row => sessionOf row.1))[place] = sessionOf row.1 := by
    rw [getElem_map, same]
  have index : ((finalOutputs rows).map (fun row => sessionOf row.1)).idxOf (sessionOf row.1) = place := by
    rw [← here]
    exact apart.idxOf_getElem place bound
  rw [scoreOfKey, finalScores_outputs trainer distinct wide, ← finalOutputs_sessions, index, getD_eq_getElem?_getD,
    getElem?_map, getElem?_eq_getElem inside]
  rfl

/-! ### The advantages of a batch -/

variable [LinearOrder K]

/-- In any order of the rows, a row has the advantage of the final output of its session at its valid tokens. -/
def Broadcasts (trainer : Trainer K) (rows : List (Key × Trajectory K width)) : Prop :=
  ∀ reordered, reordered.Perm rows → ∃ advantages,
    computeAdvantageForMultiTrajectories trainer .grpo (reordered.map Prod.fst) (reordered.map Prod.snd) =
      .ok (advantages, advantages) ∧
    List.Forall₂ (fun row values => ∀ final ∈ finals rows, sessionOf final.1 = sessionOf row.1 →
      values = (maskOf row.2).map (fun valid => grpoAdvantage trainer rows final.2 * weight valid)) reordered advantages

/-- Where an output has valid tokens, the final one of its session has some, or no advantage. -/
def Readable (rows : List (Key × Trajectory K width)) : Prop :=
  ∀ row ∈ rows, true ∈ maskOf row.2 → ∀ final ∈ finals rows, sessionOf final.1 = sessionOf row.1 →
    true ∈ maskOf final.2 ∨ totalReward final.2 = ofGroup 0 mean (groupTotals rows final.2.uid)

omit [LinearOrder K] in
theorem masked_eq {mask : List Bool} {value other : K} :
    mask.map (fun valid => value * weight valid) = mask.map (fun valid => other * weight valid) ↔
      (true ∈ mask → value = other) := by
  constructor
  · intro same set
    have here := map_inj_left.mp same true set
    simpa [weight] using here
  · intro same
    apply map_congr_left
    intro valid member
    cases valid with
    | true => rw [same member]
    | false => simp [weight]

theorem std_defined [IsStrictOrderedRing K] {sqrt : K → K} (root : ∀ x, 0 ≤ x → 0 ≤ sqrt x) (group : List K) :
    0 < ofGroup 1 (std sqrt) group + epsilon := by
  have small : (0 : K) < epsilon := by
    unfold epsilon
    positivity
  refine add_pos_of_nonneg_of_pos ?_ small
  unfold ofGroup
  split
  · exact zero_le_one
  · next several =>
    apply root
    cases group with
    | nil => simp
    | cons score scores =>
      apply div_nonneg
      · apply sum_nonneg
        intro square member
        obtain ⟨score, _, rfl⟩ := mem_map.mp member
        exact sq_nonneg _
      · simp

theorem normalized_zero [IsStrictOrderedRing K] {sqrt : K → K} (root : ∀ x, 0 ≤ x → 0 ≤ sqrt x) (byStd : Bool)
    (group : List K) (score : K) : normalized sqrt epsilon byStd group score = 0 ↔ score = ofGroup 0 mean group := by
  have scale := (std_defined root group).ne'
  cases byStd with
  | true => simp [normalized, scale, sub_eq_zero]
  | false => simp [normalized, sub_eq_zero]

theorem readBack_iff [IsStrictOrderedRing K] {trainer : Trainer K} (root : ∀ x, 0 ≤ x → 0 ≤ trainer.sqrt x)
    (rows : List (Key × Trajectory K width)) (final : Trajectory K width) :
    readBack final (grpoAdvantage trainer rows final) = grpoAdvantage trainer rows final ↔
      true ∈ maskOf final ∨ totalReward final = ofGroup 0 mean (groupTotals rows final.uid) := by
  unfold readBack
  by_cases set : true ∈ maskOf final
  · simp [set]
  · rw [if_neg set, eq_comm, grpoAdvantage, normalized_zero root]
    simp [set]

theorem grpo_rows (trainer : Trainer K) (wide : 0 < width) :
    let advantages := rows.map (fun row => (maskOf row.2).map (fun valid =>
      scoreOfKey trainer (rows.map Prod.fst) (rows.map Prod.snd) row.1 * weight valid))
    computeAdvantageForMultiTrajectories trainer .grpo (rows.map Prod.fst) (rows.map Prod.snd) =
      .ok (advantages, advantages) := by
  have aligned : (rows.map Prod.snd).length = (rows.map Prod.fst).length := by rw [length_map, length_map]
  rw [grpo_ok trainer aligned wide]
  simp only [map_map, zipWith_map, zipWith_self, maskOf, Function.comp_def]

theorem broadcasts_of_readable [IsStrictOrderedRing K] {trainer : Trainer K} (root : ∀ x, 0 ≤ x → 0 ≤ trainer.sqrt x)
    (distinct : (rows.map Prod.fst).Nodup) (wide : 0 < width) (readable : Readable rows) : Broadcasts trainer rows := by
  intro reordered same
  have apart : (reordered.map Prod.fst).Nodup := (same.map _).nodup_iff.mpr distinct
  refine ⟨_, grpo_rows trainer wide, ?_⟩
  apply forall₂_map_right_iff.mpr
  apply forall₂_same.mpr
  intro row member final isFinal session
  apply masked_eq.mpr
  intro valid
  have last := (finals_perm same).mem_iff.mpr isFinal
  rw [scoreOfKey_final trainer apart wide last session, grpoAdvantage_perm trainer same]
  exact (readBack_iff root rows final.2).mpr (readable row (same.mem_iff.mp member) valid final isFinal session)

theorem readable_of_broadcasts [IsStrictOrderedRing K] {trainer : Trainer K} (root : ∀ x, 0 ≤ x → 0 ≤ trainer.sqrt x)
    (distinct : (rows.map Prod.fst).Nodup) (wide : 0 < width) (broadcasts : Broadcasts trainer rows) : Readable rows := by
  obtain ⟨advantages, returned, each⟩ := broadcasts rows (List.Perm.refl rows)
  rw [grpo_rows trainer wide] at returned
  cases returned
  intro row member valid final isFinal session
  have values := forall₂_same.mp (forall₂_map_right_iff.mp each) row member final isFinal session
  have score := masked_eq.mp values valid
  rw [scoreOfKey_final trainer distinct wide isFinal session] at score
  exact (readBack_iff root rows final.2).mp score

/-- The advantage of a session reaches its outputs exactly if its final one has a valid token, or an advantage of
zero, wherever another one has some. -/
theorem broadcasts_iff [IsStrictOrderedRing K] (trainer : Trainer K) (root : ∀ x, 0 ≤ x → 0 ≤ trainer.sqrt x)
    {rows : List (Key × Trajectory K width)} (distinct : (rows.map Prod.fst).Nodup) :
    Broadcasts trainer rows ↔ (rows = [] ∨ 0 < width) ∧ Readable rows := by
  constructor
  · intro broadcasts
    have wide : rows = [] ∨ 0 < width := by
      by_contra narrow
      obtain ⟨filled, narrow⟩ := not_or.mp narrow
      obtain ⟨advantages, returned, _⟩ := broadcasts rows (List.Perm.refl rows)
      have aligned : (rows.map Prod.snd).length = (rows.map Prod.fst).length := by rw [List.length_map, List.length_map]
      have raised := grpo_narrow trainer aligned (by simpa using filled) (by omega)
      cases returned.symm.trans raised
    refine ⟨wide, ?_⟩
    cases wide with
    | inl empty =>
      subst empty
      exact fun row member => (List.not_mem_nil member).elim
    | inr wide => exact readable_of_broadcasts root distinct wide broadcasts
  · rintro ⟨empty | wide, readable⟩
    · subst empty
      intro reordered same
      cases same.eq_nil
      exact ⟨[], rfl, List.Forall₂.nil⟩
    · exact broadcasts_of_readable root distinct wide readable

def rewarded (reward : ℚ) (valid : Bool) : Trajectory ℚ 1 := ⟨some "u", #v[⟨⟨reward, valid⟩, 0⟩]⟩

theorem identity_root (x : ℚ) (nonneg : 0 ≤ x) : 0 ≤ plainTrainer.sqrt x := nonneg

/-- Two sessions, the first with an output before the final one. -/
theorem broadcasts_valid :
    Broadcasts plainTrainer [(⟨"u", 0, 0⟩, rewarded 0 true), (⟨"u", 0, 1⟩, rewarded 1 true), (⟨"u", 1, 0⟩, rewarded 3 true)] := by
  apply (broadcasts_iff plainTrainer identity_root (by decide)).mpr
  refine ⟨Or.inr (by decide), ?_⟩
  intro row _ _ final isFinal _
  have member := (mem_finals.mp isFinal).1
  simp only [List.mem_cons, List.not_mem_nil, or_false] at member
  rcases member with rfl | rfl | rfl <;> exact Or.inl (by decide)

/-- The tokens of the final output have been rejected. -/
theorem not_broadcasts :
    ¬ Broadcasts plainTrainer [(⟨"u", 0, 0⟩, rewarded 0 true), (⟨"u", 0, 1⟩, rewarded 1 false)] := by
  intro broadcasts
  have readable := readable_of_broadcasts identity_root (by decide) (by decide) broadcasts
  have final : ((⟨"u", 0, 1⟩, rewarded 1 false) : Key × Trajectory ℚ 1) ∈
      finals [(⟨"u", 0, 0⟩, rewarded 0 true), (⟨"u", 0, 1⟩, rewarded 1 false)] := by
    apply mem_finals.mpr
    refine ⟨by simp, ?_⟩
    intro other member _
    simp only [List.mem_cons, List.not_mem_nil, or_false] at member
    rcases member with rfl | rfl <;> decide
  cases readable _ List.mem_cons_self (by decide) _ final rfl with
  | inl valid => exact absurd valid (by decide)
  | inr equal => exact absurd equal (by decide +kernel)

end LLMFusion.SyncTrainer
