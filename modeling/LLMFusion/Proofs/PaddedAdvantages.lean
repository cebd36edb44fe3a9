import LLMFusion.Proofs.GroupAdvantage
import LLMFusion.Proofs.MaskedRows
import LLMFusion.SyncTrainer

/-! Advantages of a batch to which rows without valid tokens are appended. Whitening reads only valid
tokens, and the rows are in groups and sessions of their own. -/

namespace LLMFusion.CoreAlgos
open List hiding Vector
open TorchFunctional Grouping

variable {ι K : Type} [Field K] {width : Nat}

/-! ### Whitening -/

theorem maskedSum_append {entries others : List (K × Bool)} (dead : others.any Prod.snd = false) :
    maskedSum (entries ++ others) = maskedSum entries := by
  have whole := maskedSum_flatten [entries, others]
  rw [flatten_cons, flatten_singleton] at whole
  rw [whole, map_cons, map_singleton, sum_cons, sum_singleton, maskedSum_dead dead, add_zero]

theorem maskSum_append {mask others : List Bool} (dead : others.any id = false) :
    (maskSum (mask ++ others) : K) = maskSum mask := by
  have whole := maskSum_flatten (K := K) [mask, others]
  rw [flatten_cons, flatten_singleton] at whole
  rw [whole, map_cons, map_singleton, sum_cons, sum_singleton, maskSum_dead dead, add_zero]

theorem maskedMean_append {entries others : List (K × Bool)} (dead : others.any Prod.snd = false) :
    maskedMean (entries ++ others) = maskedMean entries := by
  have unset : (others.map Prod.snd).any id = false := by
    rw [any_map]
    exact dead
  rw [maskedMean, maskedMean, maskedSum_append dead, map_append, maskSum_append unset]

variable [DecidableEq K]

theorem maskedVar_append {entries others : List (K × Bool)} (dead : others.any Prod.snd = false) (unbiased : Bool) :
    maskedVar (entries ++ others) unbiased = maskedVar entries unbiased := by
  have unset : (others.map Prod.snd).any id = false := by
    rw [any_map]
    exact dead
  have moved (mean : K) : (others.map (fun entry => ((entry.1 - mean) ^ 2, entry.2))).any Prod.snd = false := by
    rw [any_map]
    exact dead
  unfold maskedVar
  simp only [maskedMean_append dead, map_append, maskedMean_append (moved _), maskSum_append unset]

theorem maskedWhiten_append (rsqrt : K → K) (rows : List (List (K × Bool))) {others : List (List (K × Bool))} (dead : others.flatten.any Prod.snd = false)
    (shiftMean : Bool) :
    (maskedWhiten rsqrt (rows ++ others) shiftMean).map (take rows.length) = maskedWhiten rsqrt rows shiftMean := by
  unfold maskedWhiten
  rw [flatten_append, maskedVar_append dead, maskedMean_append dead]
  cases maskedVar rows.flatten true with
  | error failure => rfl
  | ok variance =>
    cases shiftMean with
    | true => exact congrArg Except.ok (by simp)
    | false => exact congrArg Except.ok (by simp)

omit [Field K] [DecidableEq K] in
theorem zip_dead {τ : Type} {valid : τ → Bool} {values : List K} {row : List τ} (dead : row.any valid = false) :
    (zipWith (fun value token => (value, valid token)) values row).any Prod.snd = false := by
  rw [← map_uncurry_zip_eq_zipWith, any_map, any_eq_false]
  intro entry member
  exact any_eq_false.mp dead entry.2 (of_mem_zip member).2

/-- The first rows of a result. -/
def firstRows (count : Nat) (result : List (List K) × List (List K)) : List (List K) × List (List K) :=
  (result.1.take count, result.2.take count)

variable {K : Type} [Field K] [LinearOrder K] {width : Nat}

theorem computeGae_append (rsqrt : K → K) (batch : List (Vector (ValuedToken K) width))
    {others : List (Vector (ValuedToken K) width)} (dead : ∀ row ∈ others, live (fun token => token.valid) row = false)
    (gamma lam : K) : (computeGaeAdvantageReturn rsqrt (batch ++ others) gamma lam).map (firstRows batch.length) =
      computeGaeAdvantageReturn rsqrt batch gamma lam := by
  unfold computeGaeAdvantageReturn
  by_cases empty : width = 0
  · rw [if_pos empty, if_pos empty]
    rfl
  let rows (batch : List (Vector (ValuedToken K) width)) := batch.map Vector.toList
  let entries (batch : List (Vector (ValuedToken K) width)) := zipWith
    (zipWith (fun (advantage : K) (token : ValuedToken K) => (advantage, token.valid))) ((rows batch).map (gaeAdvantages gamma lam)) (rows batch)
  let returns (batch : List (Vector (ValuedToken K) width)) := zipWith
    (zipWith (fun (advantage : K) (token : ValuedToken K) => advantage + token.value)) ((rows batch).map (gaeAdvantages gamma lam)) (rows batch)
  have entries_append : entries (batch ++ others) = entries batch ++ entries others := by
    simp only [entries, rows, map_append]
    exact zipWith_append (by simp)
  have returns_append : returns (batch ++ others) = returns batch ++ returns others := by
    simp only [returns, rows, map_append]
    exact zipWith_append (by simp)
  have masked : (entries others).flatten.any Prod.snd = false := by
    rw [any_flatten, any_eq_false]
    intro row member
    obtain ⟨index, inside, rfl⟩ := getElem_of_mem member
    simp only [entries, rows, getElem_zipWith, getElem_map, Bool.not_eq_true]
    exact zip_dead (dead _ (getElem_mem _))
  have lengths : (entries batch).length = batch.length ∧ (returns batch).length = batch.length := by
    simp [entries, returns, rows]
  have whitened := maskedWhiten_append rsqrt (entries batch) masked true
  rw [lengths.1, ← entries_append] at whitened
  rw [if_neg empty, if_neg empty]
  change Except.map _ (maskedWhiten rsqrt (entries (batch ++ others)) true >>= fun advantages =>
    pure (advantages, returns (batch ++ others))) = (maskedWhiten rsqrt (entries batch) true >>= fun advantages =>
    pure (advantages, returns batch))
  rw [← whitened, returns_append]
  cases maskedWhiten rsqrt (entries (batch ++ others)) true with
  | error failure => rfl
  | ok advantages =>
    have first : (returns batch ++ returns others).take batch.length = returns batch :=
      take_left' lengths.2
    exact congrArg (fun rows => Except.ok (advantages.take batch.length, rows)) first

/-! ### Groups -/

variable {ι : Type} [DecidableEq ι]

def grouped (advantage : List K → K → K) (batch : List (Vector (Token K) width)) (index : List ι) : List (List K) :=
  let entries := index.zip (scoresOf batch)
  unsqueezeMask (entries.map (fun entry => advantage (members entries entry.1) entry.2)) batch

omit [LinearOrder K] in
theorem grouped_length (advantage : List K → K → K) {batch : List (Vector (Token K) width)} {index : List ι}
    (aligned : index.length = batch.length) : (grouped advantage batch index).length = batch.length := by
  simp [grouped, unsqueezeMask, scoresOf, aligned]

omit [LinearOrder K] in
theorem grouped_append (advantage : List K → K → K) {batch : List (Vector (Token K) width)}
    (others : List (Vector (Token K) width)) {index labels : List ι}
    (aligned : index.length = batch.length) (apart : ∀ label ∈ index, label ∉ labels) :
    ∃ rest, grouped advantage (batch ++ others) (index ++ labels) = grouped advantage batch index ++ rest := by
  have scores : scoresOf (batch ++ others) = scoresOf batch ++ scoresOf others := map_append
  have entries : (index ++ labels).zip (scoresOf (batch ++ others)) =
      index.zip (scoresOf batch) ++ labels.zip (scoresOf others) := by
    rw [scores]
    exact zip_append (by rw [aligned, scoresOf, length_map])
  have group : ∀ entry ∈ index.zip (scoresOf batch),
      members (index.zip (scoresOf batch) ++ labels.zip (scoresOf others)) entry.1 = members (index.zip (scoresOf batch)) entry.1 := by
    intro entry member
    have none : members (labels.zip (scoresOf others)) entry.1 = [] := by
      by_contra some
      obtain ⟨other, inside, same⟩ := mem_map.mp (members_ne_nil.mp some)
      exact apart entry.1 (of_mem_zip member).1 (same ▸ (of_mem_zip inside).1)
    rw [members_append, none, append_nil]
  refine ⟨unsqueezeMask ((labels.zip (scoresOf others)).map (fun entry =>
    advantage (members (index.zip (scoresOf batch) ++ labels.zip (scoresOf others)) entry.1) entry.2)) others, ?_⟩
  simp only [grouped, entries, map_append]
  rw [map_congr_left (fun entry member => congrArg (fun group => advantage group entry.2) (group entry member))]
  unfold unsqueezeMask
  exact zipWith_append (by simp [scoresOf, aligned])

end LLMFusion.CoreAlgos

namespace LLMFusion.SyncTrainer
open List hiding Vector
open TorchFunctional CoreAlgos
open PaddingUtils hiding Failure

/-! ### Sessions -/

def sessionOf (key : Key) : String × Nat := (key.uid, key.sessionId)

def outputOf (entry : Key × Nat) : (String × Nat) × (Nat × Nat) := (sessionOf entry.1, (entry.1.index, entry.2))

variable {sessions : FinalSessions}

theorem recordOutput_new {entry : Key × Nat} (new : sessionOf entry.1 ∉ sessions.map Prod.fst) :
    recordOutput sessions entry = sessions ++ [outputOf entry] := by
  induction sessions with
  | nil => rfl
  | cons session rest ih =>
    rw [map_cons, mem_cons, not_or] at new
    rw [recordOutput, if_neg (fun same => new.1 same.symm), ih new.2]
    rfl

theorem recordOutput_sessions (sessions : FinalSessions) (entry : Key × Nat) (session : String × Nat) :
    session ∈ (recordOutput sessions entry).map Prod.fst ↔ session ∈ sessions.map Prod.fst ∨ session = sessionOf entry.1 := by
  induction sessions with
  | nil => simp [recordOutput, sessionOf]
  | cons first rest ih =>
    rw [recordOutput]
    split
    · next same =>
      split
      · simp only [map_cons, mem_cons]
        exact ⟨Or.inl, fun found => found.elim id (fun equal => Or.inl (equal.trans same.symm))⟩
      · simp only [map_cons, mem_cons]
        exact ⟨Or.inl, fun found => found.elim id (fun equal => Or.inl (equal.trans same.symm))⟩
    · simp only [map_cons, mem_cons, ih, or_assoc]

theorem recordOutput_rows {entry : Key × Nat} {count : Nat} (here : entry.2 < count)
    (rows : ∀ session ∈ sessions, session.2.2 < count) : ∀ session ∈ recordOutput sessions entry, session.2.2 < count := by
  induction sessions with
  | nil =>
    intro session member
    rw [recordOutput, mem_singleton] at member
    rw [member]
    exact here
  | cons first rest ih =>
    obtain ⟨inFirst, inRest⟩ := forall_mem_cons.mp rows
    rw [recordOutput]
    split
    · split
      · exact forall_mem_cons.mpr ⟨here, inRest⟩
      · exact rows
    · exact forall_mem_cons.mpr ⟨inFirst, ih inRest⟩

theorem recorded_sessions (entries : List (Key × Nat)) (sessions : FinalSessions) (session : String × Nat) :
    session ∈ (entries.foldl recordOutput sessions).map Prod.fst ↔
      session ∈ sessions.map Prod.fst ∨ session ∈ entries.map (fun entry => sessionOf entry.1) := by
  induction entries generalizing sessions with
  | nil => simp
  | cons entry entries ih =>
    rw [foldl_cons, ih, recordOutput_sessions, map_cons, mem_cons, or_assoc]

theorem recorded_rows {entries : List (Key × Nat)} {count : Nat} (here : ∀ entry ∈ entries, entry.2 < count)
    (rows : ∀ session ∈ sessions, session.2.2 < count) :
    ∀ session ∈ entries.foldl recordOutput sessions, session.2.2 < count := by
  induction entries generalizing sessions with
  | nil => exact rows
  | cons entry entries ih =>
    obtain ⟨first, rest⟩ := forall_mem_cons.mp here
    exact ih rest (recordOutput_rows first rows)

theorem recorded_new {entries : List (Key × Nat)} (apart : (entries.map (fun entry => sessionOf entry.1)).Nodup)
    (new : ∀ entry ∈ entries, sessionOf entry.1 ∉ sessions.map Prod.fst) :
    entries.foldl recordOutput sessions = sessions ++ entries.map outputOf := by
  induction entries generalizing sessions with
  | nil => simp
  | cons entry entries ih =>
    obtain ⟨different, apart⟩ := nodup_cons.mp apart
    obtain ⟨first, rest⟩ := forall_mem_cons.mp new
    rw [foldl_cons, recordOutput_new first, ih apart, append_assoc, map_cons, singleton_append]
    intro other member found
    rw [map_append, mem_append, map_singleton, mem_singleton] at found
    cases found with
    | inl old => exact rest other member old
    | inr same => exact different (mem_map.mpr ⟨other, member, same⟩)

theorem finalSessions_sessions (keys : List Key) (session : String × Nat) :
    session ∈ (finalSessions keys).map Prod.fst ↔ session ∈ keys.map sessionOf := by
  have keysOf : keys.zipIdx.map (fun entry => sessionOf entry.1) = keys.map sessionOf := by
    have firsts := congrArg (map sessionOf) (zipIdx_map_fst 0 keys)
    rwa [map_map] at firsts
  rw [finalSessions, recorded_sessions, keysOf]
  simp

theorem finalSessions_rows (keys : List Key) : ∀ session ∈ finalSessions keys, session.2.2 < keys.length := by
  apply recorded_rows
  · intro entry member
    have below := snd_lt_of_mem_zipIdx member
    simpa using below
  · exact fun session member => (not_mem_nil member).elim

theorem finalSessions_append {keys others : List Key} (apart : (others.map sessionOf).Nodup)
    (new : ∀ key ∈ others, sessionOf key ∉ keys.map sessionOf) :
    finalSessions (keys ++ others) = finalSessions keys ++ (others.zipIdx keys.length).map outputOf := by
  have keysOf : (others.zipIdx keys.length).map (fun entry => sessionOf entry.1) = others.map sessionOf := by
    have firsts := congrArg (map sessionOf) (zipIdx_map_fst keys.length others)
    rwa [map_map] at firsts
  rw [finalSessions, zipIdx_append, foldl_append, ← finalSessions, Nat.zero_add]
  apply recorded_new
  · rw [keysOf]
    exact apart
  · intro entry member found
    exact new entry.1 (fst_mem_of_mem_zipIdx member) ((finalSessions_sessions keys _).mp found)

variable {K : Type} [Field K] [LinearOrder K] {width : Nat}

def finalRows (keys : List Key) (data : List (Trajectory K width)) : List (Trajectory K width) :=
  (finalSessions keys).filterMap (fun session => data[session.2.2]?)

omit [Field K] [LinearOrder K] in
theorem picked_length {data : List (Trajectory K width)} (inside : ∀ session ∈ sessions, session.2.2 < data.length) :
    (sessions.filterMap (fun session => data[session.2.2]?)).length = sessions.length := by
  induction sessions with
  | nil => rfl
  | cons session rest ih =>
    obtain ⟨first, rest⟩ := forall_mem_cons.mp inside
    simp only [filterMap_cons, getElem?_eq_getElem first, length_cons, ih rest]

omit [Field K] [LinearOrder K] in
theorem finalRows_length {keys : List Key} {data : List (Trajectory K width)} (aligned : data.length = keys.length) :
    (finalRows keys data).length = (finalSessions keys).length := by
  apply picked_length
  rw [aligned]
  exact finalSessions_rows keys

omit [Field K] [LinearOrder K] in
theorem picked_rest (data : List (Trajectory K width)) {pads : List (Trajectory K width)} {others : List Key} (aligned : pads.length = others.length) :
    ((others.zipIdx data.length).map outputOf).filterMap (fun session => (data ++ pads)[session.2.2]?) = pads := by
  rw [filterMap_map]
  induction others generalizing data pads with
  | nil => exact (eq_nil_of_length_eq_zero aligned).symm
  | cons key others ih =>
    cases pads with
    | nil => cases aligned
    | cons pad pads =>
      have rest := ih (data ++ [pad]) (Nat.succ.inj aligned)
      rw [append_assoc, singleton_append, length_append, length_singleton] at rest
      have here : ((fun session : (String × Nat) × (Nat × Nat) => (data ++ pad :: pads)[session.2.2]?) ∘ outputOf)
          (key, data.length) = some pad := by
        simp [outputOf]
      rw [zipIdx_cons, filterMap_cons_some here, rest]

omit [Field K] [LinearOrder K] in
theorem finalRows_append {keys others : List Key} {data pads : List (Trajectory K width)} (aligned : data.length = keys.length)
    (beside : pads.length = others.length) (apart : (others.map sessionOf).Nodup)
    (new : ∀ key ∈ others, sessionOf key ∉ keys.map sessionOf) :
    finalRows (keys ++ others) (data ++ pads) = finalRows keys data ++ pads := by
  have old : (finalSessions keys).filterMap (fun session => (data ++ pads)[session.2.2]?) = finalRows keys data := by
    apply filterMap_congr
    intro session member
    have inside := finalSessions_rows keys session member
    rw [← aligned] at inside
    exact getElem?_append_left inside
  rw [finalRows, finalSessions_append apart new, filterMap_append, old, ← aligned, picked_rest data beside]

/-! ### Advantages of sessions -/

omit [LinearOrder K] in
theorem finalScore_ok {advantages : List K} {mask : List Bool} (aligned : mask.length = advantages.length)
    (filled : 0 < advantages.length) : finalScore advantages mask = .ok (advantages.getD (firstNnz mask) 0) := by
  have inside : firstNnz mask < advantages.length := by
    unfold firstNnz
    split
    · next found => exact aligned ▸ idxOf_lt_length_of_mem found
    · exact filled
  have read : advantages[firstNnz mask]? = some advantages[firstNnz mask] := getElem?_eq_getElem inside
  rw [finalScore, getD_eq_getElem?_getD, read]
  rfl

variable (trainer : Trainer K)

def finalAdvantages (keys : List Key) (data : List (Trajectory K width)) : List (List K) :=
  grouped (normalized trainer.sqrt epsilon trainer.normAdvByStdInGrpo) ((finalRows keys data).map Trajectory.rewards)
    ((finalRows keys data).map Trajectory.uid)

def finalScores (keys : List Key) (data : List (Trajectory K width)) : List K :=
  ((finalAdvantages trainer keys data).zip (finalRows keys data)).map (fun entry =>
    entry.1.getD (firstNnz (entry.2.tokens.toList.map (fun token => token.valid))) 0)

def scoreOfKey (keys : List Key) (data : List (Trajectory K width)) (key : Key) : K :=
  (finalScores trainer keys data).getD (((finalSessions keys).map Prod.fst).idxOf (sessionOf key)) 0

omit [LinearOrder K] in
theorem finalAdvantages_length (keys : List Key) (data : List (Trajectory K width)) :
    (finalAdvantages trainer keys data).length = (finalRows keys data).length := by
  rw [finalAdvantages, grouped_length _ (by rw [length_map, length_map]), length_map]

omit [LinearOrder K] in
theorem finalScores_length {keys : List Key} {data : List (Trajectory K width)} (aligned : data.length = keys.length) :
    (finalScores trainer keys data).length = (finalSessions keys).length := by
  rw [finalScores, length_map, length_zip, finalAdvantages_length, Nat.min_self, finalRows_length aligned]

omit [LinearOrder K] in
theorem grouped_width {ι : Type} [DecidableEq ι] (advantage : List K → K → K) (batch : List (Vector (Token K) width))
    (index : List ι) : ∀ row ∈ grouped advantage batch index, row.length = width := by
  intro row member
  unfold grouped unsqueezeMask at member
  rw [← map_uncurry_zip_eq_zipWith] at member
  obtain ⟨entry, _, rfl⟩ := mem_map.mp member
  exact (length_map _).trans entry.2.length_toList

theorem grpo_loops (keys : List Key) (data : List (Trajectory K width)) :
    computeAdvantageForMultiTrajectories trainer .grpo keys data =
      (((finalAdvantages trainer keys data).zip (finalRows keys data)).mapM (fun entry =>
        finalScore entry.1 (entry.2.tokens.toList.map (fun token => token.valid))) >>= fun finalScores =>
      keys.mapM (sessionScore (finalSessions keys) finalScores) >>= fun scores =>
      let scores := zipWith (fun score row => row.tokens.toList.map (fun token => score * weight token.valid)) scores data
      .ok (scores, scores)) := by
  have advantages : computeAdvantage trainer .grpo (finalRows keys data) =
      .ok (finalAdvantages trainer keys data, finalAdvantages trainer keys data) := computeGrpo_eq _ _ _ _ _
  exact congrArg (· >>= _) advantages

theorem grpo_ok {keys : List Key} {data : List (Trajectory K width)} (aligned : data.length = keys.length) (wide : 0 < width) :
    let scores := zipWith (fun score row => row.tokens.toList.map (fun token => score * weight token.valid))
      (keys.map (scoreOfKey trainer keys data)) data
    computeAdvantageForMultiTrajectories trainer .grpo keys data = .ok (scores, scores) := by
  intro scores
  have finals : ((finalAdvantages trainer keys data).zip (finalRows keys data)).mapM (fun entry =>
      finalScore entry.1 (entry.2.tokens.toList.map (fun token => token.valid))) = .ok (finalScores trainer keys data) := by
    apply Fallible.mapM_map
    intro entry member
    have length := grouped_width _ _ _ entry.1 (of_mem_zip member).1
    refine finalScore_ok ?_ (lt_of_lt_of_eq wide length.symm)
    rw [length_map, Vector.length_toList, length]
  have each : keys.mapM (sessionScore (finalSessions keys) (finalScores trainer keys data)) =
      .ok (keys.map (scoreOfKey trainer keys data)) := by
    apply Fallible.mapM_map
    intro key member
    have found : sessionOf key ∈ (finalSessions keys).map Prod.fst :=
      (finalSessions_sessions keys _).mpr (mem_map_of_mem member)
    have inside := idxOf_lt_length_of_mem found
    rw [length_map, ← finalScores_length trainer aligned] at inside
    have read := getElem?_eq_getElem inside
    unfold sessionScore scoreOfKey
    rw [getD_eq_getElem?_getD]
    unfold sessionOf at read ⊢
    rw [read]
    rfl
  rw [grpo_loops, finals, Fallible.ok_bind, each]
  rfl

theorem grpo_narrow {keys : List Key} {data : List (Trajectory K width)} (aligned : data.length = keys.length)
    (filled : keys ≠ []) (narrow : width = 0) :
    computeAdvantageForMultiTrajectories trainer .grpo keys data = .error .indexOutOfRange := by
  have finals : ((finalAdvantages trainer keys data).zip (finalRows keys data)).mapM (fun entry =>
      finalScore entry.1 (entry.2.tokens.toList.map (fun token => token.valid))) = .error .indexOutOfRange := by
    cases split : (finalAdvantages trainer keys data).zip (finalRows keys data) with
    | nil =>
      have lengths := congrArg length split
      rw [length_zip, finalAdvantages_length, Nat.min_self, finalRows_length aligned, length_nil] at lengths
      obtain ⟨key, member⟩ := exists_mem_of_ne_nil keys filled
      have found := (finalSessions_sessions keys _).mpr (mem_map_of_mem member)
      rw [eq_nil_of_length_eq_zero lengths] at found
      cases found
    | cons entry rest =>
      have member : entry ∈ (finalAdvantages trainer keys data).zip (finalRows keys data) := split ▸ mem_cons_self
      have length := grouped_width _ _ _ entry.1 (of_mem_zip member).1
      have empty : entry.1 = [] := eq_nil_of_length_eq_zero (length.trans narrow)
      rw [mapM_cons, finalScore, empty]
      rfl
  rw [grpo_loops, finals]
  rfl

variable {keys others : List Key} {data pads : List (Trajectory K width)}

theorem grpo_append (aligned : data.length = keys.length) (beside : pads.length = others.length) (filled : keys ≠ [])
    (apart : (others.map sessionOf).Nodup) (new : ∀ key ∈ others, sessionOf key ∉ keys.map sessionOf)
    (uids : ∀ row ∈ data, row.uid ∉ pads.map Trajectory.uid) :
    (computeAdvantageForMultiTrajectories trainer .grpo (keys ++ others) (data ++ pads)).map (firstRows keys.length) =
      computeAdvantageForMultiTrajectories trainer .grpo keys data := by
  have both : (data ++ pads).length = (keys ++ others).length := by
    rw [length_append, length_append, aligned, beside]
  by_cases narrow : width = 0
  · rw [grpo_narrow trainer both (by simp [filled]) narrow, grpo_narrow trainer aligned filled narrow]
    rfl
  have wide : 0 < width := Nat.pos_of_ne_zero narrow
  have rows := finalRows_append aligned beside apart new
  have labels : ∀ label ∈ (finalRows keys data).map Trajectory.uid, label ∉ pads.map Trajectory.uid := by
    intro label member
    obtain ⟨row, inside, rfl⟩ := mem_map.mp member
    obtain ⟨session, _, picked⟩ := mem_filterMap.mp inside
    exact uids row (mem_of_getElem? picked)
  obtain ⟨rest, advantages⟩ : ∃ rest, finalAdvantages trainer (keys ++ others) (data ++ pads) =
      finalAdvantages trainer keys data ++ rest := by
    unfold finalAdvantages
    rw [rows, map_append, map_append]
    exact grouped_append _ _ (by rw [length_map, length_map]) labels
  obtain ⟨later, scores⟩ : ∃ later, finalScores trainer (keys ++ others) (data ++ pads) =
      finalScores trainer keys data ++ later := by
    unfold finalScores
    rw [rows, advantages, zip_append (finalAdvantages_length trainer keys data), map_append]
    exact ⟨_, rfl⟩
  have each : (keys ++ others).map (scoreOfKey trainer (keys ++ others) (data ++ pads)) =
      keys.map (scoreOfKey trainer keys data) ++ others.map (scoreOfKey trainer (keys ++ others) (data ++ pads)) := by
    rw [map_append]
    congr 1
    apply map_congr_left
    intro key member
    have found : sessionOf key ∈ (finalSessions keys).map Prod.fst :=
      (finalSessions_sessions keys _).mpr (mem_map_of_mem member)
    have inside := idxOf_lt_length_of_mem found
    rw [length_map, ← finalScores_length trainer aligned] at inside
    unfold scoreOfKey
    rw [scores, finalSessions_append apart new, map_append, idxOf_append_of_mem found,
      getD_append _ _ _ _ inside]
  rw [grpo_ok trainer both wide, grpo_ok trainer aligned wide, each, zipWith_append (by rw [length_map, aligned])]
  have first : ∀ tail : List (List K), (zipWith (fun score row => row.tokens.toList.map (fun token => score * weight token.valid))
      (keys.map (scoreOfKey trainer keys data)) data ++ tail).take keys.length =
      zipWith (fun score row => row.tokens.toList.map (fun token => score * weight token.valid))
        (keys.map (scoreOfKey trainer keys data)) data := by
    intro tail
    apply take_left'
    rw [length_zipWith, length_map, aligned, Nat.min_self]
  exact congrArg (fun rows => Except.ok (rows, rows)) (first _)

/-- Rows without valid tokens, in groups and sessions of their own, change no advantage before them. -/
theorem advantages_append (estimator : Estimator) (aligned : data.length = keys.length) (beside : pads.length = others.length)
    (filled : keys ≠ []) (apart : (others.map sessionOf).Nodup) (new : ∀ key ∈ others, sessionOf key ∉ keys.map sessionOf)
    (uids : ∀ row ∈ data, row.uid ∉ pads.map Trajectory.uid)
    (dead : ∀ row ∈ pads, live (fun token => token.valid) row.tokens = false) :
    (computeAdvantageForMultiTrajectories trainer estimator (keys ++ others) (data ++ pads)).map (firstRows keys.length) =
      computeAdvantageForMultiTrajectories trainer estimator keys data := by
  cases estimator with
  | grpo => exact grpo_append trainer aligned beside filled apart new uids
  | gae =>
    change Except.map _ (computeGaeAdvantageReturn trainer.rsqrt ((data ++ pads).map Trajectory.tokens) trainer.gamma trainer.lam) =
      computeGaeAdvantageReturn trainer.rsqrt (data.map Trajectory.tokens) trainer.gamma trainer.lam
    have masked : ∀ row ∈ pads.map Trajectory.tokens, live (fun token => token.valid) row = false := by
      intro row member
      obtain ⟨pad, inside, rfl⟩ := mem_map.mp member
      exact dead pad inside
    have whitened := computeGae_append trainer.rsqrt (data.map Trajectory.tokens) masked trainer.gamma trainer.lam
    rw [length_map, aligned] at whitened
    rw [map_append, whitened]
  | rloo =>
    change Except.map _ (computeRlooOutcomeAdvantage ((data ++ pads).map Trajectory.rewards) ((data ++ pads).map Trajectory.uid)) =
      computeRlooOutcomeAdvantage (data.map Trajectory.rewards) (data.map Trajectory.uid)
    have labels : ∀ label ∈ data.map Trajectory.uid, label ∉ pads.map Trajectory.uid := by
      intro label member
      obtain ⟨row, inside, rfl⟩ := mem_map.mp member
      exact uids row inside
    have closed (batch : List (Vector (Token K) width)) (index : List (Option String)) :
        computeRlooOutcomeAdvantage batch index = .ok (grouped leaveOneOut batch index, grouped leaveOneOut batch index) :=
      computeRloo_eq batch index
    obtain ⟨rest, rows⟩ := grouped_append leaveOneOut (pads.map Trajectory.rewards)
      (show (data.map Trajectory.uid).length = (data.map Trajectory.rewards).length by rw [length_map, length_map]) labels
    have length : (grouped leaveOneOut (data.map Trajectory.rewards) (data.map Trajectory.uid)).length = keys.length := by
      rw [grouped_length _ (by rw [length_map, length_map]), length_map, aligned]
    rw [closed, closed, map_append, map_append, rows]
    exact congrArg (fun rows => Except.ok (rows, rows)) (take_left' length)

end LLMFusion.SyncTrainer
