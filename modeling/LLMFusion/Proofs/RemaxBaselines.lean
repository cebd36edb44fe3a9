import LLMFusion.RemaxBaselines
import LLMFusion.Lib.Fallible
import Mathlib.Data.List.Induction

/-! The baseline of a sampled output is the reward of the last output of the greedy session of its prompt. A prompt whose
greedy session has no output stops the others too. -/

namespace LLMFusion.RemaxBaselines
open List hiding mapM_map
open Fallible
open PaddingUtils (Key Tag KVBatchMeta)

/-! ### Uids -/

theorem isBaseline_of_append {uid rest : String} (named : uid = baselinePrefix ++ rest) : IsBaseline uid := by
  rw [named, IsBaseline, String.toList_append]
  exact prefix_append _ _

theorem removePrefix_eq {uid : String} (baseline : IsBaseline uid) (rest : String) :
    removePrefix uid = rest ↔ uid = baselinePrefix ++ rest := by
  obtain ⟨behind, split⟩ := baseline
  have removed : removePrefix uid = String.ofList behind := by
    rw [removePrefix, if_pos ⟨behind, split⟩, ← split, drop_left]
  rw [removed, ← String.toList_inj, ← String.toList_inj, String.toList_ofList, String.toList_append, ← split]
  exact (append_cancel_left_eq ..).symm.to_iff

/-! ### Splitting -/

/-- An output of a prompt behind which it has no other. -/
def Final (keys : List Key) (uid : String) (key : Key) : Prop :=
  key ∈ keys ∧ key.uid = uid ∧ ∀ other ∈ keys, other.uid = uid → other.index ≤ key.index

theorem Final.keep {keys : List Key} {uid : String} {key new : Key} (final : Final keys uid key)
    (notLater : new.uid = uid → new.index ≤ key.index) : Final (keys ++ [new]) uid key := by
  obtain ⟨member, named, last⟩ := final
  refine ⟨mem_append_left _ member, named, fun other inside same => ?_⟩
  rcases mem_append.mp inside with before | here
  · exact last other before same
  · cases mem_singleton.mp here
    exact notLater same

theorem Final.move {keys : List Key} {new : Key}
    (later : ∀ other ∈ keys, other.uid = new.uid → other.index ≤ new.index) : Final (keys ++ [new]) new.uid new := by
  refine ⟨mem_append_right _ mem_cons_self, rfl, fun other inside same => ?_⟩
  rcases mem_append.mp inside with before | here
  · exact later other before same
  · cases mem_singleton.mp here
    exact Nat.le_refl _

structure Splits (entries : List (Key × Tag)) (split : Split) : Prop where
  sampled : split.sampled = entries.filter (fun entry => ¬ IsBaseline entry.1.uid)
  baselines : split.allBaselineKeys = (entries.map Prod.fst).filter (fun key => IsBaseline key.uid)
  distinct : (split.finalBaselineKeyByUid.map Prod.fst).Nodup
  greedy : ∀ entry ∈ split.finalBaselineKeyByUid, IsBaseline entry.1
  absent : ∀ uid, IsBaseline uid → Dictionary.get split.finalBaselineKeyByUid uid = none →
    ∀ key ∈ entries.map Prod.fst, key.uid ≠ uid
  final : ∀ uid found, Dictionary.get split.finalBaselineKeyByUid uid = some found →
    found.1 = found.2.index ∧ Final (entries.map Prod.fst) uid found.2

theorem splitKey_baseline {entries : List (Key × Tag)} {split : Split} (before : Splits entries split)
    {entry : Key × Tag} (baseline : IsBaseline entry.1.uid) : Splits (entries ++ [entry]) (splitKey split entry) := by
  rw [splitKey, if_pos baseline]
  refine ⟨?_, ?_, Dictionary.modify_distinct before.distinct _ _, ?_, ?_, ?_⟩
  · rw [before.sampled, filter_append]
    simp [baseline]
  · rw [before.baselines, map_append, filter_append]
    simp [baseline]
  · intro other member
    rcases Dictionary.mem_modify member with old | rfl
    · exact before.greedy other old
    · exact baseline
  · intro uid greedy none
    rw [Dictionary.get_modify] at none
    split at none
    · cases none
    · next other =>
      rw [map_append, forall_mem_append]
      exact ⟨before.absent uid greedy none, forall_mem_singleton.mpr (Ne.symm other)⟩
  · intro uid found isFound
    rw [Dictionary.get_modify] at isFound
    rw [map_append]
    split at isFound
    · next own =>
      subst own
      cases old : Dictionary.get split.finalBaselineKeyByUid entry.1.uid with
      | none =>
        rw [old] at isFound
        cases isFound
        exact ⟨rfl, .move (fun other inside same => absurd same (before.absent _ baseline old other inside))⟩
      | some last =>
        obtain ⟨place, final⟩ := before.final _ last old
        rw [old, finalBaseline] at isFound
        split at isFound
        · next later =>
          cases isFound
          rw [place] at later
          exact ⟨rfl, .move (fun other inside same => (final.2.2 other inside same).trans (Nat.le_of_lt later))⟩
        · next earlier =>
          cases isFound
          rw [place] at earlier
          exact ⟨place, final.keep (fun _ => Nat.le_of_not_lt earlier)⟩
    · next other =>
      obtain ⟨place, final⟩ := before.final uid found isFound
      exact ⟨place, final.keep (fun same => absurd same.symm other)⟩

theorem splitKey_sampled {entries : List (Key × Tag)} {split : Split} (before : Splits entries split)
    {entry : Key × Tag} (other : ¬ IsBaseline entry.1.uid) : Splits (entries ++ [entry]) (splitKey split entry) := by
  rw [splitKey, if_neg other]
  refine ⟨?_, ?_, before.distinct, before.greedy, ?_, ?_⟩
  · rw [before.sampled, filter_append]
    simp [other]
  · rw [before.baselines, map_append, filter_append]
    simp [other]
  · intro uid greedy none
    rw [map_append, forall_mem_append]
    exact ⟨before.absent uid greedy none, forall_mem_singleton.mpr (fun same => other (same ▸ greedy))⟩
  · intro uid found isFound
    obtain ⟨place, final⟩ := before.final uid found isFound
    rw [map_append]
    refine ⟨place, final.keep (fun same => absurd ?_ other)⟩
    exact same.symm ▸ before.greedy _ (Dictionary.get_some_mem isFound)

theorem splits (entries : List (Key × Tag)) : Splits entries (entries.foldl splitKey ⟨[], [], []⟩) := by
  induction entries using reverseRecOn with
  | nil => exact ⟨rfl, rfl, nodup_nil, forall_mem_nil _, fun _ _ _ => forall_mem_nil _, nofun⟩
  | append_singleton entries entry ih =>
    rw [foldl_append, foldl_cons, foldl_nil]
    by_cases baseline : IsBaseline entry.1.uid
    · exact splitKey_baseline ih baseline
    · exact splitKey_sampled ih baseline

/-! ### Baselines -/

variable {K : Type} [AddMonoid K] {state : State K} {batch : KVBatchMeta}

/-- A batch of the replay buffer, whose rows are in the queue. -/
structure Sampled (state : State K) (batch : KVBatchMeta) : Prop where
  tags : batch.keys.length = batch.tags.length
  distinct : batch.keys.Nodup
  rows : ∀ key ∈ batch.keys, ∃ row, state.queue batch.partitionId key = some row ∧ row.uid = key.uid

def rowOf (state : State K) (batch : KVBatchMeta) (key : Key) : Row K :=
  (state.queue batch.partitionId key).getD ⟨key.uid, [], none⟩

omit [AddMonoid K] in
theorem Sampled.row (sampled : Sampled state batch) {key : Key} (member : key ∈ batch.keys) :
    state.queue batch.partitionId key = some (rowOf state batch key) ∧ (rowOf state batch key).uid = key.uid := by
  obtain ⟨row, found, named⟩ := sampled.rows key member
  rw [rowOf, found]
  exact ⟨rfl, named⟩

omit [AddMonoid K] in
theorem Sampled.get (sampled : Sampled state batch) {keys : List Key} (inside : keys ⊆ batch.keys) :
    kvBatchGet state.queue batch.partitionId keys = .ok (keys.map (rowOf state batch)) := by
  apply mapM_map
  intro key member
  rw [(sampled.row (inside member)).1]
  rfl

omit [AddMonoid K] in
theorem Sampled.splits (sampled : Sampled state batch) : Splits (batch.keys.zip batch.tags) (splitKeys batch) ∧
      (batch.keys.zip batch.tags).map Prod.fst = batch.keys :=
  ⟨RemaxBaselines.splits _, map_fst_zip (Nat.le_of_eq sampled.tags)⟩

def scoreOf (state : State K) (batch : KVBatchMeta) (found : Nat × Key) : K :=
  (rowOf state batch found.2).rmScores.sum

omit [AddMonoid K] in
theorem get_renamed {α : Type} {entries : List (String × α)} (greedy : ∀ entry ∈ entries, IsBaseline entry.1)
    (score : α → K)
    (uid : String) : Dictionary.get (entries.map (fun entry => (removePrefix entry.1, score entry.2))) uid =
      (Dictionary.get entries (baselinePrefix ++ uid)).map score := by
  induction entries with
  | nil => rfl
  | cons entry entries ih =>
    obtain ⟨here, greedy⟩ := forall_mem_cons.mp greedy
    rw [map_cons, Dictionary.get_cons, Dictionary.get_cons, ih greedy]
    by_cases own : entry.1 = baselinePrefix ++ uid
    · rw [if_pos own, if_pos ((removePrefix_eq here uid).mpr own)]
      rfl
    · rw [if_neg own, if_neg (fun same => own ((removePrefix_eq here uid).mp same))]

theorem Sampled.baseline (sampled : Sampled state batch) (uid : String) :
    Dictionary.get (baselineByUid (((splitKeys batch).finalBaselineKeyByUid.map (fun entry => entry.2.2)).map
      (rowOf state batch))) uid = (Dictionary.get (splitKeys batch).finalBaselineKeyByUid (baselinePrefix ++ uid)).map
          (scoreOf state batch) := by
  obtain ⟨split, keys⟩ := sampled.splits
  have items : ((splitKeys batch).finalBaselineKeyByUid.map (fun entry => entry.2.2)).map
      (fun key => (removePrefix (rowOf state batch key).uid, (rowOf state batch key).rmScores.sum)) =
      (splitKeys batch).finalBaselineKeyByUid.map
          (fun entry => (removePrefix entry.1, scoreOf state batch entry.2)) := by
    rw [map_map]
    apply map_congr_left
    intro entry member
    obtain ⟨_, inside, named, _⟩ := split.final entry.1 entry.2 (Dictionary.get_of_mem split.distinct member)
    rw [Function.comp_apply, (sampled.row (keys ▸ inside)).2, named, scoreOf]
  have apart : (((splitKeys batch).finalBaselineKeyByUid.map
      (fun entry => (removePrefix entry.1, scoreOf state batch entry.2))).map Prod.fst).Nodup := by
    rw [map_map]
    have whole := split.distinct.map_on (f := removePrefix) (fun uid inside uid' inside' same => ?_)
    · rwa [map_map] at whole
    · obtain ⟨entry, member, rfl⟩ := mem_map.mp inside
      obtain ⟨entry', member', rfl⟩ := mem_map.mp inside'
      exact ((removePrefix_eq (split.greedy _ member) _).mp same).trans
        ((removePrefix_eq (split.greedy _ member') _).mp rfl).symm
  rw [baselineByUid, map_map]
  rw [map_map] at items
  rw [show (fun row : Row K => (removePrefix row.uid, row.rmScores.sum)) ∘ rowOf state batch =
    fun key => (removePrefix (rowOf state batch key).uid, (rowOf state batch key).rmScores.sum) from rfl,
      map_map, items,
    Dictionary.merge_append apart, nil_append, get_renamed split.greedy]

omit [AddMonoid K] in
theorem get_zip_map {keys : List Key} (distinct : keys.Nodup) (score : Key → K) (key : Key) :
    Dictionary.get (keys.zip (keys.map score)) key = if key ∈ keys then some (score key) else none := by
  induction keys with
  | nil => rfl
  | cons first keys ih =>
    obtain ⟨new, distinct⟩ := nodup_cons.mp distinct
    rw [map_cons, zip_cons_cons, Dictionary.get_cons, ih distinct]
    by_cases here : first = key
    · subst here
      simp
    · simp [here, Ne.symm here]

/-! ### The trainer -/

def sampledKeys (batch : KVBatchMeta) : List Key := batch.keys.filter (fun key => ¬ IsBaseline key.uid)

/-- The sampled outputs come back in order, each with the reward of the last output of its own greedy prompt, and the greedy
outputs are nowhere. -/
structure Attached (state : State K) (batch : KVBatchMeta) (next : State K) (out : KVBatchMeta) : Prop where
  keys : out.keys = sampledKeys batch
  tags : out.tags = ((batch.keys.zip batch.tags).filter (fun entry => ¬ IsBaseline entry.1.uid)).map Prod.snd
  same : out.partitionId = batch.partitionId ∧ out.fields = batch.fields ∧ out.extraInfo = batch.extraInfo
  baselines : ∀ key ∈ out.keys, ∃ final row last, Final batch.keys (baselinePrefix ++ key.uid) final ∧
    state.queue batch.partitionId key = some row ∧ state.queue batch.partitionId final = some last ∧
    next.queue batch.partitionId key = some { row with rewardBaselines := some last.rmScores.sum }
  cleared : ∀ key ∈ batch.keys, IsBaseline key.uid →
    next.queue batch.partitionId key = none ∧ key ∉ (next.buffer batch.partitionId).map Prod.fst
  queue : ∀ partition key, partition ≠ batch.partitionId ∨ key ∉ batch.keys →
    next.queue partition key = state.queue partition key
  buffer : ∀ partition key, partition ≠ batch.partitionId ∨ key ∉ batch.keys ∨ ¬ IsBaseline key.uid →
    Dictionary.get (next.buffer partition) key = Dictionary.get (state.buffer partition) key

def Attaches (state : State K) (batch : KVBatchMeta) : Prop :=
  ∃ next out, addRemaxRewardBaselines state batch = .ok (next, out) ∧ Attached state batch next out

/-- The greedy session of every sampled prompt has an output. -/
def Answered (batch : KVBatchMeta) : Prop :=
  ∀ key ∈ batch.keys, ¬ IsBaseline key.uid → ∃ other ∈ batch.keys, other.uid = baselinePrefix ++ key.uid

omit [AddMonoid K] in
theorem Sampled.keys (sampled : Sampled state batch) : (splitKeys batch).sampled.map Prod.fst = sampledKeys batch := by
  obtain ⟨split, keys⟩ := sampled.splits
  have whole := filter_map (f := Prod.fst) (p := fun key : Key => ¬ IsBaseline key.uid)
    (l := batch.keys.zip batch.tags)
  rw [keys] at whole
  rw [split.sampled, sampledKeys, whole]
  rfl

theorem Sampled.steps (sampled : Sampled state batch) : addRemaxRewardBaselines state batch =
    if (splitKeys batch).finalBaselineKeyByUid = [] then .error .assertionError
    else (sampledKeys batch).mapM (fun key => orKeyError
        ((Dictionary.get (splitKeys batch).finalBaselineKeyByUid (baselinePrefix ++ key.uid)).map
          (scoreOf state batch))) >>=
      fun rewardBaselines => if rewardBaselines.isEmpty then .error .runtimeError else
        .ok (⟨kvClear (kvBatchPut state.queue batch.partitionId
          ((sampledKeys batch).zip rewardBaselines)) batch.partitionId
            (splitKeys batch).allBaselineKeys,
              remove state.buffer batch.partitionId (splitKeys batch).allBaselineKeys⟩,
          { batch with keys := sampledKeys batch, tags := (splitKeys batch).sampled.map Prod.snd }) := by
  obtain ⟨split, keys⟩ := sampled.splits
  have greedy : (splitKeys batch).finalBaselineKeyByUid.map (fun entry => entry.2.2) ⊆ batch.keys := by
    intro key member
    obtain ⟨entry, inside, rfl⟩ := mem_map.mp member
    exact keys ▸ (split.final entry.1 entry.2 (Dictionary.get_of_mem split.distinct inside)).2.1
  have own : sampledKeys batch ⊆ batch.keys := filter_sublist.subset
  have lookups : (sampledKeys batch).mapM (fun key => orKeyError (Dictionary.get (baselineByUid
      (((splitKeys batch).finalBaselineKeyByUid.map (fun entry => entry.2.2)).map (rowOf state batch)))
      (rowOf state batch key).uid)) = (sampledKeys batch).mapM (fun key => orKeyError
        ((Dictionary.get (splitKeys batch).finalBaselineKeyByUid (baselinePrefix ++ key.uid)).map
            (scoreOf state batch))) := by
    apply mapM_congr
    intro key member
    rw [(sampled.row (own member)).2, sampled.baseline]
  unfold addRemaxRewardBaselines
  simp only [sampled.tags, ne_eq, not_true_eq_false, if_false, sampled.keys, sampled.get greedy,
    sampled.get own,
    ok_bind, List.mapM_map, Function.comp_def, lookups]
  split
  · rfl
  · apply congrArg (_ >>= ·)
    funext rewardBaselines
    split <;> rfl

theorem attached (sampled : Sampled state batch) (score : Key → K)
    (scores : ∀ key ∈ sampledKeys batch, ∃ final, Final batch.keys (baselinePrefix ++ key.uid) final ∧
      score key = (rowOf state batch final).rmScores.sum) :
    Attached state batch ⟨kvClear (kvBatchPut state.queue batch.partitionId
      ((sampledKeys batch).zip ((sampledKeys batch).map score))) batch.partitionId (splitKeys batch).allBaselineKeys,
        remove state.buffer batch.partitionId (splitKeys batch).allBaselineKeys⟩
      { batch with keys := sampledKeys batch, tags := (splitKeys batch).sampled.map Prod.snd } := by
  obtain ⟨split, keys⟩ := sampled.splits
  have greedy : ∀ key, key ∈ (splitKeys batch).allBaselineKeys ↔ key ∈ batch.keys ∧ IsBaseline key.uid := by
    intro key
    rw [split.baselines, keys, mem_filter, decide_eq_true_iff]
  have own : ∀ key, key ∈ sampledKeys batch ↔ key ∈ batch.keys ∧ ¬ IsBaseline key.uid := by
    intro key
    rw [sampledKeys, mem_filter, decide_eq_true_iff]
  have put : ∀ key, Dictionary.get ((sampledKeys batch).zip ((sampledKeys batch).map score)) key =
      if key ∈ sampledKeys batch then some (score key) else none :=
        get_zip_map (sampled.distinct.filter _) score
  refine ⟨rfl, by rw [split.sampled], ⟨rfl, rfl, rfl⟩, ?_, ?_, ?_, ?_⟩
  · intro key member
    obtain ⟨final, isFinal, isScore⟩ := scores key member
    obtain ⟨inside, other⟩ := (own key).mp member
    have kept : key ∉ (splitKeys batch).allBaselineKeys := fun cleared => other ((greedy key).mp cleared).2
    refine ⟨final, _, _, isFinal, (sampled.row inside).1, (sampled.row isFinal.1).1, ?_⟩
    simp only [kvClear, kept, and_false, if_false, kvBatchPut, if_true, put, if_pos member,
      (sampled.row inside).1, isScore,
      Option.map_some]
  · intro key member baseline
    have listed := (greedy key).mpr ⟨member, baseline⟩
    refine ⟨if_pos ⟨rfl, listed⟩, ?_⟩
    simp only [remove, if_true]
    exact fun kept => (Dictionary.mem_keys_erase.mp kept).2 listed
  · intro partition key elsewhere
    have kept : ¬ (partition = batch.partitionId ∧ key ∈ (splitKeys batch).allBaselineKeys) :=
      fun cleared => elsewhere.elim (· cleared.1) (· ((greedy key).mp cleared.2).1)
    simp only [kvClear, if_neg kept, kvBatchPut]
    by_cases here : partition = batch.partitionId
    · have absent : key ∉ sampledKeys batch :=
      fun member => (elsewhere.resolve_left (not_not_intro here)) ((own key).mp member).1
      simp only [if_pos here, put, if_neg absent]
    · simp only [if_neg here]
  · intro partition key elsewhere
    simp only [remove]
    split
    · next here =>
      have absent : key ∉ (splitKeys batch).allBaselineKeys := by
        intro listed
        obtain ⟨member, baseline⟩ := (greedy key).mp listed
        exact (elsewhere.resolve_left (not_not_intro here)).elim (· member) (· baseline)
      rw [Dictionary.get_erase, if_neg absent]
    · rfl

/-- Baselines are attached exactly if there is a sampled output, and no sampled prompt lacks a greedy one. -/
theorem addRemaxRewardBaselines_iff (sampled : Sampled state batch) :
    Attaches state batch ↔ sampledKeys batch ≠ [] ∧ Answered batch := by
  obtain ⟨split, keys⟩ := sampled.splits
  have own : ∀ key, key ∈ sampledKeys batch ↔ key ∈ batch.keys ∧ ¬ IsBaseline key.uid := by
    intro key
    rw [sampledKeys, List.mem_filter, decide_eq_true_iff]
  unfold Attaches
  rw [sampled.steps]
  constructor
  · rintro ⟨next, out, returned, _⟩
    split at returned
    · cases returned
    · obtain ⟨rewardBaselines, looked, rest⟩ := bind_eq_ok.mp returned
      have found := mapM_succeeded looked
      constructor
      · intro none
        rw [none] at found
        cases found
        cases rest
      · intro key member other
        obtain ⟨_, _, score⟩ := forall₂_left found ((own key).mpr ⟨member, other⟩)
        cases isFinal : Dictionary.get (splitKeys batch).finalBaselineKeyByUid (baselinePrefix ++ key.uid) with
        | none =>
          rw [isFinal] at score
          cases score
        | some last =>
          obtain ⟨inside, named, _⟩ := (split.final _ last isFinal).2
          exact ⟨last.2, keys ▸ inside, named⟩
  · rintro ⟨filled, answered⟩
    have finals : ∀ key ∈ sampledKeys batch, ∃ found,
        Dictionary.get (splitKeys batch).finalBaselineKeyByUid (baselinePrefix ++ key.uid) = some found := by
      intro key member
      obtain ⟨other, inside, named⟩ := answered key ((own key).mp member).1 ((own key).mp member).2
      apply Option.ne_none_iff_exists'.mp
      intro none
      exact split.absent _ (isBaseline_of_append rfl) none other (keys.symm ▸ inside) named
    have some : (splitKeys batch).finalBaselineKeyByUid ≠ [] := by
      obtain ⟨key, member⟩ := List.exists_mem_of_ne_nil _ filled
      obtain ⟨found, isFound⟩ := finals key member
      exact List.ne_nil_of_mem (Dictionary.get_some_mem isFound)
    let score : Key → K := fun key =>
      ((Dictionary.get (splitKeys batch).finalBaselineKeyByUid (baselinePrefix ++ key.uid)).map
        (scoreOf state batch)).getD 0
    have looked : (sampledKeys batch).mapM (fun key => orKeyError
        ((Dictionary.get (splitKeys batch).finalBaselineKeyByUid (baselinePrefix ++ key.uid)).map
          (scoreOf state batch))) =
        .ok ((sampledKeys batch).map score) := by
      apply mapM_map
      intro key member
      obtain ⟨found, isFound⟩ := finals key member
      simp only [isFound, Option.map_some, orKeyError, score, Option.getD_some]
    have notEmpty : ¬ ((sampledKeys batch).map score).isEmpty = true := by
      rw [List.isEmpty_iff, List.map_eq_nil_iff]
      exact filled
    refine ⟨_, _, ?_, attached sampled score (fun key member => ?_)⟩
    · rw [if_neg some, looked, ok_bind, if_neg notEmpty]
    · obtain ⟨found, isFound⟩ := finals key member
      refine ⟨found.2, keys ▸ (split.final _ found isFound).2, ?_⟩
      simp only [score, isFound, Option.map_some, Option.getD_some, scoreOf]

def success : Tag := ⟨0, "success", 1, 1, 2, false⟩

def batchOf (keys : List Key) : KVBatchMeta := ⟨keys, keys.map (fun _ => success), "train", none, []⟩

def stateOf (keys : List Key) : State Int where
  queue := fun _ key => if key ∈ keys then some ⟨key.uid, [1], none⟩ else none
  buffer := fun _ => keys.map (fun key => (key, success))

theorem sampled_of {keys : List Key} (distinct : keys.Nodup) : Sampled (stateOf keys) (batchOf keys) :=
  ⟨(length_map _).symm, distinct, fun _ member => ⟨_, if_pos member, rfl⟩⟩

def answeredKeys : List Key := [⟨"a", 0, 0⟩, ⟨"remax_baseline_a", 0, 0⟩, ⟨"remax_baseline_a", 0, 1⟩]

def unansweredKeys : List Key := [⟨"a", 0, 0⟩, ⟨"b", 0, 0⟩, ⟨"remax_baseline_a", 0, 0⟩]

theorem attaches_answered : Attaches (stateOf answeredKeys) (batchOf answeredKeys) := by
  apply (addRemaxRewardBaselines_iff (sampled_of (by decide))).mpr
  refine ⟨by decide, ?_⟩
  unfold Answered
  decide

theorem not_attaches : ¬ ∀ keys : List Key, keys.Nodup → sampledKeys (batchOf keys) ≠ [] →
    (∃ key ∈ keys, IsBaseline key.uid) → Attaches (stateOf keys) (batchOf keys) := by
  intro attaches
  obtain ⟨_, _, returned, _⟩ := attaches unansweredKeys (by decide) (by decide) (by decide)
  have raised : addRemaxRewardBaselines (stateOf unansweredKeys) (batchOf unansweredKeys) = .error .keyError :=
    rfl
  rw [raised] at returned
  cases returned

end LLMFusion.RemaxBaselines
