import LLMFusion.TensorProtocol
import Mathlib.Data.List.TakeWhile

/-! When a union is atomic. The dictionaries are merged key by key, each in place, so a conflict
leaves the receiver as it was only if no key before it has been a new one. -/

namespace LLMFusion.TensorProtocol
open List

/-- What the loop finds at a key. -/
inductive Meeting where
  | fresh
  | same
  | conflict
  deriving DecidableEq, Repr

variable {α β γ μ : Type}

def meeting (equal : γ → γ → Bool) (dict : List (String × γ)) (entry : String × γ) : Meeting :=
  match dict.lookup entry.1 with
  | none => .fresh
  | some value => if equal value entry.2 then .same else .conflict

def meetings (equal : γ → γ → Bool) (dict entries : List (String × γ)) : List Meeting := entries.map (meeting equal dict)

/-- What is met before the first conflict. -/
def uninterrupted (met : List Meeting) : List Meeting := met.takeWhile (· ≠ .conflict)

theorem uninterrupted_whole {met : List Meeting} (without : Meeting.conflict ∉ met) : uninterrupted met = met := by
  apply takeWhile_eq_self_iff.mpr
  intro here member
  exact decide_eq_true (fun same => without (same ▸ member))

theorem uninterrupted_conflict {met : List Meeting} (conflicting : Meeting.conflict ∈ met) (later : List Meeting) :
    uninterrupted (met ++ later) = uninterrupted met := by
  induction met with
  | nil => cases conflicting
  | cons here met ih =>
    by_cases stops : here = .conflict
    · simp [uninterrupted, stops]
    · have rest := ih ((mem_cons.mp conflicting).resolve_left (Ne.symm stops))
      simp only [uninterrupted, cons_append, takeWhile_cons, ne_eq, stops, not_false_eq_true, decide_true,
        ite_true] at rest ⊢
      rw [rest]

theorem uninterrupted_append {met : List Meeting} (without : Meeting.conflict ∉ met) (later : List Meeting) :
    uninterrupted (met ++ later) = met ++ uninterrupted later := by
  apply takeWhile_append_of_pos
  intro here member
  exact decide_eq_true (fun same => without (same ▸ member))

/-! ### One dictionary -/

/-- What is done with a key that is there already leaves its value or replaces it. -/
structure Stores (again : List (String × γ) → String × γ → List (String × γ)) (kept : γ → γ → γ) : Prop where
  lookup : ∀ {dict : List (String × γ)} {entry : String × γ} {value : γ} (key : String), dict.lookup entry.1 = some value →
    (again dict entry).lookup key = if key = entry.1 then some (kept value entry.2) else dict.lookup key
  either : ∀ value new, kept value new = value ∨ kept value new = new

theorem stores_leaves : Stores (fun (dict : List (String × γ)) _ => dict) (fun value _ => value) where
  lookup := by
    intro dict entry value key found
    split
    next same => rw [same, found]
    next => rfl
  either := fun _ _ => Or.inl rfl

theorem stores_replaces :
    Stores (fun (dict : List (String × γ)) entry => Indexing.insert entry.1 entry.2 dict) (fun _ new => new) where
  lookup := by
    intro dict entry value key _
    exact Indexing.lookup_insert
  either := fun _ _ => Or.inr rfl

/-- The same keys with values that are alike. -/
def SameDict (alike : γ → γ → Prop) (before after : List (String × γ)) : Prop :=
  ∀ key, Option.Rel alike (before.lookup key) (after.lookup key)

/-- Every key of either dictionary with the value it has there, and of both with one of two equal
values. -/
structure IsUnion (equal : γ → γ → Bool) (first second result : List (String × γ)) : Prop where
  left : ∀ key, second.lookup key = none → result.lookup key = first.lookup key
  right : ∀ key, first.lookup key = none → result.lookup key = second.lookup key
  both : ∀ key value new, first.lookup key = some value → second.lookup key = some new →
    equal value new = true ∧ (result.lookup key = some value ∨ result.lookup key = some new)

theorem SameDict.refl {alike : γ → γ → Prop} (reflexive : ∀ value, alike value value) (dict : List (String × γ)) :
    SameDict alike dict dict := by
  intro key
  cases dict.lookup key with
  | none => exact .none
  | some value => exact .some (reflexive value)

variable {again : List (String × γ) → String × γ → List (String × γ)} {kept : γ → γ → γ} {equal : γ → γ → Bool}
  {conflict : String → Failure} {dict entries : List (String × γ)} {entry : String × γ}

theorem unionInto_fresh (absent : dict.lookup entry.1 = none) : unionInto again equal conflict dict (entry :: entries) =
      unionInto again equal conflict (Indexing.insert entry.1 entry.2 dict) entries := by
  simp only [unionInto, absent]

theorem unionInto_same {value : γ} (found : dict.lookup entry.1 = some value) (same : equal value entry.2 = true) :
    unionInto again equal conflict dict (entry :: entries) = unionInto again equal conflict (again dict entry) entries := by
  simp only [unionInto, found, same, ite_true]

theorem unionInto_conflict {value : γ} (found : dict.lookup entry.1 = some value) (different : equal value entry.2 = false) :
    unionInto again equal conflict dict (entry :: entries) = (some (conflict entry.1), dict) := by
  simp only [unionInto, found, different, Bool.false_eq_true, ite_false]

theorem unionInto_lookup (stores : Stores again kept) {key : String} (other : key ∉ entries.map Prod.fst) :
    (unionInto again equal conflict dict entries).2.lookup key = dict.lookup key := by
  induction entries generalizing dict with
  | nil => rfl
  | cons entry entries ih =>
    obtain ⟨different, rest⟩ := not_or.mp (fun inside => other (mem_cons.mpr inside))
    cases found : dict.lookup entry.1 with
    | none => rw [unionInto_fresh found, ih rest, Indexing.lookup_insert, if_neg different]
    | some value =>
      cases same : equal value entry.2 with
      | true => rw [unionInto_same found same, ih rest, stores.lookup key found, if_neg different]
      | false => rw [unionInto_conflict found same]

theorem meetings_fresh (absent : dict.lookup entry.1 = none) :
    meetings equal dict (entry :: entries) = .fresh :: meetings equal dict entries := by
  rw [meetings, map_cons, meeting, absent, meetings]

theorem meetings_same {value : γ} (found : dict.lookup entry.1 = some value) (same : equal value entry.2 = true) :
    meetings equal dict (entry :: entries) = .same :: meetings equal dict entries := by
  simp only [meetings, map_cons, meeting, found, same, ite_true]

theorem meetings_conflict {value : γ} (found : dict.lookup entry.1 = some value) (different : equal value entry.2 = false) :
    meetings equal dict (entry :: entries) = .conflict :: meetings equal dict entries := by
  simp only [meetings, map_cons, meeting, found, different, Bool.false_eq_true, ite_false]

theorem meetings_congr {dict' : List (String × γ)} {name : String} (passed : name ∉ entries.map Prod.fst)
    (others : ∀ key, key ≠ name → dict'.lookup key = dict.lookup key) :
    meetings equal dict' entries = meetings equal dict entries := by
  apply map_congr_left
  intro entry member
  have different : entry.1 ≠ name := fun same => passed (same ▸ mem_map_of_mem member)
  rw [meeting, meeting, others _ different]

theorem meetings_insert (passed : entry.1 ∉ entries.map Prod.fst) :
    meetings equal (Indexing.insert entry.1 entry.2 dict) entries = meetings equal dict entries := by
  apply meetings_congr passed
  intro key different
  rw [Indexing.lookup_insert, if_neg different]

theorem meetings_again (stores : Stores again kept) {value : γ} (found : dict.lookup entry.1 = some value)
    (passed : entry.1 ∉ entries.map Prod.fst) :
    meetings equal (again dict entry) entries = meetings equal dict entries := by
  apply meetings_congr passed
  intro key different
  rw [stores.lookup key found, if_neg different]

theorem unionInto_fails_iff (stores : Stores again kept) (distinct : (entries.map Prod.fst).Nodup) :
    (unionInto again equal conflict dict entries).1.isSome ↔ Meeting.conflict ∈ meetings equal dict entries := by
  induction entries generalizing dict with
  | nil => simp [unionInto, meetings]
  | cons entry entries ih =>
    obtain ⟨passed, rest⟩ := nodup_cons.mp distinct
    cases found : dict.lookup entry.1 with
    | none =>
      rw [unionInto_fresh found, ih rest, meetings_insert passed, meetings_fresh found]
      simp
    | some value =>
      cases same : equal value entry.2 with
      | true =>
        rw [unionInto_same found same, ih rest, meetings_again stores found passed, meetings_same found same]
        simp
      | false =>
        rw [unionInto_conflict found same, meetings_conflict found same]
        exact iff_of_true rfl mem_cons_self

theorem unionInto_sameDict_iff (stores : Stores again kept) {alike : γ → γ → Prop} (reflexive : ∀ value, alike value value)
    (keeps : ∀ value new, equal value new = true → alike value (kept value new)) (distinct : (entries.map Prod.fst).Nodup) :
    SameDict alike dict (unionInto again equal conflict dict entries).2 ↔
      Meeting.fresh ∉ uninterrupted (meetings equal dict entries) := by
  induction entries generalizing dict with
  | nil => exact iff_of_true (SameDict.refl reflexive dict) not_mem_nil
  | cons entry entries ih =>
    obtain ⟨passed, rest⟩ := nodup_cons.mp distinct
    cases found : dict.lookup entry.1 with
    | none =>
      rw [unionInto_fresh found, meetings_fresh found]
      refine iff_of_false ?_ (not_not_intro mem_cons_self)
      intro unchanged
      have here := unchanged entry.1
      rw [unionInto_lookup stores passed, Indexing.lookup_insert, if_pos rfl, found] at here
      cases here
    | some value =>
      cases same : equal value entry.2 with
      | true =>
        have further : uninterrupted (.same :: meetings equal dict entries) =
            .same :: uninterrupted (meetings equal dict entries) := rfl
        have step := @ih (again dict entry) rest
        rw [meetings_again stores found passed] at step
        have other : Meeting.fresh ≠ .same := Meeting.noConfusion
        rw [unionInto_same found same, meetings_same found same, further, mem_cons, or_iff_right other, ← step]
        -- the key that is passed has its value or an equal one, and the others are looked up alike
        have here : (unionInto again equal conflict (again dict entry) entries).2.lookup entry.1 =
            some (kept value entry.2) := by
          rw [unionInto_lookup stores passed, stores.lookup entry.1 found, if_pos rfl]
        apply forall_congr'
        intro key
        rw [stores.lookup key found]
        split
        next isHere =>
          rw [isHere, found, here]
          exact iff_of_true (.some (keeps value entry.2 same)) (.some (reflexive _))
        next => rfl
      | false =>
        rw [unionInto_conflict found same, meetings_conflict found same]
        exact iff_of_true (SameDict.refl reflexive dict) not_mem_nil

private theorem lookup_head (entry : String × γ) (entries : List (String × γ)) : (entry :: entries).lookup entry.1 = some entry.2 := by
  rw [lookup_cons, beq_self_eq_true]

private theorem lookup_tail {key : String} (different : key ≠ entry.1) : (entry :: entries).lookup key = entries.lookup key := by
  rw [lookup_cons, beq_eq_false_iff_ne.mpr different]

private theorem absent_key {key : String} (absent : entries.lookup key = none) : key ∉ entries.map Prod.fst := by
  intro inside
  obtain ⟨entry, member, rfl⟩ := mem_map.mp inside
  simpa using lookup_eq_none_iff.mp absent entry member

theorem unionInto_isUnion (stores : Stores again kept) (distinct : (entries.map Prod.fst).Nodup)
    (without : Meeting.conflict ∉ meetings equal dict entries) :
    IsUnion equal dict entries (unionInto again equal conflict dict entries).2 := by
  refine ⟨fun key absent => unionInto_lookup stores (absent_key absent), ?_, ?_⟩
  · intro key absent
    induction entries generalizing dict with
    | nil => exact absent
    | cons entry entries ih =>
      obtain ⟨passed, rest⟩ := nodup_cons.mp distinct
      cases found : dict.lookup entry.1 with
      | none =>
        rw [meetings_fresh found, ← meetings_insert passed] at without
        rw [unionInto_fresh found]
        by_cases here : key = entry.1
        · rw [here, lookup_head, unionInto_lookup stores passed, Indexing.lookup_insert, if_pos rfl]
        · rw [lookup_tail here]
          exact ih rest (not_mem_of_not_mem_cons without) (by rw [Indexing.lookup_insert, if_neg here, absent])
      | some value =>
        have other : key ≠ entry.1 := by
          rintro rfl
          cases absent.symm.trans found
        cases same : equal value entry.2 with
        | true =>
          rw [meetings_same found same, ← meetings_again stores found passed] at without
          rw [unionInto_same found same, lookup_tail other]
          exact ih rest (not_mem_of_not_mem_cons without) (by rw [stores.lookup key found, if_neg other, absent])
        | false =>
          rw [meetings_conflict found same] at without
          exact absurd mem_cons_self without
  · intro key value new held given
    induction entries generalizing dict with
    | nil => cases given
    | cons entry entries ih =>
      obtain ⟨passed, rest⟩ := nodup_cons.mp distinct
      cases found : dict.lookup entry.1 with
      | none =>
        have other : key ≠ entry.1 := by
          rintro rfl
          cases held.symm.trans found
        rw [meetings_fresh found, ← meetings_insert passed] at without
        rw [unionInto_fresh found]
        rw [lookup_tail other] at given
        exact ih rest (not_mem_of_not_mem_cons without) (by rw [Indexing.lookup_insert, if_neg other, held]) given
      | some old =>
        cases same : equal old entry.2 with
        | true =>
          rw [meetings_same found same, ← meetings_again stores found passed] at without
          rw [unionInto_same found same]
          by_cases here : key = entry.1
          · subst here
            cases found.symm.trans held
            rw [lookup_head] at given
            cases given
            rw [unionInto_lookup stores passed, stores.lookup entry.1 found, if_pos rfl]
            exact ⟨same, (stores.either value entry.2).imp (congrArg some) (congrArg some)⟩
          · rw [lookup_tail here] at given
            exact ih rest (not_mem_of_not_mem_cons without) (by rw [stores.lookup key found, if_neg here, held]) given
        | false =>
          rw [meetings_conflict found same] at without
          exact absurd mem_cons_self without

/-! ### The three dictionaries -/

/-- A value that is the same or compares as equal. -/
def Alike (equal : γ → γ → Bool) (value value' : γ) : Prop := value' = value ∨ equal value value' = true

theorem Alike.refl {equal : γ → γ → Bool} (value : γ) : Alike equal value value := Or.inl rfl

/-- A loop by what it meets: when it fails, when it has left the dictionary as it was, and what it has
made otherwise. -/
structure Merges (equal : γ → γ → Bool) (alike : γ → γ → Prop) (dict entries : List (String × γ))
    (result : Option Failure × List (String × γ)) : Prop where
  fails : result.1.isSome ↔ Meeting.conflict ∈ meetings equal dict entries
  same : SameDict alike dict result.2 ↔ Meeting.fresh ∉ uninterrupted (meetings equal dict entries)
  unites : Meeting.conflict ∉ meetings equal dict entries → IsUnion equal dict entries result.2

theorem unionTensorDict_merges (compare : Comparisons α β μ) (first : List (String × NdTensor α)) {second : List (String × NdTensor α)}
    (distinct : (second.map Prod.fst).Nodup) :
    Merges compare.tensorEqual Eq first second (unionTensorDict compare first second) where
  fails := unionInto_fails_iff stores_leaves distinct
  same := unionInto_sameDict_iff stores_leaves (fun _ => rfl) (fun _ _ _ => rfl) distinct
  unites := unionInto_isUnion stores_leaves distinct

theorem replacing_merges {equal : γ → γ → Bool} (conflict : String → Failure) {first second : List (String × γ)}
    (distinct : (second.map Prod.fst).Nodup) :
    Merges equal (Alike equal) first second
      (unionInto (fun dict entry => Indexing.insert entry.1 entry.2 dict) equal conflict first second) where
  fails := unionInto_fails_iff stores_replaces distinct
  same := unionInto_sameDict_iff stores_replaces Alike.refl (fun _ _ => Or.inr) distinct
  unites := unionInto_isUnion stores_replaces distinct

/-- The receiver has what it had, up to values that compare as equal. -/
structure Unchanged (compare : Comparisons α β μ) (before after : DataProto α β μ) : Prop where
  batch : Option.Rel (fun table table' => table'.batchSize = table.batchSize ∧ SameDict Eq table.columns table'.columns)
    before.batch after.batch
  nonTensorBatch : SameDict (Alike compare.deepEqual) before.nonTensorBatch after.nonTensorBatch
  metaInfo : SameDict (Alike (fun old new => compare.equal new old)) before.metaInfo after.metaInfo

/-- The receiver has the columns and the values of both. -/
structure Unites (compare : Comparisons α β μ) (receiver other after : DataProto α β μ) : Prop where
  batch : ∃ first second table, receiver.batch = some first ∧ other.batch = some second ∧ after.batch = some table ∧
    table.batchSize = first.batchSize ∧ IsUnion compare.tensorEqual first.columns second.columns table.columns
  nonTensorBatch : IsUnion compare.deepEqual receiver.nonTensorBatch other.nonTensorBatch after.nonTensorBatch
  metaInfo : IsUnion (fun old new => compare.equal new old) receiver.metaInfo other.metaInfo after.metaInfo

/-- A union that raises leaves the receiver, and one that returns has united. -/
structure Atomic (compare : Comparisons α β μ) (receiver other : DataProto α β μ) : Prop where
  raised : (receiver.union compare other).1.isSome → Unchanged compare receiver (receiver.union compare other).2
  returned : (receiver.union compare other).1 = none → Unites compare receiver other (receiver.union compare other).2

/-- What the three loops meet, one behind the other, in batches of one size. -/
def DataProto.met (compare : Comparisons α β μ) (self other : DataProto α β μ) : List Meeting :=
  match self.batch, other.batch with
  | some first, some second =>
    if first.batchSize = second.batchSize then
      meetings compare.tensorEqual first.columns second.columns ++
        (meetings compare.deepEqual self.nonTensorBatch other.nonTensorBatch ++
          meetings (fun old new => compare.equal new old) self.metaInfo other.metaInfo)
    else []
  | _, _ => []

variable {compare : Comparisons α β μ} {self other : DataProto α β μ}

theorem Unchanged.refl (compare : Comparisons α β μ) (data : DataProto α β μ) : Unchanged compare data data := by
  refine ⟨?_, SameDict.refl Alike.refl _, SameDict.refl Alike.refl _⟩
  cases data.batch with
  | none => exact .none
  | some table => exact .some ⟨rfl, SameDict.refl (fun _ => rfl) _⟩

theorem union_refused (compare : Comparisons α β μ) (apart : ∀ first second, self.batch = some first → other.batch = some second →
    first.batchSize ≠ second.batchSize) : (self.union compare other).1.isSome ∧ (self.union compare other).2 = self := by
  cases held : self.batch with
  | none => simp [DataProto.union, held]
  | some first =>
    cases given : other.batch with
    | none => simp [DataProto.union, held, given]
    | some second =>
      simp only [DataProto.union, held, given, TensorDict.union, dif_neg (apart first second held given), Option.isSome_some,
        ite_true, true_and]
      exact DataProto.ext held.symm rfl rfl

section Merging
variable {first second : TensorDict α}

theorem union_stages (compare : Comparisons α β μ) (held : self.batch = some first) (given : other.batch = some second)
    (same : first.batchSize = second.batchSize) :
    ∃ table, table.batchSize = first.batchSize ∧
      table.columns = (unionTensorDict compare first.columns second.columns).2 ∧
      self.union compare other =
        if (unionTensorDict compare first.columns second.columns).1.isSome then
          ((unionTensorDict compare first.columns second.columns).1, { self with batch := some table })
        else if (unionNumpyDict compare self.nonTensorBatch other.nonTensorBatch).1.isSome then
          ((unionNumpyDict compare self.nonTensorBatch other.nonTensorBatch).1, { self with
            batch := some table
            nonTensorBatch := (unionNumpyDict compare self.nonTensorBatch other.nonTensorBatch).2 })
        else
          ((unionTwoDict compare self.metaInfo other.metaInfo).1, {
            batch := some table
            nonTensorBatch := (unionNumpyDict compare self.nonTensorBatch other.nonTensorBatch).2
            metaInfo := (unionTwoDict compare self.metaInfo other.metaInfo).2 }) := by
  refine ⟨(first.union compare second).2, ?_, ?_, ?_⟩
  · rw [TensorDict.union, dif_pos same]
  · rw [TensorDict.union, dif_pos same]
  · simp only [DataProto.union, held, given, TensorDict.union, dif_pos same]

theorem unchanged_batch {table : TensorDict α} (held : self.batch = some first) (size : table.batchSize = first.batchSize) :
    Option.Rel (fun table table' => table'.batchSize = table.batchSize ∧ SameDict Eq table.columns table'.columns)
      self.batch (some table) ↔ SameDict Eq first.columns table.columns := by
  rw [held]
  constructor
  · intro unchanged
    cases unchanged with
    | some both => exact both.2
  · intro unchanged
    exact .some ⟨size, unchanged⟩

end Merging

theorem atomic_of_fails (fails : (self.union compare other).1.isSome) :
    Atomic compare self other ↔ Unchanged compare self (self.union compare other).2 := by
  refine ⟨fun atomic => atomic.raised fails, fun unchanged => ⟨fun _ => unchanged, fun returned => ?_⟩⟩
  rw [returned] at fails
  cases fails

theorem atomic_of_returns (returned : (self.union compare other).1 = none) :
    Atomic compare self other ↔ Unites compare self other (self.union compare other).2 := by
  refine ⟨fun atomic => atomic.returned returned, fun unites => ⟨fun fails => ?_, fun _ => unites⟩⟩
  rw [returned] at fails
  cases fails

theorem union_atomic_iff (keyed : other.Keyed) :
    Atomic compare self other ↔
      (Meeting.conflict ∈ self.met compare other → Meeting.fresh ∉ uninterrupted (self.met compare other)) := by
  by_cases merged : ∃ first second, self.batch = some first ∧ other.batch = some second ∧ first.batchSize = second.batchSize
  · obtain ⟨first, second, held, given, same⟩ := merged
    obtain ⟨table, size, columns, stages⟩ := union_stages compare held given same
    have met : self.met compare other = meetings compare.tensorEqual first.columns second.columns ++
        (meetings compare.deepEqual self.nonTensorBatch other.nonTensorBatch ++
          meetings (fun old new => compare.equal new old) self.metaInfo other.metaInfo) := by
      simp only [DataProto.met, held, given, same, ite_true]
    have tensors := unionTensorDict_merges compare first.columns (keyed.batch second given)
    have arrays : Merges compare.deepEqual (Alike compare.deepEqual) self.nonTensorBatch other.nonTensorBatch
        (unionNumpyDict compare self.nonTensorBatch other.nonTensorBatch) := replacing_merges _ keyed.nonTensorBatch
    have values : Merges (fun old new => compare.equal new old) (Alike (fun old new => compare.equal new old))
        self.metaInfo other.metaInfo (unionTwoDict compare self.metaInfo other.metaInfo) := replacing_merges _ keyed.metaInfo
    have batch := unchanged_batch held size
    obtain ⟨tensorsFail, tensorsSame, tensorsUnite⟩ := tensors
    obtain ⟨arraysFail, arraysSame, arraysUnite⟩ := arrays
    obtain ⟨valuesFail, valuesSame, valuesUnite⟩ := values
    rw [columns, tensorsSame] at batch
    rw [← columns] at tensorsUnite
    rw [met]
    generalize meetings compare.tensorEqual first.columns second.columns = tensors at *
    generalize meetings compare.deepEqual self.nonTensorBatch other.nonTensorBatch = arrays at *
    generalize meetings (fun old new => compare.equal new old) self.metaInfo other.metaInfo = values at *
    -- the union stops behind the first loop that meets a conflict
    by_cases inTensors : Meeting.conflict ∈ tensors
    · rw [if_pos (tensorsFail.mpr inTensors)] at stages
      have fails : (self.union compare other).1.isSome := by rw [stages]; exact tensorsFail.mpr inTensors
      rw [atomic_of_fails fails, stages, uninterrupted_conflict inTensors, ← batch]
      have whole : Meeting.conflict ∈ tensors ++ (arrays ++ values) := List.mem_append_left _ inTensors
      exact ⟨fun unchanged _ => unchanged.batch,
        fun unchanged => ⟨unchanged whole, SameDict.refl Alike.refl _, SameDict.refl Alike.refl _⟩⟩
    · rw [if_neg (inTensors ∘ tensorsFail.mp)] at stages
      rw [uninterrupted_whole inTensors] at batch
      rw [uninterrupted_append inTensors, List.mem_append, or_iff_right inTensors, List.mem_append (a := Meeting.fresh), not_or,
        ← batch]
      by_cases inArrays : Meeting.conflict ∈ arrays
      · rw [if_pos (arraysFail.mpr inArrays)] at stages
        have fails : (self.union compare other).1.isSome := by rw [stages]; exact arraysFail.mpr inArrays
        rw [atomic_of_fails fails, stages, uninterrupted_conflict inArrays, ← arraysSame]
        have whole : Meeting.conflict ∈ arrays ++ values := List.mem_append_left _ inArrays
        exact ⟨fun unchanged _ => ⟨unchanged.batch, unchanged.nonTensorBatch⟩,
          fun unchanged => ⟨(unchanged whole).1, (unchanged whole).2, SameDict.refl Alike.refl _⟩⟩
      · rw [if_neg (inArrays ∘ arraysFail.mp)] at stages
        rw [uninterrupted_whole inArrays] at arraysSame
        rw [uninterrupted_append inArrays, List.mem_append, or_iff_right inArrays, List.mem_append, not_or, ← arraysSame]
        by_cases inValues : Meeting.conflict ∈ values
        · have fails : (self.union compare other).1.isSome := by rw [stages]; exact valuesFail.mpr inValues
          rw [atomic_of_fails fails, stages, ← valuesSame]
          exact ⟨fun unchanged _ => ⟨unchanged.batch, unchanged.nonTensorBatch, unchanged.metaInfo⟩,
            fun unchanged => ⟨(unchanged inValues).1, (unchanged inValues).2.1, (unchanged inValues).2.2⟩⟩
        · have returned : (self.union compare other).1 = none := by
            rw [stages]
            exact Option.not_isSome_iff_eq_none.mp (inValues ∘ valuesFail.mp)
          rw [atomic_of_returns returned, stages]
          refine iff_of_true ⟨?_, arraysUnite inArrays, valuesUnite inValues⟩ (fun conflict => absurd conflict inValues)
          exact ⟨first, second, table, held, given, rfl, size, tensorsUnite inTensors⟩
  · have apart : ∀ first second, self.batch = some first → other.batch = some second →
        first.batchSize ≠ second.batchSize := fun first second held given same => merged ⟨first, second, held, given, same⟩
    have nothing : self.met compare other = [] := by
      simp only [DataProto.met]
      split
      next first second held given => rw [if_neg (apart first second held given)]
      next => rfl
    obtain ⟨fails, same⟩ := union_refused compare apart
    rw [atomic_of_fails fails, same, nothing]
    exact iff_of_true (Unchanged.refl compare self) (fun impossible => absurd impossible List.not_mem_nil)

/-- A batch of one row, with a number in each column. -/
private def numbers (entries : List (String × Nat)) : DataProto Nat Nat Nat where
  batch := some {
    batchSize := [1]
    columns := entries.map (fun entry => (entry.1, ⟨[1], [entry.2], rfl⟩))
    regular := by
      intro column member
      obtain ⟨entry, _, rfl⟩ := List.mem_map.mp member
      exact List.prefix_rfl }
  nonTensorBatch := []
  metaInfo := []

private def exactly : Comparisons Nat Nat Nat :=
  ⟨fun first second => decide (first = second), fun first second => decide (first = second), fun first second => decide (first = second)⟩

theorem union_atomic_fresh : Atomic exactly (numbers [("obs", 1)]) (numbers [("obs", 1), ("act", 2)]) := by
  have keyed : (numbers [("obs", 1), ("act", 2)]).Keyed := by
    refine ⟨?_, List.nodup_nil, List.nodup_nil⟩
    intro table held
    cases held
    decide
  exact (union_atomic_iff keyed).mpr (by decide)

/-- The key before the conflict stays in the receiver. -/
theorem union_not_atomic : ¬ Atomic exactly (numbers [("obs", 1)]) (numbers [("act", 2), ("obs", 3)]) := by
  intro atomic
  have unchanged := (atomic.raised rfl).batch
  have after : ((numbers [("obs", 1)]).union exactly (numbers [("act", 2), ("obs", 3)])).2.batch =
    (numbers [("obs", 1), ("act", 2)]).batch := rfl
  rw [after] at unchanged
  cases unchanged with
  | some both =>
    have here : Option.Rel Eq none (some _) := both.2 "act"
    cases here

end LLMFusion.TensorProtocol
