import LLMFusion.KimiCheckpointEngine
import LLMFusion.Lib.Dealing
import LLMFusion.Lib.NextFit

/-! The buckets of all ranks hold every weight once. The buckets of a rank are the bins into which
the weights that are dealt to it are packed, as long as no name is given twice. -/

namespace LLMFusion.KimiCheckpointEngine
open Dealing List

variable {τ δ : Type}

/-- The weights as they are registered. -/
def converted (torch : Torch τ δ) (rolloutDtype : δ) (iterable : List (String × τ)) : List (String × τ) :=
  iterable.map (fun entry => (entry.1, torch.toDtype entry.2 rolloutDtype))

def entrySize (torch : Torch τ δ) (entry : String × τ) : Nat := torch.tensorSize entry.2

/-- The buckets of the ranks: no weight is lost or put into two buckets, a rank keeps the order,
and a bucket is not empty and is above the limit only with a single weight. -/
structure Distributed (torch : Torch τ δ) (bucketBytes : Int) (worldSize : Nat) (weights : List (String × τ))
    (buckets : Nat → List (Bucket τ)) : Prop where
  all : ((List.range worldSize).flatMap (fun rank => (buckets rank).flatten)).Perm weights
  once : ∀ weight ∈ weights, ∃! located : Nat × Nat, located.1 < worldSize ∧
    ∃ bucket, (buckets located.1)[located.2]? = some bucket ∧ weight ∈ bucket
  ordered : ∀ rank < worldSize, (buckets rank).flatten.Sublist weights
  filled : ∀ rank < worldSize, ∀ bucket ∈ buckets rank, bucket ≠ []
  fits : ∀ rank < worldSize, ∀ bucket ∈ buckets rank, bucketBytes < NextFit.total (entrySize torch) bucket →
    ∃ weight, bucket = [weight] ∧ bucketBytes < entrySize torch weight

variable {torch : Torch τ δ} {rolloutDtype : δ} {worldSize rankId capacity : Nat}

theorem insert_next {bucket rest : List (String × τ)} {name : String} {tensor : τ}
    (distinct : ((bucket ++ (name, tensor) :: rest).map Prod.fst).Nodup) :
    Indexing.insert name tensor bucket = bucket ++ [(name, tensor)] := by
  apply Indexing.insert_new
  rw [map_append, map_cons] at distinct
  exact fun present => disjoint_of_nodup_append distinct present mem_cons_self

theorem total_single (entry : String × τ) :
    NextFit.total (entrySize torch) [entry] = 0 + torch.tensorSize entry.2 := Nat.add_comm _ 0

theorem bucketLoop_divide (capacity tensorIdx : Nat) (bucket : Bucket τ) {iterable : List (String × τ)} (begun : bucket ≠ [])
    (distinct : ((bucket ++ dealt worldSize rankId tensorIdx (converted torch rolloutDtype iterable)).map Prod.fst).Nodup) :
    bucketLoop torch capacity worldSize rankId rolloutDtype tensorIdx bucket (NextFit.total (entrySize torch) bucket) iterable =
      NextFit.divide (entrySize torch) capacity bucket
        (dealt worldSize rankId tensorIdx (converted torch rolloutDtype iterable)) := by
  have nonempty : ∀ {other : Bucket τ}, other ≠ [] → other.isEmpty = false := by
    intro other some
    exact isEmpty_eq_false_iff.mpr some
  induction iterable generalizing tensorIdx bucket with
  | nil => simp [bucketLoop, converted, dealt, NextFit.divide, nonempty begun]
  | cons entry iterable ih =>
    simp only [converted, map_cons, dealt] at distinct ⊢
    simp only [bucketLoop]
    split
    next mine =>
      rw [if_pos mine] at distinct
      have next := insert_next distinct
      have sized : NextFit.total (entrySize torch) (bucket ++ [(entry.1, torch.toDtype entry.2 rolloutDtype)]) =
          NextFit.total (entrySize torch) bucket + torch.tensorSize (torch.toDtype entry.2 rolloutDtype) :=
        NextFit.total_append _ _
      have full : ((capacity : Int) < (NextFit.total (entrySize torch) bucket : Int) +
          (torch.tensorSize (torch.toDtype entry.2 rolloutDtype) : Int) ∧ bucket.isEmpty = false) ↔
          capacity < NextFit.total (entrySize torch) bucket + entrySize torch (entry.1, torch.toDtype entry.2 rolloutDtype) := by
        simp only [nonempty begun, and_true, entrySize]
        omega
      simp only [full, NextFit.divide]
      split
      · have fresh := ih (tensorIdx + 1) [(entry.1, torch.toDtype entry.2 rolloutDtype)]
          (cons_ne_nil _ _) (List.Nodup.of_append_right (by rwa [map_append] at distinct))
        rw [total_single] at fresh
        exact congrArg (bucket :: ·) fresh
      · rw [append_cons] at distinct
        rw [next, ← sized]
        exact ih _ _ (by simp) distinct
    next other =>
      rw [if_neg other] at distinct
      exact ih _ _ begun distinct

theorem bucketLoop_bins {tensorIdx : Nat} {iterable : List (String × τ)} (distinct : (iterable.map Prod.fst).Nodup) :
    bucketLoop torch capacity worldSize rankId rolloutDtype tensorIdx [] 0 iterable =
      NextFit.bins (entrySize torch) capacity
        (dealt worldSize rankId tensorIdx (converted torch rolloutDtype iterable)) := by
  induction iterable generalizing tensorIdx with
  | nil => rfl
  | cons entry iterable ih =>
    simp only [bucketLoop, converted, map_cons, dealt, isEmpty_nil, Bool.true_eq_false, and_false, ite_false]
    have rest := (nodup_cons.mp distinct).2
    split
    · have names : (converted torch rolloutDtype (entry :: iterable)).map Prod.fst = (entry :: iterable).map Prod.fst := by
        simp [converted, Function.comp_def]
      have sublist : ([(entry.1, torch.toDtype entry.2 rolloutDtype)] ++
          dealt worldSize rankId (tensorIdx + 1) (converted torch rolloutDtype iterable)).Sublist
            (converted torch rolloutDtype (entry :: iterable)) := (dealt_sublist _ _ _ _).cons_cons _
      have packed := bucketLoop_divide capacity (tensorIdx + 1) _ (cons_ne_nil _ _)
        ((names ▸ distinct).sublist (sublist.map Prod.fst))
      rw [total_single] at packed
      exact packed
    · exact ih rest

theorem bins_distributed {weights : List (String × τ)} (positive : 0 < worldSize) (distinct : (weights.map Prod.fst).Nodup) :
    Distributed torch capacity worldSize weights
      (fun rank => NextFit.bins (entrySize torch) capacity (dealt worldSize rank 0 weights)) := by
  have division : ∀ rank, NextFit.Division (entrySize torch) capacity (dealt worldSize rank 0 weights)
      (NextFit.bins (entrySize torch) capacity (dealt worldSize rank 0 weights)) := fun rank => NextFit.bins_division _ _ _
  have all : ((range worldSize).flatMap (fun rank =>
      (NextFit.bins (entrySize torch) capacity (dealt worldSize rank 0 weights)).flatten)).Perm weights := by
    simp only [(division _).all]
    exact dealt_perm positive 0 weights
  refine ⟨all, ?_, ?_, ?_, ?_⟩
  · intro weight member
    exact exists_unique_part distinct.of_map all member
  · intro rank _
    simp only [(division rank).all]
    exact dealt_sublist _ _ _ _
  · intro rank _
    exact (division rank).some
  · intro rank _ bucket member above
    have single : bucket.length = 1 := by
      have some := length_pos_of_ne_nil ((division rank).some bucket member)
      have few : ¬ 1 < bucket.length := fun several => by
        have fits := (division rank).fits bucket member several
        omega
      omega
    obtain ⟨weight, rfl⟩ := length_eq_one_iff.mp single
    exact ⟨weight, rfl, above⟩

variable {bucketBytes : Int} {iterable : List (String × τ)}

/-- With a limit that is not positive every rank is refused; with any other the weights are
distributed. -/
theorem ckptGetNamedTensorBuckets_distributes (positive : 0 < worldSize) (distinct : (iterable.map Prod.fst).Nodup) :
    (bucketBytes ≤ 0 → ∀ rankId < worldSize,
      ckptGetNamedTensorBuckets torch iterable bucketBytes worldSize rankId rolloutDtype =
        .error (.valueError s!"bucket_bytes must be greater than 0, got {bucketBytes}")) ∧
    (0 < bucketBytes → ∃ buckets, (∀ rankId < worldSize,
      ckptGetNamedTensorBuckets torch iterable bucketBytes worldSize rankId rolloutDtype = .ok (buckets rankId)) ∧
        Distributed torch bucketBytes worldSize (converted torch rolloutDtype iterable) buckets) := by
  constructor
  · intro nonpositive rankId _
    rw [ckptGetNamedTensorBuckets, if_pos nonpositive]
  · intro some
    obtain ⟨capacity, rfl⟩ := Int.eq_ofNat_of_zero_le (Int.le_of_lt some)
    have names : (converted torch rolloutDtype iterable).map Prod.fst = iterable.map Prod.fst := by
      simp [converted, Function.comp_def]
    refine ⟨_, ?_, bins_distributed positive (names ▸ distinct)⟩
    intro rankId _
    rw [ckptGetNamedTensorBuckets, if_neg (by omega), if_neg (by omega), bucketLoop_bins distinct]

/-- Tensors as their numbers of elements, of two bytes each. -/
private def sizes : Torch Nat Unit := ⟨fun tensor _ => tensor, fun _ => 2, fun tensor => tensor⟩

theorem two_ranks_distributed : ∃ buckets, (∀ rankId < 2,
    ckptGetNamedTensorBuckets sizes [("a", 4), ("b", 3), ("c", 1)] 8 2 rankId () = .ok (buckets rankId)) ∧
      Distributed sizes 8 2 (converted sizes () [("a", 4), ("b", 3), ("c", 1)]) buckets :=
  (ckptGetNamedTensorBuckets_distributes Nat.zero_lt_two (by decide)).2 (by decide)

/-- A limit of zero is refused, and of two weights with one name in a bucket one is lost. -/
theorem not_distributed :
    (¬ ∃ buckets, (∀ rankId < 1, ckptGetNamedTensorBuckets sizes [("a", 4)] 0 1 rankId () = .ok (buckets rankId)) ∧
      Distributed sizes 0 1 (converted sizes () [("a", 4)]) buckets) ∧
    ¬ ∃ buckets, (∀ rankId < 1, ckptGetNamedTensorBuckets sizes [("a", 1), ("a", 2)] 8 1 rankId () = .ok (buckets rankId)) ∧
      Distributed sizes 8 1 (converted sizes () [("a", 1), ("a", 2)]) buckets := by
  constructor
  · rintro ⟨buckets, returned, _⟩
    have refused : ckptGetNamedTensorBuckets sizes [("a", 4)] 0 1 0 () =
      .error (.valueError "bucket_bytes must be greater than 0, got 0") := rfl
    cases refused.symm.trans (returned 0 Nat.one_pos)
  · rintro ⟨buckets, returned, distributed⟩
    have computed : ckptGetNamedTensorBuckets sizes [("a", 1), ("a", 2)] 8 1 0 () = .ok [[("a", 2)]] := rfl
    have first := Except.ok.inj ((returned 0 Nat.one_pos).symm.trans computed)
    have count := distributed.all.length_eq
    simp [List.range_succ, first, converted] at count

end LLMFusion.KimiCheckpointEngine
