import LLMFusion.CheckpointManager
import Mathlib.Data.List.Dedup
import Mathlib.Data.List.DropRight

/-! The manager keeps the newest checkpoints as long as no path is saved again while it is tracked. The
tracked paths are then the last ones of the run, they are all that is on disk, and none lies below an
older one, so that removing the oldest takes nothing else away. -/

namespace LLMFusion.CheckpointManager
open List

variable {Path : Type} {abspath : Path → Directory}

/-! ### The last items of a list -/

section Last
variable {α : Type}

theorem rtake_rtake (items : List α) (outer inner : Nat) : (items.rtake outer).rtake inner = items.rtake (min outer inner) := by
  simp only [rtake, length_drop, drop_drop]
  congr 1
  omega

theorem rtake_all {items : List α} {count : Nat} (few : items.length ≤ count) : items.rtake count = items := by
  rw [rtake, Nat.sub_eq_zero_of_le few, drop_zero]

theorem rtake_length (items : List α) (count : Nat) : (items.rtake count).length ≤ count := by
  rw [rtake, length_drop]
  omega

theorem rtake_concat {items : List α} {item : α} {count kept : Nat} (enough : count ≤ kept + 1) :
    (items.rtake kept ++ [item]).rtake count = (items ++ [item]).rtake count := by
  cases count with
  | zero => rw [rtake_zero, rtake_zero]
  | succ count =>
    rw [rtake_concat_succ, rtake_concat_succ, rtake_rtake, Nat.min_eq_right (by omega)]

theorem dedup_rtake [DecidableEq α] {items : List α} {count : Nat} (distinct : (items.rtake count).Nodup) :
    items.dedup.rtake count = items.rtake count := by
  by_cases few : items.length ≤ count
  · rw [rtake_all few] at distinct
    rw [distinct.dedup]
  · have split : items = items.take (items.length - count) ++ items.rtake count := (take_append_drop _ _).symm
    have dedup : items.dedup = items.take (items.length - count) ∪ items.rtake count := by
      nth_rewrite 1 [split]
      rw [dedup_append, distinct.dedup]
    obtain ⟨older, whole⟩ := suffix_union_right (items.take (items.length - count)) (items.rtake count)
    have size : (items.rtake count).length = count := by
      rw [rtake, length_drop]
      omega
    rw [dedup, ← whole, rtake, length_append, size, Nat.add_sub_cancel, drop_left]

end Last

/-! ### One round -/

def Apart (abspath : Path → Directory) (paths : List Path) : Prop :=
  paths.Pairwise (fun older newer => ¬ abspath older <+: abspath newer)

theorem remove_apart {removed kept : List Path} (apart : Apart abspath (removed ++ kept)) :
    removePreviousSaveLocalPath abspath removed ((removed ++ kept).map abspath) = kept.map abspath := by
  induction removed with
  | nil => rfl
  | cons path removed ih =>
    obtain ⟨later, apart⟩ := pairwise_cons.mp apart
    have exists_ : pathExists (abspath path :: (removed ++ kept).map abspath) (abspath path) = true :=
      any_eq_true.mpr ⟨abspath path, mem_cons_self, decide_eq_true (prefix_refl _)⟩
    have others : rmtree (abspath path) (abspath path :: (removed ++ kept).map abspath) = (removed ++ kept).map abspath := by
      rw [rmtree, filter_cons_of_neg (by simp), filter_eq_self]
      intro other member
      obtain ⟨newer, among, rfl⟩ := mem_map.mp member
      exact decide_eq_true (later newer among)
    rw [removePreviousSaveLocalPath, cons_append, map_cons, foldl_cons, exists_, if_pos rfl, others]
    exact ih apart

def tracked (abspath : Path → Directory) (paths : List Path) : State Path := ⟨paths.map abspath, paths⟩

theorem removeBefore_apart {paths : List Path} (apart : Apart abspath paths) {count : Nat} (few : count ≤ paths.length) {keepStart : Int}
    (start : keepStart = paths.length - count) : removeBefore abspath keepStart (tracked abspath paths) = tracked abspath (paths.rtake count) := by
  have place : keepStart.toNat = paths.length - count := by omega
  have split : paths = paths.take (paths.length - count) ++ paths.rtake count := (take_append_drop _ _).symm
  have removed : removePreviousSaveLocalPath abspath (paths.take (paths.length - count)) (paths.map abspath) =
      (paths.rtake count).map abspath := by
    have cut : Apart abspath (paths.take (paths.length - count) ++ paths.rtake count) := split ▸ apart
    exact (congrArg (fun paths' => removePreviousSaveLocalPath abspath (paths.take (paths.length - count)) (paths'.map abspath)) split).trans
      (remove_apart cut)
  simp only [removeBefore, tracked, place, removed]
  rfl

/-- How many of the last paths are tracked while the next one is written. -/
def window (maxCkptToKeep : Nat) : Nat := max (maxCkptToKeep - 1) 1

section Round
variable {paths : List Path} {maxCkptToKeep : Nat}

theorem ensure_tracked (apart : Apart abspath paths) (few : paths.length ≤ maxCkptToKeep) :
    ensureCheckpointCapacity abspath (some maxCkptToKeep) (tracked abspath paths) =
      tracked abspath (paths.rtake (window maxCkptToKeep)) := by
  rw [ensureCheckpointCapacity]
  split
  · rename_i small
    rw [rtake_all (by rw [window]; omega)]
  · rename_i large
    split
    · rename_i full
      have full : (maxCkptToKeep : Int) ≤ paths.length := full
      exact removeBefore_apart apart (by rw [window]; omega) (by simp only [tracked, window]; omega)
    · rename_i space
      have space : ¬ (maxCkptToKeep : Int) ≤ paths.length := space
      rw [rtake_all (by rw [window]; omega)]

theorem write_tracked {path : Path} (fresh : ∀ other ∈ paths, ¬ abspath other <+: abspath path) :
    writeCheckpoint abspath path (tracked abspath paths) = ⟨(paths ++ [path]).map abspath, paths⟩ := by
  have new : abspath path ∉ paths.map abspath := by
    intro member
    obtain ⟨other, member, same⟩ := mem_map.mp member
    exact fresh other member (same ▸ prefix_refl _)
  simp only [writeCheckpoint, tracked, new, if_false, map_append, map_singleton]

theorem register_tracked {path : Path} (apart : Apart abspath (paths ++ [path])) (positive : 1 ≤ maxCkptToKeep) :
    registerCheckpoint abspath path (some maxCkptToKeep) ⟨(paths ++ [path]).map abspath, paths⟩ =
      tracked abspath ((paths ++ [path]).rtake maxCkptToKeep) := by
  have active : ¬ ¬ (0 : Int) < maxCkptToKeep := by omega
  simp only [registerCheckpoint, active, if_false]
  split
  · rename_i more
    exact removeBefore_apart apart (by omega) rfl
  · rename_i fits
    rw [rtake_all (by omega)]
    rfl

theorem saveCheckpoint_tracked {path : Path} (positive : 1 ≤ maxCkptToKeep) (apart : Apart abspath paths)
    (few : paths.length ≤ maxCkptToKeep) (fresh : ∀ other ∈ paths.rtake (window maxCkptToKeep), ¬ abspath other <+: abspath path) :
    Apart abspath (paths.rtake (window maxCkptToKeep) ++ [path]) ∧
    saveCheckpoint abspath (some maxCkptToKeep) (tracked abspath paths) path =
      tracked abspath ((paths ++ [path]).rtake maxCkptToKeep) := by
  have apart' : Apart abspath (paths.rtake (window maxCkptToKeep) ++ [path]) := by
    refine pairwise_append.mpr ⟨apart.sublist (drop_sublist _ _), pairwise_singleton _ _, ?_⟩
    intro older among newer member
    rw [mem_singleton.mp member]
    exact fresh older among
  refine ⟨apart', ?_⟩
  rw [saveCheckpoint, ensure_tracked apart few, write_tracked fresh, register_tracked apart' positive,
    rtake_concat (by rw [window]; omega)]

end Round

/-! ### A run -/

/-- No path is saved again, nor below, while it is tracked. -/
def Fresh (abspath : Path → Directory) (maxCkptToKeep : Nat) (paths : List Path) : Prop :=
  ∀ i (inside : i < paths.length), ∀ other ∈ (paths.take i).rtake (window maxCkptToKeep), ¬ abspath other <+: abspath paths[i]

/-- What holds after the rounds of `paths`. The last distinct directories are those of `dedup`, which keeps the
last of equal items. -/
structure Retained (abspath : Path → Directory) (maxCkptToKeep : Nat) (paths : List Path) (state : State Path) : Prop where
  newest : ∀ path ∈ paths.getLast?, abspath path ∈ state.disk
  few : state.previousSavedPaths.length ≤ maxCkptToKeep
  present : ∀ path ∈ state.previousSavedPaths, abspath path ∈ state.disk
  recent : ∀ directory, directory ∈ state.disk ↔ directory ∈ (paths.map abspath).dedup.rtake maxCkptToKeep

variable {paths : List Path} {maxCkptToKeep : Nat}

theorem Fresh.before {path : Path} (fresh : Fresh abspath maxCkptToKeep (paths ++ [path])) :
    Fresh abspath maxCkptToKeep paths ∧ ∀ other ∈ paths.rtake (window maxCkptToKeep), ¬ abspath other <+: abspath path := by
  constructor
  · intro i inside other member
    have earlier := fresh i (by rw [length_append]; omega) other
    rw [take_append_of_le_length inside.le, getElem_append_left inside] at earlier
    exact earlier member
  · intro other member
    have last := fresh paths.length (by simp) other
    rw [take_left, getElem_concat_length] at last
    · exact last member
    · rfl

theorem Fresh.take (fresh : Fresh abspath maxCkptToKeep paths) (count : Nat) : Fresh abspath maxCkptToKeep (paths.take count) := by
  intro i inside other member
  rw [length_take] at inside
  rw [take_take, Nat.min_eq_left (by omega)] at member
  rw [getElem_take]
  exact fresh i (by omega) other member

theorem run_tracked (positive : 1 ≤ maxCkptToKeep) (fresh : Fresh abspath maxCkptToKeep paths) :
    Apart abspath (paths.rtake maxCkptToKeep) ∧
    run abspath (some maxCkptToKeep) paths = tracked abspath (paths.rtake maxCkptToKeep) := by
  induction paths using reverseRecOn with
  | nil =>
    rw [rtake_nil]
    exact ⟨List.Pairwise.nil, rfl⟩
  | append_singleton paths path ih =>
    obtain ⟨before, last⟩ := fresh.before
    obtain ⟨apart, reached⟩ := ih before
    have same : (paths.rtake maxCkptToKeep).rtake (window maxCkptToKeep) = paths.rtake (window maxCkptToKeep) := by
      rw [rtake_rtake, Nat.min_eq_right (by rw [window]; omega)]
    obtain ⟨apart', saved⟩ := saveCheckpoint_tracked positive apart (rtake_length _ _) (same.symm ▸ last)
    constructor
    · have kept : (paths.rtake (window maxCkptToKeep) ++ [path]).rtake maxCkptToKeep = (paths ++ [path]).rtake maxCkptToKeep :=
        rtake_concat (by rw [window]; omega)
      rw [same] at apart'
      exact kept ▸ apart'.sublist (drop_sublist _ _)
    · rw [run, foldl_append, foldl_cons, foldl_nil]
      exact (congrArg (saveCheckpoint abspath (some maxCkptToKeep) · path) reached).trans
        (saved.trans (congrArg (tracked abspath) (rtake_concat (by omega))))

/-- In a run that saves no path again while it is tracked, every round keeps the newest checkpoints. -/
theorem run_retained (positive : 1 ≤ maxCkptToKeep) (fresh : Fresh abspath maxCkptToKeep paths) (count : Nat) :
    Retained abspath maxCkptToKeep (paths.take count) (run abspath (some maxCkptToKeep) (paths.take count)) := by
  obtain ⟨apart, reached⟩ := run_tracked positive (fresh.take count)
  rw [reached]
  refine ⟨?_, rtake_length _ _, fun path member => List.mem_map_of_mem member, ?_⟩
  · intro path last
    obtain ⟨before, split⟩ := List.getLast?_eq_some_iff.mp last
    obtain ⟨keep, rfl⟩ := Nat.exists_eq_add_of_le' positive
    rw [split, List.rtake_concat_succ]
    exact List.mem_map_of_mem (List.mem_append_right _ List.mem_cons_self)
  · have distinct : (((paths.take count).rtake maxCkptToKeep).map abspath).Nodup := by
      refine List.pairwise_map.mpr (apart.imp ?_)
      intro older newer outside same
      exact outside (same ▸ List.prefix_refl _)
    have last : ((paths.take count).rtake maxCkptToKeep).map abspath = ((paths.take count).map abspath).rtake maxCkptToKeep := by
      rw [List.rtake, List.rtake, List.map_drop, List.length_map]
    rw [last] at distinct
    intro directory
    rw [dedup_rtake distinct, ← last]
    rfl

/-- Two checkpoints of three, one of them saved again when it is gone. -/
theorem run_three : Retained (fun path : String => ["ckpt", path]) 2 (["step_1", "step_2", "step_3", "step_1"].take 4)
    (run (fun path : String => ["ckpt", path]) (some 2) (["step_1", "step_2", "step_3", "step_1"].take 4)) :=
  run_retained (by decide) (by unfold Fresh; decide) 4

/-- With one checkpoint to keep, a path that is saved twice is gone. -/
theorem run_twice : ¬ Retained (fun path : String => ["ckpt", path]) 1 ["step_1", "step_1"]
    (run (fun path : String => ["ckpt", path]) (some 1) ["step_1", "step_1"]) := by
  intro retained
  exact absurd (retained.newest "step_1" rfl) (by decide)

end LLMFusion.CheckpointManager
