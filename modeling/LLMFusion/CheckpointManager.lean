import Mathlib.Algebra.Ring.Nat
import Mathlib.Algebra.Ring.Int.Defs
import Mathlib.Data.List.Infix

/-! The retention of checkpoints. Old checkpoints are removed before a save, down to one less than
the limit, and after it, down to the limit. A directory is a list of names from the root. -/

namespace LLMFusion.CheckpointManager

abbrev Directory := List String

variable {Path : Type}

/-- The checkpoints on disk, and the paths that the manager tracks. -/
structure State (Path : Type) where
  disk : List Directory
  previousSavedPaths : List Path
  deriving DecidableEq, Repr

/-- `shutil.rmtree` removes what lies below the directory, too. -/
def rmtree (directory : Directory) (disk : List Directory) : List Directory := disk.filter (fun other => ¬ directory <+: other)

/-- `os.path.exists` of a checkpoint, or of a directory that has checkpoints below. -/
def pathExists (disk : List Directory) (directory : Directory) : Bool := disk.any (fun other => directory <+: other)

variable (abspath : Path → Directory)

def removePreviousSaveLocalPath (paths : List Path) (disk : List Directory) : List Directory :=
  paths.foldl (fun disk p => if pathExists disk (abspath p) then rmtree (abspath p) disk else disk) disk

/-- Remove the tracked paths before `keepStart`. -/
def removeBefore (keepStart : Int) (state : State Path) : State Path where
  disk := removePreviousSaveLocalPath abspath (state.previousSavedPaths.take keepStart.toNat) state.disk
  previousSavedPaths := state.previousSavedPaths.drop keepStart.toNat

def ensureCheckpointCapacity (maxCkptToKeep : Option Int) (state : State Path) : State Path :=
  match maxCkptToKeep with
  | none => state
  | some maxCkptToKeep =>
    if ¬ 1 < maxCkptToKeep then state
    else if maxCkptToKeep ≤ state.previousSavedPaths.length then
      removeBefore abspath (state.previousSavedPaths.length - maxCkptToKeep + 1) state
    else state

def registerCheckpoint (newPath : Path) (maxCkptToKeep : Option Int) (state : State Path) : State Path :=
  let state := { state with previousSavedPaths := state.previousSavedPaths ++ [newPath] }
  match maxCkptToKeep with
  | none => state
  | some maxCkptToKeep =>
    if ¬ 0 < maxCkptToKeep then state
    else if maxCkptToKeep < state.previousSavedPaths.length then
      removeBefore abspath (state.previousSavedPaths.length - maxCkptToKeep) state
    else state

/-- The files of the checkpoint are written. -/
def writeCheckpoint (path : Path) (state : State Path) : State Path :=
  { state with disk := if abspath path ∈ state.disk then state.disk else state.disk ++ [abspath path] }

def saveCheckpoint (maxCkptToKeep : Option Int) (state : State Path) (path : Path) : State Path :=
  registerCheckpoint abspath path maxCkptToKeep
    (writeCheckpoint abspath path (ensureCheckpointCapacity abspath maxCkptToKeep state))

/-- A sequence of rounds, from a manager that has saved nothing. -/
def run (maxCkptToKeep : Option Int) (paths : List Path) : State Path :=
  paths.foldl (saveCheckpoint abspath maxCkptToKeep) ⟨[], []⟩

end LLMFusion.CheckpointManager
