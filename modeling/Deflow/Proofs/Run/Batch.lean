import Deflow.Proofs.Run.Telling
import Deflow.Run.Walk
import Mathlib.Data.List.Perm.Basic

/-!
# Files that are processed together

With more than one job the files of a directory are processed together.  They may be
processed in any order, and the outcomes are still given in the order of the files.  A batch
is a way to do so.  Processing one file after the other is one of them, and the walk that
processes files in that way is the walk itself.
-/

namespace Deflow

variable {α β : Type}

/-! ## Lists in some order -/

/-- Two lists are the same, or hold the same in another order. -/
def Arranged (inOrder : Bool) (told played : List α) : Prop :=
  if inOrder then told = played else told.Perm played

namespace Arranged

variable {inOrder : Bool} {told played : List α}

theorem refl (inOrder : Bool) (played : List α) : Arranged inOrder played played := by
  cases inOrder
  · exact List.Perm.refl played
  · exact rfl

theorem append {toldNext next : List α} (first : Arranged inOrder told played)
    (second : Arranged inOrder toldNext next) :
    Arranged inOrder (told ++ toldNext) (played ++ next) := by
  cases inOrder
  · exact List.Perm.append first second
  · exact congrArg₂ (· ++ ·) first second

theorem map (arranged : Arranged inOrder told played) (f : α → β) :
    Arranged inOrder (told.map f) (played.map f) := by
  cases inOrder
  · exact List.Perm.map f arranged
  · exact congrArg (List.map f) arranged

end Arranged

/-! ## Batches -/

variable {W : Type}

/-- From one world to another, this comes of files one after the other. -/
def InTurn (process : Path → StateM W Outcome) : List (Path × Outcome) → W → W → Prop
  | [], before, after => after = before
  | (path, outcome) :: files, before, after =>
    ∃ between, (process path).run before = (outcome, between) ∧ InTurn process files between after

/-- A way to process files together: one after the other in some order, with the outcomes in
the order of the files. -/
structure Batch (process : Path → StateM W Outcome) where
  run : List Path → StateM W (List Outcome)
  /-- Whether files are processed in their own order. -/
  inOrder : Bool
  proceeds : ∀ (paths : List Path) (before : W), ∃ told played after, told.map Prod.fst = paths ∧
    Arranged inOrder told played ∧ InTurn process played before after ∧
    (run paths).run before = (told.map Prod.snd, after)

/-- Files are processed one after the other as they come. -/
def Batch.inTurn (process : Path → StateM W Outcome) : Batch process where
  run paths := paths.mapM process
  inOrder := true
  proceeds paths before := by
    induction paths generalizing before with
    | nil => exact ⟨[], [], before, rfl, rfl, rfl, rfl⟩
    | cons path paths inductionHypothesis =>
        let between := ((process path).run before).2
        obtain ⟨told, played, after, rfl, rfl, inTurn, isRun⟩ := inductionHypothesis between
        refine ⟨(path, ((process path).run before).1) :: told, _, after, rfl, rfl,
          ⟨between, rfl, inTurn⟩, ?_⟩
        rw [List.mapM_cons]
        change ((told.map Prod.fst).mapM process >>= fun outcomes =>
          pure (((process path).run before).1 :: outcomes)).run between = _
        rw [StateT.run_bind, isRun]
        rfl

/-- Files are processed one after the other, the last one first. -/
def Batch.reversed (process : Path → StateM W Outcome) : Batch process where
  run paths := List.reverse <$> paths.reverse.mapM process
  inOrder := false
  proceeds paths before := by
    obtain ⟨told, played, after, isPaths, rfl, inTurn, isRun⟩ :=
      (Batch.inTurn process).proceeds paths.reverse before
    have isRun : (paths.reverse.mapM process).run before = (told.map Prod.snd, after) := isRun
    refine ⟨told.reverse, told, after, ?_, told.reverse_perm, inTurn, ?_⟩
    · rw [List.map_reverse, isPaths, List.reverse_reverse]
    · rw [StateT.run_map, isRun, List.map_reverse]
      rfl

/-! ## Walks by batches -/

namespace Walker

section

variable {m : Type → Type} [Monad m] [Disk m]

/-- Visits an entry of a directory, with a way to walk what lies below. -/
def step (walker : Walker m) (report : Reporter m) (walkBelow : Path → ExceptT OsError m Totals)
    (directory : Path) (depth : Nat) (frame : Frame) (entry : DirectoryEntry) :
    ExceptT OsError m Frame := do
  let path := directory.join entry.name
  if entry.isDirectory then
    if walker.selector.skipsDirectory path entry.name then
      return frame
    else
      let subtree ← walkBelow path
      return { frame with totals := frame.totals.merge subtree }
  else
    visitEntry walker report depth frame path entry.name

/-- Processes files together in a given way, then tells of them in order. -/
def processAllBy (batch : List Path → m (List Outcome)) (report : Reporter m) (depth : Nat)
    (counts : FileCounts) (paths : List Path) : ExceptT OsError m FileCounts := do
  let outcomes ← (batch paths : m (List Outcome))
  (paths.zip outcomes).foldlM (record report depth) counts

/-- Walks a directory and everything below it, with a way to process files together. -/
def walkBy (walker : Walker m) (batch : List Path → m (List Outcome)) (report : Reporter m) :
    (levels : Nat) → (directory : Path) → (depth : Nat) → ExceptT OsError m Totals
  | 0, directory, depth => giveUp report directory .nameTooLong depth
  | levels + 1, directory, depth => do
    match ← ExceptT.lift (Disk.list directory) with
    | .error error => giveUp report directory error depth
    | .ok entries =>
      report (.entered directory depth)
      let frame ← entries.foldlM
        (walker.step report (fun path => walkBy walker batch report levels path (depth + 1))
          directory depth)
        {}
      let counts ← processAllBy batch report depth frame.counts frame.pending.reverse
      report (.finished ⟨directory, depth, counts⟩)
      return frame.totals.addDirectory ⟨directory, depth, counts⟩

end

/-- The walker in a computation that has a state of its own. -/
def lift {m : Type → Type} [Monad m] {σ : Type} (walker : Walker m) : Walker (StateT σ m) where
  selector := walker.selector
  jobs := walker.jobs
  process path := StateT.lift (walker.process path)

end Walker

/-- The batch in a computation that has a state of its own. -/
def Batch.lift {σ : Type} {process : Path → StateM W Outcome} (batch : Batch process)
    (paths : List Path) : StateT σ (StateM W) (List Outcome) :=
  StateT.lift (batch.run paths)

end Deflow
