import Deflow.Proofs.Disk.Frame
import Deflow.Proofs.Path.OutputName
import Deflow.Proofs.Run.Walk
import Deflow.Run.Run

/-!
# Processing files of a tree

On a file tree, processing a file is a function of the tree.  It leaves the tree as it is,
or else the file is read, put through the pipeline, and the result stands under its own name
in the directory of the file.  A run over a directory is the walk from there.
-/

namespace Deflow

open Deflow.Path

variable {σ : Type}

/-! ## Trees as disks -/

section

variable {tree after : FileTree} {path : Path} {text : Text}

end

namespace Silently

variable {tree after : FileTree} {path : Path} {text : Text}

theorem readText (tree : FileTree) (path : Path) :
    Silently (σ := σ) (W := FileTree) (Disk.readText path) tree (tree.readText path) tree :=
  fun _ => rfl

theorem clock (tree : FileTree) : Silently (σ := σ) (W := FileTree) Disk.clock tree 0 tree :=
  fun _ => rfl

end Silently

/-! ## Processing -/

namespace Processor

/-- What comes of a result, and the tree behind it. -/
def storeOn (processor : Processor) (path : Path) (source result : Text) (edits : Nat)
    (tree : FileTree) : Outcome × FileTree :=
  let output := processor.output.outputPath path
  if processor.writes source result then
    match tree.writeText output result with
    | .error error => (.failure (.write output error), tree)
    | .ok after => (.success { output, edits, written := true }, after)
  else
    (.success { output, edits, written := false }, tree)

/-- What comes of a file of a tree, and the tree behind it. -/
def processOn (processor : Processor) (path : Path) (tree : FileTree) : Outcome × FileTree :=
  match tree.readText path with
  | .error error => (.failure (.read path error), tree)
  | .ok source =>
    match processor.pipeline.run source with
    | .error error => (.failure (.parse path error.position error.fault.message), tree)
    | .ok (result, edits) => processor.storeOn path source result edits tree

/-- What is written is put under the name of the result, in the directory of the file. -/
theorem writeText_outputPath {tree : FileTree} (isPlain : tree.IsPlain) {directory : Path}
    {place : Place} (leads : tree.LeadsTo directory place) (mode : OutputMode) {name : Text}
    (isName : IsName name) (alsoName : IsName (mode.outputName name)) (text : Text) :
    (∃ error, tree.writeText (mode.outputPath (directory.join name)) text = .error error) ∨
      (tree.Takes place (mode.outputName name) ∧
        tree.placeOf? (mode.outputPath (directory.join name)) =
          some (place ++ [mode.outputName name]) ∧
        tree.writeText (mode.outputPath (directory.join name)) text =
          .ok (tree.put (place ++ [mode.outputName name]) (.file (.text text)))) := by
  obtain ⟨front, sameDirectory, isOutput⟩ := mode.exists_outputPath_join directory isName
  have leads := leads.of_components sameDirectory
  rw [isOutput, leads.writeText_join isPlain alsoName, leads.placeOf?_join isPlain alsoName]
  cases refusal : FileTree.refusal? (front.join (mode.outputName name)) (mode.outputName name) with
  | some error => exact .inl ⟨error, rfl⟩
  | none =>
      simp only
      split
      · exact .inl ⟨_, rfl⟩
      · rename_i notDirectory
        exact .inr ⟨leads.takes isPlain alsoName notDirectory, by simp, rfl⟩

/-- Processing a file of a directory leaves the tree as it is, unless it writes the result of
the pipeline. -/
theorem processOn_cases (processor : Processor) {tree : FileTree} (isPlain : tree.IsPlain)
    {directory : Path} {place : Place} (leads : tree.LeadsTo directory place) {name : Text}
    (isName : IsName name) (alsoName : IsName (processor.output.outputName name)) :
    ((processor.processOn (directory.join name) tree).2 = tree ∧
      ∀ success, (processor.processOn (directory.join name) tree).1 = .success success →
        success.written = false) ∨
      ∃ source result edits,
        tree.readText (directory.join name) = .ok source ∧
        processor.pipeline.run source = .ok (result, edits) ∧
        processor.writes source result = true ∧
        tree.Takes place (processor.output.outputName name) ∧
        tree.placeOf? (processor.output.outputPath (directory.join name)) =
          some (place ++ [processor.output.outputName name]) ∧
        processor.processOn (directory.join name) tree =
          (.success
            { output := processor.output.outputPath (directory.join name), edits, written := true },
          tree.put (place ++ [processor.output.outputName name]) (.file (.text result))) := by
  cases isRead : tree.readText (directory.join name) with
  | error error => exact .inl (by simp [processOn, isRead])
  | ok source =>
      cases isRun : processor.pipeline.run source with
      | error error => exact .inl (by simp [processOn, isRead, isRun])
      | ok pair =>
          obtain ⟨result, edits⟩ := pair
          cases writes : processor.writes source result with
          | false => exact .inl (by simp [processOn, isRead, isRun, storeOn, writes])
          | true =>
              rcases writeText_outputPath isPlain leads processor.output isName alsoName result with
                ⟨error, refused⟩ | ⟨takes, isPlace, written⟩
              · exact .inl (by simp [processOn, isRead, isRun, storeOn, writes, refused])
              · exact .inr ⟨source, result, edits, rfl, isRun, writes, takes, isPlace,
                  by simp [processOn, isRead, isRun, storeOn, writes, written]⟩

/-- What comes of a file depends on its text and on the frame of the tree. -/
theorem processOn_fst_congr (processor : Processor) {tree other : FileTree} (isPlain : tree.IsPlain)
    (alsoPlain : other.IsPlain) (frame : tree.SameFrame other) {directory : Path} {place : Place}
    (leads : tree.LeadsTo directory place) {name : Text} (isName : IsName name)
    (alsoName : IsName (processor.output.outputName name))
    (sameText : other.readText (directory.join name) = tree.readText (directory.join name)) :
    (processor.processOn (directory.join name) other).1 =
      (processor.processOn (directory.join name) tree).1 := by
  have sameStore (source result : Text) (edits : Nat) :
      (processor.storeOn (directory.join name) source result edits other).1 =
        (processor.storeOn (directory.join name) source result edits tree).1 := by
    obtain ⟨front, sameDirectory, isOutput⟩ :=
      processor.output.exists_outputPath_join directory isName
    have leads := leads.of_components sameDirectory
    simp only [storeOn, isOutput, leads.writeText_join isPlain alsoName,
      FileTree.LeadsTo.writeText_join (frame.leads leads) alsoPlain alsoName, frame.any_isDirectory]
    split
    · cases FileTree.refusal? (front.join (processor.output.outputName name))
          (processor.output.outputName name) with
      | some error => rfl
      | none =>
          cases (tree.get? (place ++ [processor.output.outputName name])).any
            FileNode.isDirectory <;> rfl
    · rfl
  simp only [processOn, sameText]
  cases tree.readText (directory.join name) with
  | error error => rfl
  | ok source =>
      simp only
      cases processor.pipeline.run source with
      | error error => rfl
      | ok pair => exact sameStore source pair.1 pair.2

/-- In trees of the same frame, a file with the same text is processed alike. -/
theorem processOn_alike (processor : Processor) {tree other : FileTree} (isPlain : tree.IsPlain)
    (alsoPlain : other.IsPlain) (frame : tree.SameFrame other) {directory : Path} {place : Place}
    (leads : tree.LeadsTo directory place) {name : Text} (isName : IsName name)
    (alsoName : IsName (processor.output.outputName name))
    (sameText : other.readText (directory.join name) = tree.readText (directory.join name)) :
    let processed := processor.processOn (directory.join name)
    (processed other).1 = (processed tree).1 ∧
      (((processed tree).2 = tree ∧ (processed other).2 = other) ∨ ∃ content,
        (processed tree).2 = tree.put (place ++ [processor.output.outputName name])
          (.file content) ∧
        (processed other).2 = other.put (place ++ [processor.output.outputName name])
          (.file content)) := by
  intro processed
  have sameOutcome : (processed other).1 = (processed tree).1 :=
    processor.processOn_fst_congr isPlain alsoPlain frame leads isName alsoName sameText
  refine ⟨sameOutcome, ?_⟩
  rcases processor.processOn_cases isPlain leads isName alsoName with
    ⟨kept, unwritten⟩ | ⟨source, result, edits, isRead, isRun, -, -, -, written⟩ <;>
  rcases processor.processOn_cases alsoPlain (frame.leads leads) isName alsoName with
    ⟨alsoKept, alsoUnwritten⟩ |
      ⟨alsoSource, alsoResult, alsoEdits, alsoRead, alsoRun, -, -, -, alsoWritten⟩
  · exact .inl ⟨kept, alsoKept⟩
  · cases unwritten _ (sameOutcome.symm.trans (congrArg Prod.fst alsoWritten))
  · cases alsoUnwritten _ (sameOutcome.trans (congrArg Prod.fst written))
  · obtain rfl : source = alsoSource :=
      Except.ok.inj (isRead.symm.trans (sameText.symm.trans alsoRead))
    obtain ⟨rfl, -⟩ := Prod.mk.inj (Except.ok.inj (isRun.symm.trans alsoRun))
    exact .inr ⟨_, congrArg Prod.snd written, congrArg Prod.snd alsoWritten⟩

end Processor

/-- The walker that settings describe, on trees. -/
def Walker.onTrees (settings : Settings) (selector : Selector) : Walker (StateM FileTree) where
  selector := selector
  jobs := settings.jobs
  process path := modifyGet ((Processor.ofSettings settings).processOn path)

end Deflow
