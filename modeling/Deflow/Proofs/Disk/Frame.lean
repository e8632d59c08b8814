import Deflow.Proofs.Disk.Places

/-!
# Trees that differ in files

Two trees have the same frame if only files tell them apart.  There paths lead to the
same directories.  Reading and writing a file in a directory depend on what stands under
its place and nothing else, and writing keeps the frame.
-/

namespace Deflow

open Deflow.Path

/-- The text of a content, if it is one. -/
def Content.read : Content → Except OsError Text
  | .text held => .ok held
  | .binary _ => .error .invalidText

namespace FileTree

variable {tree other : FileTree} {place directory goal : Place} {path : Path} {name : Text}
  {content : Content} {node : FileNode} {purpose : Purpose}

/-- Two trees have the same directories, links and special files. -/
def SameFrame (tree other : FileTree) : Prop :=
  ∀ place node, (∀ content, node ≠ .file content) →
    (other.get? place = some node ↔ tree.get? place = some node)

namespace SameFrame

theorem refl (tree : FileTree) : tree.SameFrame tree :=
  fun _ _ _ => Iff.rfl

theorem symm (same : tree.SameFrame other) : other.SameFrame tree :=
  fun place node notFile => (same place node notFile).symm

theorem trans {last : FileTree} (first : tree.SameFrame other) (second : other.SameFrame last) :
    tree.SameFrame last :=
  fun place node notFile => (second place node notFile).trans (first place node notFile)

theorem get?_directory (same : tree.SameFrame other) {readable : Bool}
    (stands : tree.get? place = some (.directory readable)) :
    other.get? place = some (.directory readable) :=
  (same place _ (by simp)).mpr stands

theorem any_isDirectory (same : tree.SameFrame other) (place : Place) :
    (other.get? place).any FileNode.isDirectory = (tree.get? place).any FileNode.isDirectory := by
  have isDirectory_iff (tree : FileTree) : (tree.get? place).any FileNode.isDirectory = true ↔
      ∃ readable, tree.get? place = some (.directory readable) := by
    cases tree.get? place with
    | none => simp
    | some node => cases node <;> simp [FileNode.isDirectory]
  rw [Bool.eq_iff_iff, isDirectory_iff, isDirectory_iff]
  exact exists_congr fun readable => same place _ (by simp)

/-- Paths lead to the same directories. -/
theorem leads (same : tree.SameFrame other) {links : Nat} {segments : List Text}
    (leads : tree.Leads links place segments goal) : other.Leads links place segments goal := by
  induction leads with
  | here stands => exact .here (same.get?_directory stands)
  | idle stands idle _ inductionHypothesis =>
      exact .idle (same.get?_directory stands) idle inductionHypothesis
  | parent stands _ inductionHypothesis =>
      exact .parent (same.get?_directory stands) inductionHypothesis
  | name stands isSegment short below _ inductionHypothesis =>
      exact .name (same.get?_directory stands) isSegment short (same.get?_directory below)
        inductionHypothesis
  | link stands isSegment short below _ inductionHypothesis =>
      exact .link (same.get?_directory stands) isSegment short ((same _ _ (by simp)).mpr below)
        inductionHypothesis

theorem locate (same : tree.SameFrame other) {readable : Bool}
    (located : tree.locate .look path = .ok (.found goal (.directory readable))) :
    other.locate .look path = .ok (.found goal (.directory readable)) := by
  have ends := (leadsTo_of_locate located).ends
  unfold FileTree.locate at located ⊢
  split at located; · simp at located
  split at located; · simp at located
  split at located; · simp at located
  have leads := leads_of_follow located
  rw [leads.follow_goal, targetAt] at located
  obtain ⟨inner, stands⟩ := ends
  rw [stands] at located
  obtain rfl : inner = readable := by simpa using located
  simp only [*, if_false, Bool.false_eq_true]
  rw [(same.leads leads).follow_goal, targetAt, same.get?_directory stands]

end SameFrame

/-! ## What a path leads to -/

theorem IsPlain.not_link (isPlain : tree.IsPlain) (place : Place) (target : Text) :
    tree.get? place ≠ some (.link target) := by
  intro isLink
  cases isPlain.get? isLink

/-- What a file in a directory holds is read. -/
theorem LeadsTo.readText_join (leads : tree.LeadsTo path place) (isName : IsName name)
    (stands : tree.get? (place ++ [name]) = some (.file content)) :
    tree.readText (path.join name) =
      match refusal? (path.join name) name with
      | some error => .error error
      | none => content.read := by
  rw [readText, leads.locate_join .look isName (by simp [stands])]
  cases refusal? (path.join name) name with
  | some error => rfl
  | none =>
      simp only [targetAt, stands]
      cases content <;> rfl

/-- A file in a directory is written, unless it is a directory itself. -/
theorem LeadsTo.writeText_join (leads : tree.LeadsTo path place) (isPlain : tree.IsPlain)
    (isName : IsName name) (text : Text) :
    tree.writeText (path.join name) text =
      match refusal? (path.join name) name with
      | some error => .error error
      | none =>
        if (tree.get? (place ++ [name])).any FileNode.isDirectory then .error .isADirectory
        else .ok (tree.put (place ++ [name]) (.file (.text text))) := by
  rw [writeText, leads.locate_join .write isName (isPlain.not_link _)]
  cases refusal? (path.join name) name with
  | some error => rfl
  | none =>
      simp only [targetAt]
      cases stands : tree.get? (place ++ [name]) with
      | none => rfl
      | some node =>
          cases node with
          | file content | directory readable => rfl
          | link target | special => cases isPlain.get? stands

/-- The place of the file that is written under a path. -/
def placeOf? (tree : FileTree) (path : Path) : Option Place :=
  match tree.locate .write path with
  | .ok (.found place _) | .ok (.missing place) => some place
  | .error _ => none

theorem LeadsTo.placeOf?_join (leads : tree.LeadsTo path place) (isPlain : tree.IsPlain)
    (isName : IsName name) :
    tree.placeOf? (path.join name) =
      if refusal? (path.join name) name = none then some (place ++ [name]) else none := by
  rw [placeOf?, leads.locate_join .write isName (isPlain.not_link _)]
  cases refusal? (path.join name) name with
  | some error => rfl
  | none =>
      simp only [targetAt]
      cases tree.get? (place ++ [name]) <;> rfl

/-- Paths with the same components lead to the same directory. -/
theorem LeadsTo.of_components {front : Path} (leads : tree.LeadsTo path place)
    (same : front.components = path.components) : tree.LeadsTo front place := by
  unfold LeadsTo namesOn at *
  rwa [same]

/-- A name in a directory that is no directory itself can be written. -/
theorem LeadsTo.takes (leads : tree.LeadsTo path place) (isPlain : tree.IsPlain)
    (isName : IsName name)
    (notDirectory : ¬ (tree.get? (place ++ [name])).any FileNode.isDirectory = true) :
    tree.Takes place name where
  isName := isName
  stands := leads.ends
  free node stands := by
    rw [stands] at notDirectory
    cases node with
    | file content => exact ⟨content, rfl⟩
    | directory readable => exact absurd rfl notDirectory
    | link target | special => cases isPlain.get? stands

/-- Writing a file keeps the frame. -/
theorem Takes.sameFrame (takes : tree.Takes directory name) :
    tree.SameFrame (tree.put (directory ++ [name]) (.file content)) :=
  fun _ _ notFile => takes.get?_put_iff notFile

end FileTree

end Deflow
