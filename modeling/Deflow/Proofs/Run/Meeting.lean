import Deflow.Proofs.Path.Components
import Deflow.Proofs.Run.Course
import Mathlib.Data.List.Nodup

/-!
# What a walk meets

On its course a walk leaves files alone, processes files and visits directories.  What it
meets is told by the names that lead there from the root.  If no directory lists a name
twice, nothing is met twice.
-/

namespace Deflow

open Deflow.Path

/-- What an entry of a directory is chosen for. -/
inductive Choice where
  | skip
  | process
  | visit
deriving DecidableEq

/-- The entries that a selector chooses. -/
def Selector.chosen (selector : Selector) (choice : Choice) (directory : Path)
    (entries : List DirectoryEntry) : List Text :=
  match choice with
  | .skip => selector.files .skip directory entries
  | .process => selector.files .process directory entries
  | .visit => selector.subdirectories directory entries

/-- The entries of a directory itself that were chosen. -/
def Course.own (choice : Choice) (course : Course) : List Text :=
  match choice with
  | .skip => course.ownSkips
  | .process => course.ownCalls.map (·.1)
  | .visit => course.visits.map (·.1)

/-- What was met in a directory and below it, in order. -/
def Course.met (choice : Choice) (names : List Text) : Course → List (List Text)
  | .done => []
  | .skipped name rest =>
    (if choice = .skip then [names ++ [name]] else []) ++ rest.met choice names
  | .processed name _ rest =>
    (if choice = .process then [names ++ [name]] else []) ++ rest.met choice names
  | .failed name _ rest =>
    (if choice = .visit then [names ++ [name]] else []) ++ rest.met choice names
  | .entered name _ inside rest =>
    (if choice = .visit then [names ++ [name]] else []) ++
      (inside.met choice (names ++ [name]) ++ rest.met choice names)

/-- What was met in a visit of the root, the root included. -/
def Visit.met (choice : Choice) : Visit → List (List Text)
  | .failed _ => if choice = .visit then [[]] else []
  | .entered _ inside => (if choice = .visit then [[]] else []) ++ inside.met choice []

/-- The files that were processed, and what came of them. -/
def Course.calls (names : List Text) : Course → List (List Text × Outcome)
  | .done => []
  | .skipped _ rest | .failed _ _ rest => rest.calls names
  | .processed name outcome rest => (names ++ [name], outcome) :: rest.calls names
  | .entered name _ inside rest => inside.calls (names ++ [name]) ++ rest.calls names

/-- The files that were processed in a visit of the root, and what came of them. -/
def Visit.calls : Visit → List (List Text × Outcome)
  | .failed _ => []
  | .entered _ inside => inside.calls []

/-- No directory lists a name twice. -/
def Course.Sound : Course → Prop
  | .done => True
  | .skipped _ rest | .processed _ _ rest | .failed _ _ rest => rest.Sound
  | .entered _ entries inside rest =>
    (entries.map (·.name)).Nodup ∧ (∀ entry ∈ entries, IsName entry.name) ∧
      inside.Sound ∧ rest.Sound

/-- No directory lists a name twice in a visit. -/
def Visit.Sound : Visit → Prop
  | .failed _ => True
  | .entered entries inside =>
    (entries.map (·.name)).Nodup ∧ (∀ entry ∈ entries, IsName entry.name) ∧ inside.Sound

section

variable {choice : Choice} {selector : Selector} {directory : Path} {entries : List DirectoryEntry}
  {course rest inner : Course} {names file : List Text} {name : Text} {outcome : Outcome}
  {error : OsError}

/-! ## Choices -/

theorem Selector.mem_files_iff {fate : FileFate} : name ∈ selector.files fate directory entries ↔
    ⟨name, false⟩ ∈ entries ∧ selector.fileFate (directory.join name) name = fate := by
  rw [files, List.mem_map]
  constructor
  · rintro ⟨⟨_, isDirectory⟩, chosen, rfl⟩
    simp only [List.mem_filter, Bool.and_eq_true, Bool.not_eq_true', beq_iff_eq] at chosen
    obtain ⟨member, rfl, hasFate⟩ := chosen
    exact ⟨member, hasFate⟩
  · rintro ⟨member, hasFate⟩
    exact ⟨⟨name, false⟩, by simp [member, hasFate], rfl⟩

theorem Selector.mem_subdirectories_iff : name ∈ selector.subdirectories directory entries ↔
    ⟨name, true⟩ ∈ entries ∧ selector.skipsDirectory (directory.join name) name = false := by
  rw [subdirectories, List.mem_map]
  constructor
  · rintro ⟨⟨_, isDirectory⟩, chosen, rfl⟩
    simp only [List.mem_filter, Bool.and_eq_true, Bool.not_eq_true'] at chosen
    obtain ⟨member, rfl, entered⟩ := chosen
    exact ⟨member, entered⟩
  · rintro ⟨member, entered⟩
    exact ⟨⟨name, true⟩, by simp [member, entered], rfl⟩

theorem Selector.chosen_sublist (selector : Selector) (choice : Choice) (directory : Path)
    (entries : List DirectoryEntry) :
    (selector.chosen choice directory entries).Sublist (entries.map (·.name)) := by
  cases choice <;> exact List.filter_sublist.map _

theorem Course.Covers.own (covers : course.Covers selector directory entries) (choice : Choice) :
    (course.own choice).Perm (selector.chosen choice directory entries) := by
  cases choice with
  | skip => exact .of_eq covers.skips
  | process => exact covers.calls
  | visit => exact .of_eq covers.subdirectories

theorem Course.Covers.nodup_own (covers : course.Covers selector directory entries)
    (distinct : (entries.map (·.name)).Nodup) (choice : Choice) : (course.own choice).Nodup :=
  (covers.own choice).nodup_iff.mpr
    (distinct.sublist (selector.chosen_sublist choice directory entries))

namespace Course

@[simp]
theorem own_done : done.own choice = [] := by
  cases choice <;> rfl

@[simp]
theorem own_skipped :
    (skipped name rest).own choice =
      (if choice = .skip then [name] else []) ++ rest.own choice := by
  cases choice <;> rfl

@[simp]
theorem own_processed : (processed name outcome rest).own choice =
    (if choice = .process then [name] else []) ++ rest.own choice := by
  cases choice <;> rfl

@[simp]
theorem own_failed : (failed name error rest).own choice =
    (if choice = .visit then [name] else []) ++ rest.own choice := by
  cases choice <;> rfl

@[simp]
theorem own_entered : (entered name entries inner rest).own choice =
    (if choice = .visit then [name] else []) ++ rest.own choice := by
  cases choice <;> rfl

theorem map_calls (course : Course) (names : List Text) :
    (course.calls names).map (·.1) = course.met .process names := by
  induction course generalizing names <;> simp_all [calls, met]

/-! ## Where things are met -/

theorem mem_mark {made : Choice} {place : List Text} :
    file ∈ (if choice = made then [place] else []) ↔ choice = made ∧ file = place := by
  split <;> simp_all

theorem isPrefix_of_mem_met (member : file ∈ course.met choice names) :
    names <+: file ∧ names.length < file.length := by
  induction course generalizing names with
  | done => cases member
  | skipped name rest inductionHypothesis | processed name outcome rest inductionHypothesis
  | failed name error rest inductionHypothesis =>
      rcases List.mem_append.mp member with here | later
      · obtain ⟨-, rfl⟩ := mem_mark.mp here
        simp
      · exact inductionHypothesis later
  | entered name entries inner rest innerHypothesis inductionHypothesis =>
      rcases List.mem_append.mp member with here | below
      · obtain ⟨-, rfl⟩ := mem_mark.mp here
        simp
      · rcases List.mem_append.mp below with inside | later
        · obtain ⟨isPrefix, deep⟩ := innerHypothesis inside
          rw [List.length_append] at deep
          exact ⟨(List.prefix_append ..).trans isPrefix, by omega⟩
        · exact inductionHypothesis later

/-- What was met is an entry of the directory or lies below a subdirectory. -/
theorem exists_of_mem_met (member : file ∈ course.met choice names) :
    (∃ name ∈ course.own choice, file = names ++ [name]) ∨
      ∃ next ∈ course.own .visit,
        names ++ [next] <+: file ∧ (names ++ [next]).length < file.length := by
  induction course generalizing names with
  | done => cases member
  | skipped name rest inductionHypothesis | processed name outcome rest inductionHypothesis
  | failed name error rest inductionHypothesis =>
      rcases List.mem_append.mp member with here | later
      · obtain ⟨rfl, rfl⟩ := mem_mark.mp here
        exact .inl ⟨name, by simp, rfl⟩
      · rcases inductionHypothesis later with ⟨next, isNext, same⟩ | ⟨next, isNext, isBelow⟩
        · exact .inl ⟨next, by simp [isNext], same⟩
        · exact .inr ⟨next, by simp [isNext], isBelow⟩
  | entered name entries inner rest _ inductionHypothesis =>
      rcases List.mem_append.mp member with here | below
      · obtain ⟨rfl, rfl⟩ := mem_mark.mp here
        exact .inl ⟨name, by simp, rfl⟩
      · rcases List.mem_append.mp below with inside | later
        · exact .inr ⟨name, by simp, isPrefix_of_mem_met inside⟩
        · rcases inductionHypothesis later with ⟨next, isNext, same⟩ | ⟨next, isNext, isBelow⟩
          · exact .inl ⟨next, by simp [isNext], same⟩
          · exact .inr ⟨next, by simp [isNext], isBelow⟩

/-! ## Nothing is met twice -/

/-- A place below one directory is not below another beside it. -/
theorem not_isPrefix_of_ne {other : List Text} {next : Text} (different : next ≠ name)
    (isPrefix : names ++ [name] <+: other) : ¬ names ++ [next] <+: other := by
  intro alsoPrefix
  have same := List.prefix_of_prefix_length_le alsoPrefix isPrefix (by simp)
  exact different (by simpa using List.IsPrefix.eq_of_length same (by simp))

theorem not_mem_met (absent : name ∉ course.own choice) :
    names ++ [name] ∉ course.met choice names := by
  intro member
  rcases exists_of_mem_met member with ⟨other, isOther, same⟩ | ⟨next, -, -, deep⟩
  · obtain rfl : name = other := by simpa using same
    exact absent isOther
  · simp at deep

/-- An entry comes before others that do not have its name. -/
theorem nodup_mark_append {made : Choice} {later : List (List Text)} {own : List Text}
    (distinct : ((if choice = made then [name] else []) ++ own).Nodup)
    (absent : name ∉ own → names ++ [name] ∉ later) (distinctLater : own.Nodup → later.Nodup) :
    ((if choice = made then [names ++ [name]] else []) ++ later).Nodup := by
  by_cases isMade : choice = made
  · rw [if_pos isMade] at distinct ⊢
    obtain ⟨isNew, distinct⟩ := List.nodup_cons.mp distinct
    exact List.nodup_cons.mpr ⟨absent isNew, distinctLater distinct⟩
  · rw [if_neg isMade] at distinct ⊢
    exact distinctLater distinct

/-- Nothing is met twice if no name is listed twice. -/
theorem nodup_met (fits : course.Fits selector directory) (sound : course.Sound)
    (distinct : (course.own choice).Nodup) (distinctVisits : (course.own .visit).Nodup) :
    (course.met choice names).Nodup := by
  induction course generalizing names directory with
  | done => exact List.nodup_nil
  | skipped name rest inductionHypothesis | processed name outcome rest inductionHypothesis =>
      simp only [own_skipped, own_processed] at distinct distinctVisits
      exact nodup_mark_append distinct not_mem_met
        fun distinct => inductionHypothesis fits sound distinct distinctVisits
  | failed name error rest inductionHypothesis =>
      simp only [own_failed] at distinct distinctVisits
      exact nodup_mark_append distinct not_mem_met
        fun distinct => inductionHypothesis fits sound distinct
          (List.nodup_cons.mp distinctVisits).2
  | entered name entries inner rest innerHypothesis inductionHypothesis =>
      obtain ⟨covers, fitsInner, fitsRest⟩ := fits
      obtain ⟨distinctEntries, -, soundInner, soundRest⟩ := sound
      simp only [own_entered] at distinct distinctVisits
      obtain ⟨unrepeated, distinctVisits⟩ := List.nodup_cons.mp distinctVisits
      refine nodup_mark_append distinct (fun absent member => ?_) fun distinct => ?_
      · rcases List.mem_append.mp member with inside | later
        · have := (isPrefix_of_mem_met inside).2
          omega
        · exact not_mem_met absent later
      · refine List.nodup_append.mpr ⟨innerHypothesis fitsInner soundInner
          (covers.nodup_own distinctEntries choice) (covers.nodup_own distinctEntries .visit),
          inductionHypothesis fitsRest soundRest distinct distinctVisits, ?_⟩
        rintro file isInner _ isRest rfl
        have inSubdirectory := isPrefix_of_mem_met isInner
        rcases exists_of_mem_met isRest with ⟨last, -, rfl⟩ | ⟨next, isNext, isPrefix, -⟩
        · simp at inSubdirectory
        · exact not_isPrefix_of_ne (ne_of_mem_of_not_mem isNext unrepeated)
            inSubdirectory.1 isPrefix

end Course

/-! ## Visits of the root -/

variable {visit : Visit}

theorem Visit.map_calls (visit : Visit) : visit.calls.map (·.1) = visit.met .process := by
  cases visit with
  | failed error => rfl
  | entered entries inside => exact inside.map_calls []

theorem Visit.nodup_met (fits : visit.Fits selector directory) (sound : visit.Sound) :
    (visit.met choice).Nodup := by
  cases visit with
  | failed error =>
      rw [met]
      split <;> simp
  | entered entries inside =>
      obtain ⟨covers, fits⟩ := fits
      obtain ⟨distinct, -, sound⟩ := sound
      refine List.nodup_append.mpr ⟨by split <;> simp, Course.nodup_met fits sound
        (covers.nodup_own distinct choice) (covers.nodup_own distinct .visit), ?_⟩
      rintro file isRoot _ member rfl
      obtain ⟨-, rfl⟩ := Course.mem_mark.mp isRoot
      simpa using (Course.isPrefix_of_mem_met member).2

end

/-! ## What is told of it -/

namespace Event

end Event

end Deflow
