import Deflow.Proofs.Run.Survey

/-!
# Coverage

A walk that agrees with a survey meets what the survey has: every entry that is chosen,
as long as all directories on the way to it can be listed and are not passed over, and
nothing else.
-/

namespace Deflow

open Deflow.Path

/-- From a directory on, a survey has an entry that is chosen, and all directories on the
way to it can be listed and are not passed over. -/
inductive Survey.Meets (survey : Survey) (selector : Selector) (root : Path) (choice : Choice) :
    List Text → List Text → Prop where
  | here {names : List Text} {entries : List DirectoryEntry} {name : Text}
      (listing : survey names = .ok entries)
      (chosen : name ∈ selector.chosen choice (root.below names) entries) :
      Meets survey selector root choice names (names ++ [name])
  | child {names : List Text} {entries : List DirectoryEntry} {next : Text} {file : List Text}
      (listing : survey names = .ok entries)
      (chosen : next ∈ selector.subdirectories (root.below names) entries)
      (meets : Meets survey selector root choice (names ++ [next]) file) :
      Meets survey selector root choice names file

variable {survey : Survey} {selector : Selector} {root : Path} {choice : Choice}
  {names file : List Text} {entries : List DirectoryEntry}

namespace Survey

/-- An entry is met in a directory or in one of its subdirectories. -/
theorem meets_iff (listing : survey names = .ok entries) :
    survey.Meets selector root choice names file ↔
      (∃ name ∈ selector.chosen choice (root.below names) entries, file = names ++ [name]) ∨
        ∃ next ∈ selector.subdirectories (root.below names) entries,
          survey.Meets selector root choice (names ++ [next]) file := by
  constructor
  · intro meets
    cases meets with
    | here isListing chosen =>
        obtain rfl := Except.ok.inj (isListing.symm.trans listing)
        exact .inl ⟨_, chosen, rfl⟩
    | child isListing chosen meets =>
        obtain rfl := Except.ok.inj (isListing.symm.trans listing)
        exact .inr ⟨_, chosen, meets⟩
  · rintro (⟨name, chosen, rfl⟩ | ⟨next, chosen, meets⟩)
    · exact .here listing chosen
    · exact .child listing chosen meets

theorem not_meets {error : OsError} (listing : survey names = .error error) :
    ¬ survey.Meets selector root choice names file := by
  intro meets
  cases meets with
  | here isListing _ | child isListing _ _ => cases isListing.symm.trans listing

theorem Meets.exists_eq (meets : survey.Meets selector root choice names file) :
    ∃ rest name, file = names ++ (rest ++ [name]) := by
  induction meets with
  | here listing chosen => exact ⟨[], _, rfl⟩
  | @child names entries next file listing chosen meets inductionHypothesis =>
      obtain ⟨rest, name, rfl⟩ := inductionHypothesis
      exact ⟨next :: rest, name, by simp⟩

end Survey

/-- What a course met are its own entries, and what the survey has in its
subdirectories. -/
theorem Course.mem_met_iff {course : Course} (fits : course.Fits selector (root.below names))
    (agrees : course.Agrees survey names) :
    file ∈ course.met choice names ↔
      (∃ name ∈ course.own choice, file = names ++ [name]) ∨
        ∃ next ∈ course.own .visit, survey.Meets selector root choice (names ++ [next]) file := by
  induction course generalizing names with
  | done => simp [met]
  | skipped name rest inductionHypothesis | processed name outcome rest inductionHypothesis =>
      rw [met, List.mem_append, mem_mark, inductionHypothesis fits agrees]
      cases choice <;> simp [or_assoc]
  | failed name error rest inductionHypothesis =>
      have nothing : ¬ survey.Meets selector root choice (names ++ [name]) file :=
        Survey.not_meets agrees.1
      rw [met, List.mem_append, mem_mark, inductionHypothesis fits agrees.2]
      cases choice <;> simp [nothing, or_assoc]
  | entered name entries inner rest innerHypothesis inductionHypothesis =>
      obtain ⟨covers, fitsInner, fitsRest⟩ := fits
      obtain ⟨listing, agreesInner, agreesRest⟩ := agrees
      rw [← below_snoc] at covers fitsInner
      have ofInner := innerHypothesis fitsInner agreesInner
      simp only [(covers.own choice).mem_iff, (covers.own .visit).mem_iff] at ofInner
      rw [Selector.chosen, ← Survey.meets_iff listing] at ofInner
      rw [met, List.mem_append, mem_mark, List.mem_append, ofInner,
        inductionHypothesis fitsRest agreesRest]
      cases choice <;> simp [or_assoc, or_left_comm]

/-- A visit meets what the survey has. -/
theorem Visit.mem_met_iff {visit : Visit} (fits : visit.Fits selector root)
    (agrees : visit.Agrees survey) :
    file ∈ visit.met choice ↔
      (choice = .visit ∧ file = []) ∨ survey.Meets selector root choice [] file := by
  cases visit with
  | failed error =>
      have nothing : ¬ survey.Meets selector root choice [] file := Survey.not_meets agrees
      rw [met, Course.mem_mark, or_iff_left nothing]
  | entered entries inside =>
      obtain ⟨covers, fits⟩ := fits
      obtain ⟨listing, agrees⟩ := agrees
      have ofInside : file ∈ inside.met choice [] ↔ _ := Course.mem_met_iff fits agrees
      simp only [(covers.own choice).mem_iff, (covers.own .visit).mem_iff] at ofInside
      rw [met, List.mem_append, Course.mem_mark, ofInside.trans (Survey.meets_iff listing).symm]

end Deflow
