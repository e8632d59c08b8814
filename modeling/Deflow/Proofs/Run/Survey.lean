import Deflow.Proofs.Run.Meeting
import Deflow.Proofs.Run.Walk

/-!
# Surveys

A survey says what every directory below a root lists.  While a walk goes on, the world
may change under it.  As long as the directories that were not listed yet list what the
survey says, every listing of the walk is the one of the survey, so that the course of
the walk is determined by the survey alone, whatever is processed when.
-/

namespace Deflow

open Deflow.Path

/-- What the directories below a root list, by the names that lead to them. -/
abbrev Survey := List Text → Except OsError (List DirectoryEntry)

namespace Survey

/-- Directories that are listed in the one above them, up to the root. -/
inductive Holds (survey : Survey) : List Text → Prop where
  | root : Holds survey []
  | child {names : List Text} {entries : List DirectoryEntry} {name : Text}
      (holds : Holds survey names) (listing : survey names = .ok entries)
      (member : ⟨name, true⟩ ∈ entries) : Holds survey (names ++ [name])

/-- A directory has distinct names in it, and there are fewer than `bound` names on the
way to any directory that has one below it. -/
structure Orderly (survey : Survey) (bound : Nat) : Prop where
  isName : ∀ {names entries}, survey.Holds names → survey names = .ok entries →
    ∀ entry ∈ entries, IsName entry.name
  distinct : ∀ {names entries}, survey.Holds names → survey names = .ok entries →
    (entries.map (·.name)).Nodup
  bounded : ∀ {names entries name}, survey.Holds names → survey names = .ok entries →
    ⟨name, true⟩ ∈ entries → names.length < bound

theorem Holds.isName {survey : Survey} {bound : Nat} (orderly : survey.Orderly bound)
    {names : List Text} (holds : survey.Holds names) : ∀ name ∈ names, IsName name := by
  induction holds with
  | root => simp
  | child holds listing member inductionHypothesis =>
      rw [List.forall_mem_append, List.forall_mem_singleton]
      exact ⟨inductionHypothesis, orderly.isName holds listing _ member⟩

end Survey

/-- The listings in a course are those of a survey. -/
def Course.Agrees (survey : Survey) (names : List Text) : Course → Prop
  | .done => True
  | .skipped _ rest | .processed _ _ rest => rest.Agrees survey names
  | .failed name error rest => survey (names ++ [name]) = .error error ∧ rest.Agrees survey names
  | .entered name entries inside rest =>
    survey (names ++ [name]) = .ok entries ∧ inside.Agrees survey (names ++ [name]) ∧
      rest.Agrees survey names

/-- The listings in a visit of the root are those of a survey. -/
def Visit.Agrees (survey : Survey) : Visit → Prop
  | .failed error => survey [] = .error error
  | .entered entries inside => survey [] = .ok entries ∧ inside.Agrees survey []

/-- A part of the course inside a directory of a survey. -/
structure Course.Inside (course : Course) (survey : Survey) (selector : Selector) (root : Path)
    (names : List Text) (entries : List DirectoryEntry) : Prop where
  holds : survey.Holds names
  listing : survey names = .ok entries
  chosen :
    ∀ choice, ∀ name ∈ course.own choice, name ∈ selector.chosen choice (root.below names) entries
  distinct : (course.own .visit).Nodup

namespace Course.Inside

variable {survey : Survey} {selector : Selector} {root : Path} {names : List Text}
  {entries : List DirectoryEntry} {rest : Course} {name : Text}

/-- The course inside a directory as a whole. -/
theorem of_covers {bound : Nat} {course : Course} (orderly : survey.Orderly bound)
    (holds : survey.Holds names) (listing : survey names = .ok entries)
    (covers : course.Covers selector (root.below names) entries) :
    course.Inside survey selector root names entries where
  holds := holds
  listing := listing
  chosen choice _ member := (covers.own choice).mem_iff.mp member
  distinct := covers.nodup_own (orderly.distinct holds listing) .visit

theorem of_skipped (inside : (skipped name rest).Inside survey selector root names entries) :
    rest.Inside survey selector root names entries :=
  { inside with chosen := fun choice name member => inside.chosen choice name (by simp [member]) }

theorem of_processed {outcome : Outcome}
    (inside : (processed name outcome rest).Inside survey selector root names entries) :
    name ∈ selector.files .process (root.below names) entries ∧
      rest.Inside survey selector root names entries :=
  ⟨inside.chosen .process name (by simp),
    { inside with
      chosen := fun choice name member => inside.chosen choice name (by simp [member]) }⟩

/-- Behind a subdirectory no other has its name. -/
theorem of_failed {error : OsError}
    (inside : (failed name error rest).Inside survey selector root names entries) :
    survey.Holds (names ++ [name]) ∧ ⟨name, true⟩ ∈ entries ∧ name ∉ rest.own .visit ∧
      rest.Inside survey selector root names entries := by
  have member := (Selector.mem_subdirectories_iff.mp (inside.chosen .visit name (by simp))).1
  have distinct := List.nodup_cons.mp inside.distinct
  exact ⟨.child inside.holds inside.listing member, member, distinct.1,
    { inside with
      chosen := fun choice name member => inside.chosen choice name (by simp [member])
      distinct := distinct.2 }⟩

theorem of_entered {entered : List DirectoryEntry} {inner : Course}
    (inside : (Course.entered name entered inner rest).Inside survey selector root names entries) :
    survey.Holds (names ++ [name]) ∧ ⟨name, true⟩ ∈ entries ∧ name ∉ rest.own .visit ∧
      rest.Inside survey selector root names entries :=
  -- What came of the subdirectory does not matter here.
  have inside : (failed name .notFound rest).Inside survey selector root names entries :=
    { inside with
      chosen := fun choice name member => inside.chosen choice name (by simpa using member) }
  inside.of_failed

end Course.Inside

section

variable {W : Type} [Disk (StateM W)]

/-- In the worlds of a walk, directories that were not listed yet list what a survey
says, and looking and processing keep it so. -/
structure Sheltered (walker : Walker (StateM W)) (root : Path) (survey : Survey)
    (holds : List (List Text) → W → Prop) : Prop where
  look : ∀ {listed world names}, holds listed world → survey.Holds names → names ∉ listed →
    (listOn (root.below names) world).1 = survey names
  list : ∀ {listed world names}, holds listed world → survey.Holds names →
    holds (names :: listed) (listOn (root.below names) world).2
  process : ∀ {listed world names entries name}, holds listed world → names ∈ listed →
    survey.Holds names → survey names = .ok entries →
    name ∈ walker.selector.files .process (root.below names) entries →
    holds listed ((walker.process (root.below (names ++ [name]))).run world).2

/-- A directory lists what the survey says when its turn comes, and behind it the others
still do. -/
theorem Sheltered.listOn {walker : Walker (StateM W)} {root : Path} {survey : Survey}
    {holds : List (List Text) → W → Prop} (sheltered : Sheltered walker root survey holds)
    {listed : List (List Text)} {before after : W} {names : List Text}
    {result : Except OsError (List DirectoryEntry)} (held : holds listed before)
    (isHeld : survey.Holds names) (fresh : names ∉ listed)
    (listing : listOn (root.below names) before = (result, after)) :
    survey names = result ∧ holds (names :: listed) after := by
  have looked := sheltered.look held isHeld fresh
  have kept := sheltered.list held isHeld
  rw [listing] at looked kept
  exact ⟨looked.symm, kept⟩

/-- The course of a walk in sheltered worlds holds the listings of the survey. -/
theorem Course.agrees {walker : Walker (StateM W)} {root : Path} {survey : Survey}
    {holds : List (List Text) → W → Prop} {bound : Nat}
    (sheltered : Sheltered walker root survey holds) (orderly : survey.Orderly bound)
    {course : Course} {names : List Text} {entries : List DirectoryEntry} {levels : Nat}
    {listed : List (List Text)} {before after : W}
    (inside : course.Inside survey walker.selector root names entries)
    (fits : course.Fits walker.selector (root.below names))
    (plays : course.Plays walker.process levels (root.below names) before after)
    (deep : bound ≤ names.length + levels) (held : holds listed before) (here : names ∈ listed)
    (fresh : ∀ name ∈ course.own .visit, ∀ other ∈ listed, ¬ names ++ [name] <+: other) :
    course.Agrees survey names ∧ course.Sound ∧
      holds ((course.met .visit names).reverse ++ listed) after := by
  induction course generalizing names entries levels listed before after with
  | done =>
      obtain rfl : after = before := plays
      exact ⟨trivial, trivial, held⟩
  | skipped name rest inductionHypothesis =>
      exact inductionHypothesis inside.of_skipped fits plays deep held here fresh
  | processed name outcome rest inductionHypothesis =>
      obtain ⟨chosen, insideRest⟩ := inside.of_processed
      obtain ⟨between, isRun, playsRest⟩ := plays
      have kept := sheltered.process held here inside.holds inside.listing chosen
      rw [below_snoc, isRun] at kept
      exact inductionHypothesis insideRest fits playsRest deep kept here fresh
  | failed name error rest inductionHypothesis =>
      obtain ⟨isHeld, member, unrepeated, insideRest⟩ := inside.of_failed
      obtain ⟨between, unlisted, playsRest⟩ := plays
      have enough := orderly.bounded inside.holds inside.listing member
      have fresh := List.forall_mem_cons.mp fresh
      rw [← below_snoc] at unlisted
      rcases unlisted with ⟨none, -⟩ | ⟨-, listing⟩
      · omega
      · obtain ⟨isListing, kept⟩ := sheltered.listOn held isHeld
          (fun listed => fresh.1 _ listed List.prefix_rfl) listing
        have freshRest : ∀ next ∈ rest.own .visit, ∀ other ∈ (names ++ [name]) :: listed,
            ¬ names ++ [next] <+: other := by
          intro next isNext other isOther
          rcases List.mem_cons.mp isOther with rfl | earlier
          · exact not_isPrefix_of_ne (ne_of_mem_of_not_mem isNext unrepeated) List.prefix_rfl
          · exact fresh.2 next isNext other earlier
        obtain ⟨agrees, sound, held⟩ := inductionHypothesis insideRest fits playsRest deep kept
          (List.mem_cons_of_mem _ here) freshRest
        exact ⟨⟨isListing, agrees⟩, sound, by simpa [met] using held⟩
  | entered name entries inner rest innerHypothesis inductionHypothesis =>
      obtain ⟨isHeld, member, unrepeated, insideRest⟩ := inside.of_entered
      obtain ⟨covers, fitsInner, fitsRest⟩ := fits
      obtain ⟨lower, opened, between, isLower, listing, playsInner, playsRest⟩ := plays
      have fresh := List.forall_mem_cons.mp fresh
      rw [← below_snoc] at covers fitsInner listing playsInner
      obtain ⟨isListing, kept⟩ := sheltered.listOn held isHeld
        (fun listed => fresh.1 _ listed List.prefix_rfl) listing
      have freshInner : ∀ next ∈ inner.own .visit, ∀ other ∈ (names ++ [name]) :: listed,
          ¬ names ++ [name] ++ [next] <+: other := by
        intro next _ other isOther isPrefix
        rcases List.mem_cons.mp isOther with rfl | earlier
        · have := isPrefix.length_le
          simp at this
        · exact fresh.1 other earlier ((List.prefix_append ..).trans isPrefix)
      obtain ⟨agreesInner, soundInner, heldInner⟩ := innerHypothesis
        (.of_covers orderly isHeld isListing covers) fitsInner playsInner (by simp; omega) kept
        (List.mem_cons_self ..) freshInner
      have freshRest : ∀ next ∈ rest.own .visit,
          ∀ other ∈ (inner.met .visit (names ++ [name])).reverse ++ (names ++ [name]) :: listed,
            ¬ names ++ [next] <+: other := by
        intro next isNext other isOther
        have different := ne_of_mem_of_not_mem isNext unrepeated
        rcases List.mem_append.mp isOther with deeper | isOther
        · exact not_isPrefix_of_ne different (isPrefix_of_mem_met (List.mem_reverse.mp deeper)).1
        · rcases List.mem_cons.mp isOther with rfl | earlier
          · exact not_isPrefix_of_ne different List.prefix_rfl
          · exact fresh.2 next isNext other earlier
      obtain ⟨agrees, sound, held⟩ :=
        inductionHypothesis insideRest fitsRest playsRest deep heldInner
          (by simp [here]) freshRest
      exact ⟨⟨isListing, agreesInner, agrees⟩,
        ⟨orderly.distinct isHeld isListing, orderly.isName isHeld isListing, soundInner, sound⟩,
        by simpa [met] using held⟩

/-- The visit of the root in sheltered worlds holds the listings of the survey, if there
are levels enough. -/
theorem Visit.agrees {walker : Walker (StateM W)} {root : Path} {survey : Survey}
    {holds : List (List Text) → W → Prop} {bound : Nat}
    (sheltered : Sheltered walker root survey holds) (orderly : survey.Orderly bound)
    {visit : Visit} {levels : Nat} {before after : W} (fits : visit.Fits walker.selector root)
    (plays : visit.Plays walker.process levels root before after) (deep : bound < levels)
    (held : holds [] before) :
    visit.Agrees survey ∧ visit.Sound ∧ holds (visit.met .visit).reverse after := by
  cases visit with
  | failed error =>
      rcases plays with ⟨none, -⟩ | ⟨-, listing⟩
      · omega
      · obtain ⟨isListing, kept⟩ := sheltered.listOn held .root List.not_mem_nil listing
        exact ⟨isListing, trivial, kept⟩
  | entered entries inside =>
      obtain ⟨lower, opened, isLower, listing, plays⟩ := plays
      obtain ⟨isListing, kept⟩ := sheltered.listOn held .root List.not_mem_nil listing
      have fresh : ∀ name ∈ inside.own .visit, ∀ other ∈ [[]], ¬ [] ++ [name] <+: other := by
        simp
      obtain ⟨agrees, sound, held⟩ := Course.agrees sheltered orderly
        (.of_covers orderly .root isListing fits.1) fits.2 plays (by simp; omega) kept
        (List.mem_cons_self ..) fresh
      exact ⟨⟨isListing, agrees⟩,
        ⟨orderly.distinct .root isListing, orderly.isName .root isListing, sound⟩,
        by simpa [met] using held⟩

end

end Deflow
