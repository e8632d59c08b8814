import Deflow.Document.CommentRemoval
import Mathlib.Data.List.DropRight

/-!
# Lines and stretches of a text

A stretch is given by the place of its first character and the place behind its
last one.  `cutOut` takes all characters out of a text that lie in some stretch.
The lines around a place are the text behind the last line feed before it and the
text through the first line feed from there on.
-/

namespace Deflow

/-! ## Lines -/

/-- What stands behind the last line feed of a text. -/
def lastLine (text : Text) : Text :=
  text.rtakeWhile (· != '\n')

/-- A text through its first line feed, or all of it. -/
def firstLine : Text → Text
  | [] => []
  | c :: text => if c = '\n' then ['\n'] else c :: firstLine text

/-- Whether a text is empty or ends with a line feed. -/
def endsLines (text : Text) : Prop :=
  ∀ c ∈ text.getLast?, c = '\n'

theorem dropLastLine_append_lastLine (text : Text) : dropLastLine text ++ lastLine text = text :=
  List.rdropWhile_append_rtakeWhile ..

theorem length_dropLastLine (text : Text) :
    (dropLastLine text).length = text.length - (lastLine text).length := by
  have lengths := congrArg List.length (dropLastLine_append_lastLine text)
  rw [List.length_append] at lengths
  omega

theorem notMem_lastLine (text : Text) : '\n' ∉ lastLine text := by
  intro member
  have inLine := List.mem_rtakeWhile_imp member
  simp at inLine

theorem endsLines_append {first second : Text} (ends : endsLines second)
    (empty : second = [] → endsLines first) : endsLines (first ++ second) := by
  cases second with
  | nil => simpa using empty rfl
  | cons c second =>
      intro last isLast
      refine ends last ?_
      simpa [List.getLast?_append] using isLast

theorem endsLines_iff {text : Text} :
    endsLines text ↔ ∀ nonempty : text ≠ [], ¬(text.getLast nonempty != '\n') = true := by
  cases text using List.reverseRecOn <;> simp [endsLines]

theorem endsLines_dropLastLine (text : Text) : endsLines (dropLastLine text) :=
  endsLines_iff.mpr (List.rdropWhile_last_not (· != '\n') text)

/-- Characters of a line behind a text. -/
theorem lastLine_append_line {line : Text} (inLine : '\n' ∉ line) (front : Text) :
    lastLine (front ++ line) = lastLine front ++ line := by
  induction line using List.reverseRecOn with
  | nil => simp
  | append_singleton line c inductionHypothesis =>
      simp only [List.mem_append, List.mem_singleton, not_or] at inLine
      rw [← List.append_assoc, ← List.append_assoc, ← inductionHypothesis inLine.1]
      exact List.rtakeWhile_concat_pos _ _ _ (by simpa using Ne.symm inLine.2)

theorem lastLine_eq_nil_iff {text : Text} : lastLine text = [] ↔ endsLines text := by
  rw [lastLine, List.rtakeWhile_eq_nil_iff, endsLines_iff]

/-- Whole lines in front do not change the last line. -/
theorem lastLine_append_of_endsLines {lines : Text} (ends : endsLines lines) (text : Text) :
    lastLine (lines ++ text) = lastLine text := by
  have whole : endsLines (lines ++ dropLastLine text) :=
    endsLines_append (endsLines_dropLastLine text) fun _ => ends
  calc
    lastLine (lines ++ text) = lastLine (lines ++ dropLastLine text ++ lastLine text) := by
      rw [List.append_assoc, dropLastLine_append_lastLine]
    _ = lastLine (lines ++ dropLastLine text) ++ lastLine text :=
      lastLine_append_line (notMem_lastLine text) _
    _ = lastLine text := by
      rw [lastLine_eq_nil_iff.mpr whole, List.nil_append]

theorem dropLastLine_append_of_endsLines {lines : Text} (ends : endsLines lines) (text : Text) :
    dropLastLine (lines ++ text) = lines ++ dropLastLine text := by
  have whole := dropLastLine_append_lastLine (lines ++ text)
  rw [lastLine_append_of_endsLines ends] at whole
  refine List.append_cancel_right (whole.trans ?_)
  rw [List.append_assoc, dropLastLine_append_lastLine]

/-- The last line begins in the second of two texts if that has a line feed. -/
theorem lastLine_append_of_mem {second : Text} (breaks : '\n' ∈ second) (first : Text) :
    lastLine (first ++ second) = lastLine second := by
  have someLine : dropLastLine second ≠ [] := by
    intro empty
    rw [← dropLastLine_append_lastLine second, empty, List.nil_append] at breaks
    exact notMem_lastLine second breaks
  have whole : endsLines (first ++ dropLastLine second) :=
    endsLines_append (endsLines_dropLastLine second) fun empty => absurd empty someLine
  calc
    lastLine (first ++ second) = lastLine (first ++ dropLastLine second ++ lastLine second) := by
      rw [List.append_assoc, dropLastLine_append_lastLine]
    _ = lastLine (lastLine second) := lastLine_append_of_endsLines whole _
    _ = lastLine second := List.rtakeWhile_idempotent ..

theorem firstLine_isPrefix (text : Text) : firstLine text <+: text := by
  induction text with
  | nil => exact List.prefix_refl _
  | cons c text inductionHypothesis =>
      rw [firstLine]
      split
      · rename_i isFeed
        subst isFeed
        exact List.prefix_append ['\n'] text
      · exact (List.prefix_cons_inj c).mpr inductionHypothesis

theorem firstLine_eq_self {text : Text} (inLine : '\n' ∉ text) : firstLine text = text := by
  induction text with
  | nil => rfl
  | cons c text inductionHypothesis =>
      rw [List.mem_cons, not_or] at inLine
      rw [firstLine, if_neg (Ne.symm inLine.1), inductionHypothesis inLine.2]

/-! ## Stretches -/

/-- A stretch of a text. -/
structure Stretch where
  start : Nat
  /-- The place behind the last character. -/
  finish : Nat
deriving DecidableEq, Repr

/-- Whether a place lies in a stretch. -/
def Stretch.holds (stretch : Stretch) (place : Nat) : Bool :=
  stretch.start ≤ place && place < stretch.finish

/-- A text that begins at `place`, without the characters in some stretch. -/
def cutOut (stretches : List Stretch) : (place : Nat) → Text → Text
  | _, [] => []
  | place, c :: text =>
    if stretches.any (·.holds place) then cutOut stretches (place + 1) text
    else c :: cutOut stretches (place + 1) text

theorem cutOut_append (stretches : List Stretch) (place : Nat) (first second : Text) :
    cutOut stretches place (first ++ second) =
      cutOut stretches place first ++ cutOut stretches (place + first.length) second := by
  induction first generalizing place with
  | nil => rfl
  | cons c first inductionHypothesis =>
      rw [List.cons_append, cutOut, cutOut, inductionHypothesis, List.length_cons,
        Nat.add_right_comm, Nat.add_assoc place]
      split <;> rfl

/-- Nothing goes in front of all stretches. -/
theorem cutOut_eq_self {stretches : List Stretch} {place : Nat} {text : Text}
    (before : ∀ stretch ∈ stretches, place + text.length ≤ stretch.start) :
    cutOut stretches place text = text := by
  induction text generalizing place with
  | nil => rfl
  | cons c text inductionHypothesis =>
      have outside : stretches.any (·.holds place) = false := by
        rw [List.any_eq_false]
        intro stretch member holds
        have first := before stretch member
        simp only [Stretch.holds, Bool.and_eq_true, decide_eq_true_eq] at holds
        rw [List.length_cons] at first
        omega
      rw [cutOut, outside, inductionHypothesis fun stretch member => by
        have first := before stretch member
        rw [List.length_cons] at first
        omega]
      rfl

/-- All goes that lies in one stretch. -/
theorem cutOut_eq_nil {stretches : List Stretch} {stretch : Stretch} (member : stretch ∈ stretches)
    {place : Nat} {text : Text} (starts : stretch.start ≤ place)
    (ends : place + text.length ≤ stretch.finish) : cutOut stretches place text = [] := by
  induction text generalizing place with
  | nil => rfl
  | cons c text inductionHypothesis =>
      rw [List.length_cons] at ends
      have inside : stretches.any (·.holds place) = true := by
        refine List.any_eq_true.mpr ⟨stretch, member, ?_⟩
        simp only [Stretch.holds, Bool.and_eq_true, decide_eq_true_eq]
        omega
      rw [cutOut, if_pos inside]
      exact inductionHypothesis (by omega) (by omega)

/-- A stretch does not matter behind its end. -/
theorem cutOut_cons_of_finish_le {stretch : Stretch} {place : Nat} (behind : stretch.finish ≤ place)
    (stretches : List Stretch) (text : Text) :
    cutOut (stretch :: stretches) place text = cutOut stretches place text := by
  induction text generalizing place with
  | nil => rfl
  | cons c text inductionHypothesis =>
      have outside : stretch.holds place = false := by
        simp only [Stretch.holds, Bool.and_eq_false_imp, decide_eq_true_eq, decide_eq_false_iff_not]
        omega
      rw [cutOut, cutOut, List.any_cons, outside, Bool.false_or, inductionHypothesis (by omega)]

end Deflow
