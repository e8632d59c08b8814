import Deflow.Text.WordChar

/-!
# Pragmas

A comment is a pragma if it speaks to the type checker: it holds one of the
marks below, and the mark is not the beginning of a longer word.
-/

namespace Deflow

/-- The marks that a pragma holds. -/
def pragmaMarks : List String :=
  ["@flow", "@noflow", "$FlowFixMe", "$FlowIssue", "$FlowExpectedError", "$FlowIgnore"]

/-- Whether a text begins with a mark that is a whole word. -/
def startsWithMark (text : Text) : Bool :=
  pragmaMarks.any fun mark => (Text.dropFront? mark.toList text).any Text.endsWord

/-- Whether the body of a comment holds a mark. -/
def isPragma : Text → Bool
  | [] => false
  | c :: text => startsWithMark (c :: text) || isPragma text

end Deflow
