import Deflow.Script.Lexeme
import Deflow.Text.Position

/-!
# Syntax errors

Why a source text is refused, and where. The wording of every cause is fixed
here.
-/

namespace Deflow

/-- What is wrong with an `import` or `export` declaration. -/
inductive DeclarationFault where
  | missingBindings
  | missingSecondClause
  | missingAs
  | missingNamespaceName
  | missingFrom
  | missingSource
  | unterminatedAttributes
  | unterminatedList
  | missingSpecifierName
  | missingSeparator
deriving DecidableEq, Repr

/-- The wording of a fault in a declaration. -/
def DeclarationFault.message : DeclarationFault → String
  | .missingBindings => "expected import bindings"
  | .missingSecondClause => "expected `*` or `\x7b` after `,` in import"
  | .missingAs => "expected `as` after `*` in import"
  | .missingNamespaceName => "expected a namespace name"
  | .missingFrom => "expected `from` in import declaration"
  | .missingSource => "expected a module specifier string"
  | .unterminatedAttributes => "unterminated import attributes"
  | .unterminatedList => "unterminated specifier list"
  | .missingSpecifierName => "expected a specifier name"
  | .missingSeparator => "expected `,` or `\x7d` in specifier list"

/-- Why a source text is no document. -/
inductive SyntaxFault where
  /-- The text cannot be cut into tokens. -/
  | scan (fault : Script.ScanFault)
  /-- A bracket closes another kind of bracket than the innermost open one. -/
  | mismatchedBracket (closer opener : Char) (opened : Position)
  /-- A bracket closes although none is open. -/
  | unexpectedBracket (closer : Char)
  /-- A bracket is never closed. -/
  | unclosedBracket (opener : Char)
  | declaration (fault : DeclarationFault)
deriving DecidableEq, Repr

/-- The wording of a fault. -/
def SyntaxFault.message : SyntaxFault → String
  | .scan fault => fault.message
  | .mismatchedBracket closer opener opened =>
    s!"mismatched `{closer}` (`{opener}` opened at {opened.render})"
  | .unexpectedBracket closer => s!"unexpected `{closer}`"
  | .unclosedBracket opener => s!"unclosed `{opener}`"
  | .declaration fault => fault.message

/-- A fault and its place in the source text. -/
structure SyntaxError where
  position : Position
  fault : SyntaxFault
deriving DecidableEq, Repr

/-- The wording of a fault at a position. -/
def Position.explain (position : Position) (reason : String) : String :=
  s!"{position.render}: {reason}"

/-- The wording of a syntax error. -/
def SyntaxError.message (error : SyntaxError) : String :=
  error.position.explain error.fault.message

end Deflow
