import Deflow.Document.CommentRemoval
import Deflow.Rule.Pragma

/-!
# Rules

A rule changes a document in one respect and counts its edits. What a rule does
not speak of it leaves alone, and a declaration in which it finds nothing to
change keeps the text it was written as.
-/

namespace Deflow

/-- The three rules. -/
inductive Rule where
  /-- Removes comments that speak to the type checker. -/
  | stripPragmas
  /-- Turns imports of types into imports of values. -/
  | normalizeImportKinds
  /-- Turns exports of types, and types among exports, into exports of values. -/
  | normalizeExportKinds
deriving DecidableEq, Repr

namespace Rule

/-- All rules, in the order in which they are applied. -/
def all : List Rule :=
  [.stripPragmas, .normalizeImportKinds, .normalizeExportKinds]

/-- The name by which a rule can be chosen. -/
def name : Rule → String
  | .stripPragmas => "strip-pragmas"
  | .normalizeImportKinds => "normalize-import-kinds"
  | .normalizeExportKinds => "normalize-export-kinds"

/-- The rule of a name. -/
def ofName? (name : String) : Option Rule :=
  all.find? (·.name == name)

end Rule

/-! ## What the rules do to declarations -/

/-- Whether a comment is a pragma. -/
def Comment.isPragma (comment : Comment) : Bool :=
  Deflow.isPragma comment.body

/-- A binding of a value. -/
def Specifier.toValue (specifier : Specifier) : Specifier :=
  { specifier with kind := .value }

/-- How many bindings of a list are no values. -/
def SpecifierList.typeCount (list : SpecifierList) : Nat :=
  list.items.countP (!·.kind.isValue)

/-- A list of values. -/
def SpecifierList.toValues (list : SpecifierList) : SpecifierList :=
  { list with items := list.items.map Specifier.toValue }

/-- How many edits make an `export` one of values. -/
def ExportDeclaration.typeCount (declaration : ExportDeclaration) : Nat :=
  (if declaration.kind.isValue then 0 else 1) + declaration.specifiers.typeCount

/-- An `export` of values. -/
def ExportDeclaration.toValues (declaration : ExportDeclaration) : ExportDeclaration :=
  let declaration := declaration.setKind .value
  if declaration.specifiers.typeCount = 0 then declaration
  else declaration.mapSpecifiers SpecifierList.toValues

/-- Changes every `import`. -/
def Document.mapImports (change : ImportDeclaration → ImportDeclaration) (document : Document) :
    Document where
  nodes := document.nodes.map fun
    | .importing declaration => .importing (change declaration)
    | node => node

/-- Changes every `export`. -/
def Document.mapExports (change : ExportDeclaration → ExportDeclaration) (document : Document) :
    Document where
  nodes := document.nodes.map fun
    | .exporting declaration => .exporting (change declaration)
    | node => node

namespace Rule

/-- How many edits a rule makes in a document. -/
def edits : Rule → Document → Nat
  | .stripPragmas, document => document.countComments Comment.isPragma
  | .normalizeImportKinds, document => document.imports.countP (!·.kind.isValue)
  | .normalizeExportKinds, document =>
    document.exports.foldr (fun declaration edits => declaration.typeCount + edits) 0

/-- The document that a rule makes of a document. -/
def apply : Rule → Document → Document
  | .stripPragmas, document => document.removeComments Comment.isPragma
  | .normalizeImportKinds, document => document.mapImports (·.setKind .value)
  | .normalizeExportKinds, document => document.mapExports ExportDeclaration.toValues

end Rule

end Deflow
