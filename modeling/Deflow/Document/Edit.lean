import Deflow.Document.Basic

/-!
# Editing documents by hand

Single changes to a document: to its `n`-th declaration, to a braced list, or to
the list of its nodes.
-/

namespace Deflow

namespace SpecifierList

/-- The list with one more binding at its end. -/
def push (list : SpecifierList) (specifier : Specifier) : SpecifierList :=
  { list with items := list.items ++ [specifier] }

/-- The list without the binding at `index`. -/
def eraseAt (list : SpecifierList) (index : Nat) : SpecifierList :=
  { list with items := list.items.eraseIdx index }

/-- The list with another kind for the binding at `index`. -/
def setKindAt (list : SpecifierList) (index : Nat) (kind : BindingKind) : SpecifierList :=
  { list with items := list.items.modify index ({ · with kind }) }

end SpecifierList

/-- Changes the `n`-th element that `change` accepts, and leaves the others. -/
def modifyNth (change : α → Option α) : Nat → List α → List α
  | _, [] => []
  | n, first :: rest =>
    match change first, n with
    | none, n => first :: modifyNth change n rest
    | some changed, 0 => changed :: rest
    | some _, n + 1 => first :: modifyNth change n rest

namespace Document

/-- Changes the `n`-th `import`. -/
def modifyImport (document : Document) (n : Nat) (change : ImportDeclaration → ImportDeclaration) :
    Document where
  nodes := modifyNth (fun node => node.import?.map fun old => .importing (change old)) n
    document.nodes

/-- Changes the `n`-th `export`. -/
def modifyExport (document : Document) (n : Nat) (change : ExportDeclaration → ExportDeclaration) :
    Document where
  nodes := modifyNth (fun node => node.export?.map fun old => .exporting (change old)) n
    document.nodes

/-- Puts a node in front of the one at `index`, or at the end if there is no
such node. -/
def insertAt (document : Document) (index : Nat) (node : Node) : Document where
  nodes := document.nodes.take index ++ node :: document.nodes.drop index

/-- Takes the node at `index` away, if there is one. -/
def eraseAt (document : Document) (index : Nat) : Document where
  nodes := document.nodes.eraseIdx index

end Document

end Deflow
