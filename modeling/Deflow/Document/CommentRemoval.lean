import Deflow.Document.Basic
import Deflow.Text.Blank

/-!
# Removing comments

A comment that stands alone on its line goes together with its line. Any other
comment takes the blanks in front of it along, but no line break. Comments
inside declarations simply go.

If the first thing in a document besides white space is removed, blank text that
is left at the very beginning goes as well.
-/

namespace Deflow

/-! ## White space around a comment -/

/-- Whether a character indents a line. -/
def isIndent (c : Char) : Bool :=
  c == ' ' || c == '\t'

/-- A text without the line that it begins but does not end. -/
def dropLastLine (text : Text) : Text :=
  (text.reverse.dropWhile (· != '\n')).reverse

/-- A text without a line end at its front. -/
def dropLineEnd : Text → Text
  | '\r' :: '\n' :: text => text
  | '\n' :: text => text
  | text => text

/-- Whether a line end stands at the front of a text. -/
def startsWithLineEnd : Text → Bool
  | '\r' :: '\n' :: _ => true
  | '\n' :: _ => true
  | _ => false

/-- Whether only white space stands between a node and the start of its line,
given the nodes before it. -/
def startsLine (before : List Node) : Bool :=
  match before.getLast? with
  | none => true
  | some (.trivia text) => text.contains '\n' || before.length == 1
  | some _ => false

/-- Whether only blanks stand between a node and the end of its line, given the
nodes after it. -/
def endsLine : List Node → Bool
  | [] => true
  | .trivia text :: rest =>
    let text := text.dropWhile isIndent
    startsWithLineEnd text || (text.isEmpty && rest.isEmpty)
  | _ :: _ => false

/-- Changes the white space at the end of nodes. -/
def mapLastTrivia (change : Text → Text) (nodes : List Node) : List Node :=
  match nodes.getLast? with
  | some (.trivia text) => nodes.dropLast ++ [.trivia (change text)]
  | _ => nodes

/-- Changes the white space at the front of nodes. -/
def mapFirstTrivia (change : Text → Text) : List Node → List Node
  | .trivia text :: rest => .trivia (change text) :: rest
  | nodes => nodes

/-! ## One comment -/

/-- The nodes around a removed comment. -/
def closeGap (before after : List Node) : List Node :=
  if startsLine before && endsLine after then
    mapLastTrivia dropLastLine before ++
      mapFirstTrivia (fun text => dropLineEnd (text.dropWhile isIndent)) after
  else
    mapLastTrivia (fun text => if text.contains '\n' then text else []) before ++ after

/-- The nodes without the one at `index` and without white space of no
length. -/
def removeNodeAt (nodes : List Node) (index : Nat) : List Node :=
  (closeGap (nodes.take index) (nodes.drop (index + 1))).filter (!·.isEmptyTrivia)

/-! ## All comments -/

/-- A node without the comments inside it that `drop` holds of. -/
def Node.dropInterior (drop : Comment → Bool) : Node → Node
  | .importing declaration => .importing (declaration.dropComments drop)
  | .exporting declaration => .exporting (declaration.dropComments drop)
  | node => node

/-- How many comments a node loses from inside it. -/
def Node.countInterior (drop : Comment → Bool) : Node → Nat
  | .importing declaration =>
    declaration.comments.length - (declaration.dropComments drop).comments.length
  | .exporting declaration =>
    declaration.comments.length - (declaration.dropComments drop).comments.length
  | _ => 0

/-- Whether a node is a comment that `drop` holds of. -/
def Node.isDropped (drop : Comment → Bool) : Node → Bool
  | .comment own => drop own
  | _ => false

/-- The places of the nodes that pass a test. -/
def placesOf (test : Node → Bool) (nodes : List Node) : List Nat :=
  nodes.zipIdx.filterMap fun (node, index) => if test node then some index else none

/-- Nodes from which comments are being removed, the last comment first. -/
structure Removal where
  nodes : List Node
  /-- Whether a comment was removed that only white space preceded. -/
  clearedHead : Bool := false
  /-- Whether a node stood at every place so far. White space of no length goes
  with the first comment, and in front of other comments it moves them. -/
  inRange : Bool := true

/-- Removes the comment at `index`. -/
def Removal.step (removal : Removal) (index : Nat) : Removal where
  nodes := removeNodeAt removal.nodes index
  clearedHead := removal.clearedHead || (removal.nodes.take index).all Node.isTrivia
  inRange := removal.inRange && decide (index < removal.nodes.length)

/-- The nodes that are left, without blank text at a cleared beginning. -/
def Removal.finish (removal : Removal) : List Node :=
  match removal.nodes with
  | .trivia text :: rest => if removal.clearedHead && text.isBlank then rest else removal.nodes
  | nodes => nodes

namespace Document

/-- The removal of the comments that `drop` holds of, from the last to the first.
Their places are those they have before any of them goes. -/
def removal (drop : Comment → Bool) (document : Document) : Removal :=
  let nodes := document.nodes.map (Node.dropInterior drop)
  (placesOf (Node.isDropped drop) nodes).foldr (fun index removal => Removal.step removal index)
    { nodes }

/-- The document without the comments that `drop` holds of. -/
def removeComments (drop : Comment → Bool) (document : Document) : Document where
  nodes := (document.removal drop).finish

/-- Whether a removal finds a node at every place it goes to. It does unless the
document holds white space of no length. -/
def removesInRange (drop : Comment → Bool) (document : Document) : Bool :=
  (document.removal drop).inRange

/-- How many comments a removal takes away: those inside declarations, and one at
every place it goes to. -/
def countComments (drop : Comment → Bool) (document : Document) : Nat :=
  let nodes := document.nodes.map (Node.dropInterior drop)
  document.nodes.foldr (fun node count => node.countInterior drop + count) 0 +
    (placesOf (Node.isDropped drop) nodes).length

end Document

end Deflow
