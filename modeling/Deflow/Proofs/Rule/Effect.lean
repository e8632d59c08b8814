import Deflow.Proofs.Rule.StripPragmas

/-!
# What the rules do to a document

A rule changes every declaration by itself, and the rule for pragmas also takes
comments out from between the nodes.  Neither part looks at what the other
changes, so that the effect of a rule can be told for each declaration on its
own: what it keeps, what it loses, and whether it is still written as before.
-/

namespace Deflow

open Script Spaced

/-! ## Stripping changed things -/

section

variable {α : Type} [Spaced α]

variable {dropped : α → Bool}

/-- A way to write things out: white space as itself, what is dropped as one thing that
is dropped, and all else as a stretch between things that are no white space, none of
which is dropped. -/
structure Unfolds (dropped : α → Bool) (unfold : α → List α) : Prop where
  space : ∀ text, unfold (white text) = [white text]
  drops : ∀ thing, dropped thing = true →
    ∃ other, unfold thing = [other] ∧ dropped other = true ∧ white? other = white? thing
  keeps : ∀ thing, dropped thing = false → ∀ other ∈ unfold thing, dropped other = false
  filled : ∀ thing, white? thing = none → Filled (unfold thing)
  starts : ∀ thing, white? thing = none → ∃ first ∈ (unfold thing).head?, white? first = none
  ends : ∀ thing, white? thing = none → ∃ last ∈ (unfold thing).getLast?, white? last = none

section

variable {unfold : α → List α} (unfolds : Unfolds dropped unfold)

include unfolds

theorem Unfolds.exists_cons {thing : α} (notWhite : white? thing = none) :
    ∃ first more, unfold thing = first :: more ∧ white? first = none := by
  rcases unfolds.starts thing notWhite with ⟨first, isFirst, alsoNotWhite⟩
  exact ⟨first, _, List.eq_cons_of_mem_head? isFirst, alsoNotWhite⟩

theorem Unfolds.flatMap_consWhite (text : Text) (things : List α) :
    (consWhite text things).flatMap unfold = consWhite text (things.flatMap unfold) := by
  unfold consWhite
  split
  · rfl
  · rw [List.flatMap_cons, unfolds.space]
    rfl

theorem Unfolds.isEmpty_flatMap (things : List α) :
    (things.flatMap unfold).isEmpty = things.isEmpty := by
  cases things with
  | nil => rfl
  | cons thing rest =>
      rw [List.flatMap_cons]
      cases isWhite : white? thing with
      | some text =>
          rw [white?_eq_some_iff.mp isWhite, unfolds.space]
          rfl
      | none =>
          rcases unfolds.exists_cons isWhite with ⟨first, more, isUnfolded, _⟩
          rw [isUnfolded]
          rfl

theorem Unfolds.blankToLineEnd_flatMap (things : List α) :
    blankToLineEnd (things.flatMap unfold) = blankToLineEnd things := by
  cases things with
  | nil => rfl
  | cons thing rest =>
      rw [List.flatMap_cons]
      cases isWhite : white? thing with
      | some text =>
          rw [white?_eq_some_iff.mp isWhite, unfolds.space]
          simp only [List.singleton_append, blankToLineEnd, white?_white, unfolds.isEmpty_flatMap]
      | none =>
          rcases unfolds.exists_cons isWhite with ⟨first, more, isUnfolded, notWhite⟩
          simp only [isUnfolded, List.cons_append, blankToLineEnd, isWhite, notWhite]

theorem Unfolds.flatMap_dropBlankLine (things : List α) :
    (dropBlankLine things).flatMap unfold = dropBlankLine (things.flatMap unfold) := by
  cases things with
  | nil => rfl
  | cons thing rest =>
      rw [List.flatMap_cons]
      cases isWhite : white? thing with
      | some text =>
          rw [white?_eq_some_iff.mp isWhite, unfolds.space]
          simp only [List.singleton_append, dropBlankLine, white?_white]
          exact unfolds.flatMap_consWhite _ rest
      | none =>
          rcases unfolds.exists_cons isWhite with ⟨first, more, isUnfolded, notWhite⟩
          simp only [isUnfolded, List.cons_append, dropBlankLine, isWhite, notWhite,
            List.flatMap_cons]

theorem Unfolds.flatMap_closeUp (atStart : Bool) (space : Text) (rest : List α) :
    (closeUp atStart space rest).flatMap unfold = closeUp atStart space (rest.flatMap unfold) := by
  unfold closeUp
  rw [unfolds.blankToLineEnd_flatMap]
  split
  · rw [unfolds.flatMap_consWhite, unfolds.flatMap_dropBlankLine]
  · rw [unfolds.flatMap_consWhite]

theorem Unfolds.flatMap_strip (atStart : Bool) (space : Text) (things : List α) :
    (strip dropped atStart space things).flatMap unfold =
      strip dropped atStart space (things.flatMap unfold) := by
  induction things generalizing atStart space with
  | nil => exact unfolds.flatMap_consWhite space []
  | cons thing rest inductionHypothesis =>
      rw [List.flatMap_cons, strip]
      split
      · rename_i isDropped
        rcases unfolds.drops thing isDropped with ⟨other, isUnfolded, alsoDropped, _⟩
        rw [isUnfolded, List.singleton_append, strip, if_pos alsoDropped, unfolds.flatMap_closeUp,
          inductionHypothesis]
      · rename_i stays
        cases isWhite : white? thing with
        | some text =>
            obtain rfl := white?_eq_some_iff.mp isWhite
            rw [unfolds.space, List.singleton_append, strip, if_neg stays, white?_white]
            simp only
            rw [unfolds.flatMap_consWhite, inductionHypothesis]
        | none =>
            simp only
            rw [strip_append (unfolds.filled thing isWhite)
              (unfolds.keeps thing (by simpa using stays)) (unfolds.ends thing isWhite),
              unfolds.flatMap_consWhite, List.flatMap_cons, inductionHypothesis]

theorem Unfolds.clearsHead_flatMap (things : List α) :
    clearsHead dropped (things.flatMap unfold) = clearsHead dropped things := by
  induction things with
  | nil => rfl
  | cons thing rest inductionHypothesis =>
      rw [List.flatMap_cons]
      cases isWhite : white? thing with
      | some text =>
          rw [white?_eq_some_iff.mp isWhite, unfolds.space]
          simpa [clearsHead] using inductionHypothesis
      | none =>
          rcases unfolds.exists_cons isWhite with ⟨first, more, isUnfolded, notWhite⟩
          have sameDropped : dropped first = dropped thing := by
            cases isDropped : dropped thing with
            | true =>
                rcases unfolds.drops thing isDropped with ⟨other, alsoUnfolded, alsoDropped, _⟩
                rw [isUnfolded] at alsoUnfolded
                rw [(List.cons.inj alsoUnfolded).1, alsoDropped]
            | false => exact unfolds.keeps thing isDropped first (by simp [isUnfolded])
          simp [clearsHead, isUnfolded, isWhite, notWhite, sameDropped]

/-- Things may be written out before or after others are stripped from between
them. -/
theorem Unfolds.flatMap_stripAll (things : List α) :
    (stripAll dropped things).flatMap unfold = stripAll dropped (things.flatMap unfold) := by
  unfold stripAll
  rw [← unfolds.flatMap_strip, unfolds.clearsHead_flatMap]
  cases strip dropped true [] things with
  | nil => rfl
  | cons thing rest =>
      rw [List.flatMap_cons]
      cases isWhite : white? thing with
      | some text =>
          rw [white?_eq_some_iff.mp isWhite, unfolds.space]
          simp only [List.singleton_append, white?_white]
          split
          · rfl
          · rw [List.flatMap_cons, unfolds.space]
            rfl
      | none =>
          rcases unfolds.exists_cons isWhite with ⟨first, more, isUnfolded, notWhite⟩
          simp [isUnfolded, isWhite, notWhite]

end

/-- A change that keeps white space, and what is dropped. -/
structure KeepsSpace (dropped : α → Bool) (change : α → α) : Prop where
  space : ∀ thing, white? (change thing) = white? thing
  drops : ∀ thing, dropped (change thing) = dropped thing

variable {change : α → α}

theorem KeepsSpace.unfolds (keeps : KeepsSpace dropped change) :
    Unfolds dropped fun thing => [change thing] := by
  constructor
  · intro text
    rw [white?_eq_some_iff.mp ((keeps.space _).trans (white?_white text))]
  · exact fun thing isDropped => ⟨_, rfl, (keeps.drops thing).trans isDropped, keeps.space thing⟩
  · intro thing stays other member
    rw [List.mem_singleton.mp member, keeps.drops, stays]
  · intro thing notWhite other member
    rw [List.mem_singleton.mp member, keeps.space, notWhite]
    simp
  · exact fun thing notWhite => ⟨_, rfl, (keeps.space thing).trans notWhite⟩
  · exact fun thing notWhite => ⟨_, rfl, (keeps.space thing).trans notWhite⟩

/-- Things may be changed before or after others are stripped from between
them. -/
theorem KeepsSpace.map_stripAll (keeps : KeepsSpace dropped change) (things : List α) :
    (stripAll dropped things).map change = stripAll dropped (things.map change) := by
  rw [List.map_eq_flatMap, List.map_eq_flatMap, keeps.unfolds.flatMap_stripAll]

/-- What is picked from things is picked from those that stay, if nothing is
picked from white space. -/
theorem flatMap_stripAll {pick : α → List β} (noWhite : ∀ text, pick (white text) = [])
    (dropped : α → Bool) (things : List α) :
    (stripAll dropped things).flatMap pick = (things.filter (!dropped ·)).flatMap pick := by
  have byFilter (things : List α) :
      things.flatMap pick = (things.filter fun thing => !(pick thing).isEmpty).flatMap pick := by
    induction things with
    | nil => rfl
    | cons first rest inductionHypothesis =>
        rw [List.flatMap_cons, inductionHypothesis, List.filter_cons]
        cases isPicked : pick first with
        | nil => rfl
        | cons value values => simp [isPicked]
  rw [byFilter, filter_stripAll (fun text => by simp [noWhite]),
    byFilter (things.filter (!dropped ·)), List.filter_filter]

/-- Stripping leaves no white space of no length. -/
theorem Filled.stripAll {things : List α} (filled : Filled things) (dropped : α → Bool) :
    Filled (stripAll dropped things) := by
  have ofStrip := filled.strip dropped true []
  rcases stripAll_cases dropped things with same | ⟨text, _, _, same⟩
  · rwa [same]
  · rw [same] at ofStrip
    exact (List.forall_mem_cons.mp ofStrip).2

end

/-! ## Rules node by node -/

/-- A node with its declaration, if it is one, changed. -/
def Node.mapDeclaration (onImport : ImportDeclaration → ImportDeclaration)
    (onExport : ExportDeclaration → ExportDeclaration) : Node → Node
  | .importing declaration => .importing (onImport declaration)
  | .exporting declaration => .exporting (onExport declaration)
  | node => node

theorem Node.keepsSpace_mapDeclaration (drop : Comment → Bool)
    (onImport : ImportDeclaration → ImportDeclaration)
    (onExport : ExportDeclaration → ExportDeclaration) :
    KeepsSpace (Node.isDropped drop) (Node.mapDeclaration onImport onExport) := by
  constructor
  · intro node
    cases node <;> rfl
  · intro node
    cases node <;> rfl

namespace Rule

/-- What a rule does to an `import`. -/
def onImport : Rule → ImportDeclaration → ImportDeclaration
  | .stripPragmas => (·.dropComments Comment.isPragma)
  | .normalizeImportKinds => (·.setKind .value)
  | .normalizeExportKinds => id

/-- What a rule does to an `export`. -/
def onExport : Rule → ExportDeclaration → ExportDeclaration
  | .stripPragmas => (·.dropComments Comment.isPragma)
  | .normalizeImportKinds => id
  | .normalizeExportKinds => ExportDeclaration.toValues

/-- What a rule does to the nodes of a document when their declarations have been
changed. -/
def tidy : Rule → List Node → List Node
  | .stripPragmas => stripAll (Node.isDropped Comment.isPragma)
  | .normalizeImportKinds => id
  | .normalizeExportKinds => id

/-- A rule changes declarations, then it tidies up between the nodes. -/
theorem nodes_apply (rule : Rule) {document : Document} (filled : Filled document.nodes) :
    (rule.apply document).nodes =
      rule.tidy (document.nodes.map (Node.mapDeclaration rule.onImport rule.onExport)) := by
  cases rule with
  | stripPragmas =>
      refine (nodes_removeComments filled).trans (congrArg _ (List.map_congr_left fun node _ => ?_))
      cases node <;> rfl
  | normalizeImportKinds | normalizeExportKinds =>
      refine List.map_congr_left fun node _ => ?_
      cases node <;> rfl

/-- Tidying up keeps what is picked from declarations. -/
theorem filterMap_tidy (rule : Rule) {pick : Node → Option β}
    (noWhite : ∀ text, pick (.trivia text) = none) (noComment : ∀ own, pick (.comment own) = none)
    (nodes : List Node) : (rule.tidy nodes).filterMap pick = nodes.filterMap pick := by
  cases rule with
  | stripPragmas =>
      rw [List.filterMap_eq_flatMap_toList, List.filterMap_eq_flatMap_toList, tidy,
        flatMap_stripAll (fun text => by simp [white, noWhite])]
      induction nodes with
      | nil => rfl
      | cons node nodes inductionHypothesis =>
          rw [List.filter_cons, List.flatMap_cons, ← inductionHypothesis]
          cases node with
          | comment own => cases isDropped : Node.isDropped Comment.isPragma (.comment own) <;>
              simp [noComment]
          | _ => rfl
  | normalizeImportKinds | normalizeExportKinds => rfl

/-- A rule changes every `import` by itself and keeps their order. -/
theorem imports_apply (rule : Rule) {document : Document} (filled : Filled document.nodes) :
    (rule.apply document).imports = document.imports.map rule.onImport := by
  rw [Document.imports, rule.nodes_apply filled, filterMap_tidy rule (fun _ => rfl) (fun _ => rfl),
    List.filterMap_map, Document.imports, List.map_filterMap]
  refine List.filterMap_congr fun node _ => ?_
  cases node <;> rfl

/-- A rule changes every `export` by itself and keeps their order. -/
theorem exports_apply (rule : Rule) {document : Document} (filled : Filled document.nodes) :
    (rule.apply document).exports = document.exports.map rule.onExport := by
  rw [Document.exports, rule.nodes_apply filled, filterMap_tidy rule (fun _ => rfl) (fun _ => rfl),
    List.filterMap_map, Document.exports, List.map_filterMap]
  refine List.filterMap_congr fun node _ => ?_
  cases node <;> rfl

end Rule

/-! ## Rules declaration by declaration -/

theorem ImportDeclaration.setKind_eq (kind : BindingKind) (declaration : ImportDeclaration) :
    declaration.setKind kind =
      { declaration with
        kind
        written := if declaration.kind = kind then declaration.written else none } := by
  unfold ImportDeclaration.setKind
  split
  · rename_i same
    rw [← same]
  · rfl

/-- A list without types is one of values. -/
theorem SpecifierList.toValues_eq_self {list : SpecifierList} (none : list.typeCount = 0) :
    list.toValues = list := by
  have eachStays : ∀ item ∈ list.items, item.toValue = item := by
    intro item member
    have isValue := List.countP_eq_zero.mp none item member
    rcases item with ⟨kind, name, renamed⟩
    have isValue : kind = .value := by simpa [BindingKind.isValue_iff] using isValue
    rw [Specifier.toValue, isValue]
  unfold SpecifierList.toValues
  rw [(List.map_congr_left eachStays).trans (List.map_id _)]

theorem ExportDeclaration.toValues_eq (declaration : ExportDeclaration) :
    declaration.toValues =
      { declaration with
        kind := .value
        specifiers := declaration.specifiers.toValues
        written := if declaration.typeCount = 0 then declaration.written else none } := by
  have sameList : (declaration.setKind .value).specifiers = declaration.specifiers := by
    unfold ExportDeclaration.setKind
    split <;> rfl
  unfold ExportDeclaration.toValues
  simp only [sameList]
  by_cases isValue : declaration.kind = .value
  · have kept : declaration.setKind .value = declaration := if_pos isValue
    rw [kept, ExportDeclaration.typeCount, BindingKind.isValue_iff.mpr isValue]
    split
    · rename_i none
      rw [SpecifierList.toValues_eq_self none, ← isValue]
      simp [none]
    · rename_i some
      simp [ExportDeclaration.mapSpecifiers, isValue, some]
  · have changed : declaration.setKind .value =
        { declaration with kind := .value, written := none } :=
      if_neg isValue
    have notValue : declaration.kind.isValue = false :=
      Bool.eq_false_iff.mpr fun holds => isValue (BindingKind.isValue_iff.mp holds)
    rw [changed, ExportDeclaration.typeCount, notValue]
    split
    · rename_i none
      rw [SpecifierList.toValues_eq_self none]
      simp
    · simp [ExportDeclaration.mapSpecifiers]

theorem ExportDeclaration.typeCount_eq_zero_iff {declaration : ExportDeclaration} :
    declaration.typeCount = 0 ↔
      declaration.kind = .value ∧ declaration.specifiers.typeCount = 0 := by
  rw [typeCount, Nat.add_eq_zero_iff, ← BindingKind.isValue_iff]
  cases declaration.kind.isValue <;> simp

theorem ExportDeclaration.typeCount_toValues (declaration : ExportDeclaration) :
    declaration.toValues.typeCount = 0 := by
  have noTypes : declaration.specifiers.toValues.typeCount = 0 := by
    refine List.countP_eq_zero.mpr (List.forall_mem_map.mpr fun item _ => ?_)
    simp [Specifier.toValue, BindingKind.isValue]
  rw [ExportDeclaration.toValues_eq, ExportDeclaration.typeCount, noTypes]
  rfl

/-! ## Comments -/

/-- Removing comments takes away just those. -/
theorem comments_removeComments (drop : Comment → Bool) {document : Document}
    (filled : Filled document.nodes) :
    (document.removeComments drop).comments = document.comments.filter (!drop ·) := by
  rw [Document.comments, nodes_removeComments filled, flatMap_stripAll (fun _ => rfl),
    Document.comments]
  induction document.nodes with
  | nil => rfl
  | cons node nodes inductionHypothesis =>
      rw [List.map_cons, List.filter_cons, List.flatMap_cons, List.filter_append,
        ← inductionHypothesis]
      cases node with
      | comment own => cases goes : drop own <;> simp [Node.dropInterior, Node.isDropped,
          Node.comments, goes]
      | importing declaration =>
          simp [Node.dropInterior, Node.isDropped, Node.comments,
            ImportDeclaration.dropComments_eq]
      | exporting declaration =>
          simp [Node.dropInterior, Node.isDropped, Node.comments,
            ExportDeclaration.dropComments_eq]
      | trivia text | code text => rfl

namespace Rule

/-- The rules for kinds leave comments alone. -/
theorem comments_apply (rule : Rule) {document : Document} (filled : Filled document.nodes) :
    (rule.apply document).comments =
      if rule = .stripPragmas then document.comments.filter (!·.isPragma)
      else document.comments := by
  have kindsOnly {rule : Rule} (plain : rule.tidy = id)
      (sameImport : ∀ declaration, (rule.onImport declaration).comments = declaration.comments)
      (sameExport : ∀ declaration, (rule.onExport declaration).comments = declaration.comments) :
      (rule.apply document).comments = document.comments := by
    rw [Document.comments, rule.nodes_apply filled, plain, id, List.flatMap_map, Document.comments]
    congr 1
    funext node
    cases node with
    | importing declaration => exact sameImport declaration
    | exporting declaration => exact sameExport declaration
    | _ => rfl
  cases rule with
  | stripPragmas => exact comments_removeComments Comment.isPragma filled
  | normalizeImportKinds =>
      refine kindsOnly rfl (fun declaration => ?_) fun _ => rfl
      simp only [onImport, ImportDeclaration.setKind_eq]
  | normalizeExportKinds =>
      refine kindsOnly rfl (fun _ => rfl) fun declaration => ?_
      simp only [onExport, ExportDeclaration.toValues_eq]

/-! ## Edits -/

/-- A rule finds nothing in what it has made itself, and as much as before in what
another rule has made. -/
theorem edits_apply (rule other : Rule) {document : Document} (filled : Filled document.nodes) :
    rule.edits (other.apply document) = if rule = other then 0 else rule.edits document := by
  cases rule with
  | stripPragmas =>
      rw [edits, Document.countComments_eq, other.comments_apply filled]
      cases other with
      | stripPragmas => simp [List.countP_eq_zero]
      | _ => exact (document.countComments_eq _).symm
  | normalizeImportKinds =>
      rw [edits, other.imports_apply filled, List.countP_map]
      cases other with
      | stripPragmas => simp [Function.comp_def, onImport, ImportDeclaration.dropComments_eq, edits]
      | normalizeImportKinds =>
          simp [Function.comp_def, onImport, ImportDeclaration.setKind_eq, BindingKind.isValue]
      | normalizeExportKinds => rfl
  | normalizeExportKinds =>
      rw [edits, other.exports_apply filled]
      cases other with
      | stripPragmas =>
          simp [onExport, ExportDeclaration.dropComments_eq, edits, ExportDeclaration.typeCount,
            List.foldr_map]
      | normalizeImportKinds => simp [onExport, edits]
      | normalizeExportKinds =>
          rw [if_pos rfl, foldr_typeCount_eq_zero_iff, List.forall_mem_map]
          exact fun declaration _ => declaration.typeCount_toValues

/-- No rule leaves white space of no length. -/
theorem filled_apply (rule : Rule) {document : Document} (filled : Filled document.nodes) :
    Filled (rule.apply document).nodes := by
  have changed (onImport : ImportDeclaration → ImportDeclaration)
      (onExport : ExportDeclaration → ExportDeclaration) :
      Filled (document.nodes.map (Node.mapDeclaration onImport onExport)) := by
    intro node member
    rcases List.mem_map.mp member with ⟨inner, isInner, rfl⟩
    rw [(Node.keepsSpace_mapDeclaration (fun _ => false) onImport onExport).space]
    exact filled inner isInner
  rw [rule.nodes_apply filled]
  cases rule with
  | stripPragmas => exact (changed _ _).stripAll _
  | normalizeImportKinds | normalizeExportKinds => exact changed _ _

end Rule

/-! ## The standard pipeline -/

/-- What the standard pipeline makes of an `import`.  The text it was written as is
still there exactly if all else has stayed as it was. -/
structure ImportDeclaration.Normalized (old new : ImportDeclaration) : Prop where
  kind : new.kind = .value
  defaultName : new.defaultName = old.defaultName
  namespaceName : new.namespaceName = old.namespaceName
  specifiers : new.specifiers = old.specifiers
  source : new.source = old.source
  attributes : new.attributes = old.attributes
  comments : new.comments = old.comments.filter (!·.isPragma)
  wasWritten : old.written.isSome = true
  written : new.written = if { new with written := old.written } = old then old.written else none

/-- What the standard pipeline makes of an `export`. -/
structure ExportDeclaration.Normalized (old new : ExportDeclaration) : Prop where
  kind : new.kind = .value
  values : ∀ item ∈ new.specifiers.items, item.kind = .value
  names : new.specifiers.items.map (fun item => (item.name, item.renamed)) =
    old.specifiers.items.map fun item => (item.name, item.renamed)
  multiline : new.specifiers.multiline = old.specifiers.multiline
  source : new.source = old.source
  attributes : new.attributes = old.attributes
  comments : new.comments = old.comments.filter (!·.isPragma)
  wasWritten : old.written.isSome = true
  written : new.written = if { new with written := old.written } = old then old.written else none

/-- No comment goes exactly if none is dropped. -/
theorem filter_not_eq_self_iff {drop : Comment → Bool} {comments : List Comment} :
    comments.filter (!drop ·) = comments ↔ ¬comments.any drop = true := by
  simp [List.filter_eq_self]

theorem ImportDeclaration.normalized {declaration : ImportDeclaration}
    (wasWritten : declaration.written.isSome = true) :
    declaration.Normalized ((declaration.dropComments Comment.isPragma).setKind .value) := by
  rw [setKind_eq, dropComments_eq]
  refine ⟨rfl, rfl, rfl, rfl, rfl, rfl, rfl, wasWritten, ?_⟩
  rcases declaration with
    ⟨kind, defaultName, namespaceName, specifiers, source, attributes, comments, written⟩
  simp only [mk.injEq, true_and, and_true, filter_not_eq_self_iff]
  rw [← ite_not _ written none, ← ite_and]
  exact if_congr (and_congr_left' eq_comm) rfl rfl

/-- A list is as it was among values exactly if it held no types. -/
theorem SpecifierList.toValues_eq_self_iff {list : SpecifierList} :
    list.toValues = list ↔ list.typeCount = 0 := by
  constructor
  · intro same
    rw [← same]
    refine List.countP_eq_zero.mpr (List.forall_mem_map.mpr fun item _ => ?_)
    simp [Specifier.toValue, BindingKind.isValue]
  · exact toValues_eq_self

theorem ExportDeclaration.normalized {declaration : ExportDeclaration}
    (wasWritten : declaration.written.isSome = true) :
    declaration.Normalized (declaration.dropComments Comment.isPragma).toValues := by
  rw [toValues_eq, dropComments_eq]
  refine ⟨rfl, ?_, ?_, rfl, rfl, rfl, rfl, wasWritten, ?_⟩
  · exact List.forall_mem_map.mpr fun _ _ => rfl
  · rw [SpecifierList.toValues, List.map_map]
    rfl
  · have noTypes : (declaration.dropComments Comment.isPragma).typeCount = 0 ↔
        .value = declaration.kind ∧ declaration.specifiers.toValues = declaration.specifiers := by
      rw [SpecifierList.toValues_eq_self_iff, dropComments_eq, typeCount_eq_zero_iff]
      exact and_congr_left' eq_comm
    rw [dropComments_eq] at noTypes
    simp only [noTypes]
    rcases declaration with ⟨kind, specifiers, source, attributes, comments, written⟩
    simp only [mk.injEq, true_and, and_true, filter_not_eq_self_iff]
    rw [← ite_not _ written none, ← ite_and]
    exact if_congr and_assoc rfl rfl

/-- A declaration that was read has the text it was written as. -/
theorem Standing.wasWritten {document : Document} {tokens : List Token}
    (standing : Standing document.nodes tokens) :
    (∀ declaration ∈ document.imports, declaration.written.isSome = true) ∧
      ∀ declaration ∈ document.exports, declaration.written.isSome = true := by
  constructor
  · intro declaration member
    rcases List.mem_filterMap.mp member with ⟨node, inNodes, isImport⟩
    rcases standing.covers_of_mem node inNodes with ⟨block, _, covers⟩
    cases covers with
    | importing solid comments written =>
        cases isImport
        simp [written]
    | _ => cases isImport
  · intro declaration member
    rcases List.mem_filterMap.mp member with ⟨node, inNodes, isExport⟩
    rcases standing.covers_of_mem node inNodes with ⟨block, _, covers⟩
    cases covers with
    | exporting solid comments written =>
        cases isExport
        simp [written]
    | _ => cases isExport

/-- How many types exports hold is how many of them are exports of types, and how
many types are among their bindings. -/
theorem foldr_typeCount_eq (declarations : List ExportDeclaration) :
    declarations.foldr (fun declaration edits => declaration.typeCount + edits) 0 =
      declarations.countP (!·.kind.isValue) +
        (declarations.flatMap (·.specifiers.items)).countP (!·.kind.isValue) := by
  induction declarations with
  | nil => rfl
  | cons declaration declarations inductionHypothesis =>
      rw [List.foldr_cons, inductionHypothesis, List.countP_cons, List.flatMap_cons,
        List.countP_append, ExportDeclaration.typeCount, SpecifierList.typeCount]
      cases declaration.kind.isValue <;> simp <;> omega

/-- The standard pipeline counts pragmas, imports of types, exports of types and
types among exports.  It leaves none of them, and of every declaration it keeps all
else, in order. -/
theorem effect_of_standard {source : Text} {document : Document}
    (parsed : Document.parse source = .ok document) :
    (Pipeline.standard.apply document).2 =
        document.comments.countP Comment.isPragma +
          document.imports.countP (!·.kind.isValue) +
          document.exports.countP (!·.kind.isValue) +
          (document.exports.flatMap (·.specifiers.items)).countP (!·.kind.isValue) ∧
      (Pipeline.standard.apply document).1.comments = document.comments.filter (!·.isPragma) ∧
      (∀ comment ∈ (Pipeline.standard.apply document).1.comments, comment.isPragma = false) ∧
      List.Forall₂ ImportDeclaration.Normalized document.imports
        (Pipeline.standard.apply document).1.imports ∧
      List.Forall₂ ExportDeclaration.Normalized document.exports
        (Pipeline.standard.apply document).1.exports := by
  rcases standing_of_parse parsed with ⟨tokens, scanned, standing⟩
  have filled := standing.filled (filled_of_tokenize scanned)
  have filledStripped := Rule.stripPragmas.filled_apply filled
  have filledImports := Rule.normalizeImportKinds.filled_apply filledStripped
  have comments : (Pipeline.standard.apply document).1.comments =
      document.comments.filter (!·.isPragma) := by
    simp only [Pipeline.apply, Pipeline.standard, Rule.all, Pipeline.applyRules]
    rw [Rule.comments_apply _ filledImports, Rule.comments_apply _ filledStripped,
      Rule.comments_apply _ filled]
    rfl
  refine ⟨?_, comments, ?_, ?_, ?_⟩
  · simp only [Pipeline.apply, Pipeline.standard, Rule.all, Pipeline.applyRules]
    rw [Rule.edits_apply _ _ filledStripped, Rule.edits_apply _ _ filled,
      Rule.edits_apply _ _ filled]
    simp only [reduceCtorEq, if_false, Rule.edits, Document.countComments_eq, foldr_typeCount_eq]
    omega
  · rw [comments]
    simp
  · simp only [Pipeline.apply, Pipeline.standard, Rule.all, Pipeline.applyRules]
    rw [Rule.imports_apply _ filledImports, Rule.imports_apply _ filledStripped,
      Rule.imports_apply _ filled, List.map_map, List.map_map, List.forall₂_map_right_iff,
      List.forall₂_same]
    exact fun declaration member =>
      ImportDeclaration.normalized (standing.wasWritten.1 declaration member)
  · simp only [Pipeline.apply, Pipeline.standard, Rule.all, Pipeline.applyRules]
    rw [Rule.exports_apply _ filledImports, Rule.exports_apply _ filledStripped,
      Rule.exports_apply _ filled, List.map_map, List.map_map, List.forall₂_map_right_iff,
      List.forall₂_same]
    exact fun declaration member =>
      ExportDeclaration.normalized (standing.wasWritten.2 declaration member)

/-- A module in which every rule has something to do, and one `import` stays. -/
theorem effect_of_standard_module :
    let exported : Text := "export typeof \x7b /* c */ type d as e, f \x7d".toList
    let source : Text :=
      "// @flow\nimport type a /* $FlowIssue */ from 'x';\n".toList ++
        "import \x7btype b\x7d from 'y'\n".toList ++ exported
    ∃ document,
      Document.parse source = .ok document ∧
      document.imports.length = 2 ∧ document.exports.length = 1 ∧
      (Pipeline.standard.apply document).2 = 5 ∧
      (Pipeline.standard.apply document).1.comments = [⟨.block, "/* c */".toList⟩] ∧
      List.Forall₂ ImportDeclaration.Normalized document.imports
        (Pipeline.standard.apply document).1.imports ∧
      List.Forall₂ ExportDeclaration.Normalized document.exports
        (Pipeline.standard.apply document).1.exports := by
  intro exported source
  have parsed : Document.parse source = .ok
      { nodes :=
          [.comment ⟨.line, "// @flow".toList⟩, .trivia ['\n'],
            .importing
              { kind := .type
                defaultName := some ['a']
                source := ⟨'\'', ['x']⟩
                comments := [⟨.block, "/* $FlowIssue */".toList⟩]
                written := some "import type a /* $FlowIssue */ from 'x';".toList },
            .trivia ['\n'],
            .importing
              { specifiers := some ⟨[{ kind := .type, name := ['b'] }], false⟩
                source := ⟨'\'', ['y']⟩
                written := some "import \x7btype b\x7d from 'y'".toList },
            .trivia ['\n'],
            .exporting
              { kind := .typeof
                specifiers :=
                  ⟨[{ kind := .type, name := ['d'], renamed := some ['e'] },
                    { name := ['f'] }], false⟩
                comments := [⟨.block, "/* c */".toList⟩]
                written := some exported }] } := by
    decide +kernel
  rcases effect_of_standard parsed with ⟨edits, comments, _, imports, exports⟩
  refine ⟨_, parsed, rfl, rfl, edits.trans ?_, comments.trans ?_, imports, exports⟩
  all_goals decide +kernel

end Deflow
