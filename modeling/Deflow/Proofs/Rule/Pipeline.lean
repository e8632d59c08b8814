import Deflow.Proofs.Document.Stripping
import Deflow.Rule.Pipeline

/-!
# Running a pipeline

What a run gives, in terms of the document that was read.  A rule that finds
nothing to edit leaves the document as it is, so that rules make no edits at all
exactly if none of them finds anything in the document they are given.
-/

namespace Deflow

open Script Spaced

/-- A run gives what is written of the document that the rules have made. -/
theorem Pipeline.run_eq_ok_iff {pipeline : Pipeline} {source output : Text} {edits : Nat} :
    pipeline.run source = .ok (output, edits) ↔
      ∃ document, Document.parse source = .ok document ∧
        (pipeline.apply document).1.print pipeline.options = output ∧
        (pipeline.apply document).2 = edits := by
  simp only [Pipeline.run, bind, Except.bind, pure, Except.pure]
  cases Document.parse source with
  | error error => simp
  | ok document => simp

/-! ## Rules that find nothing -/

/-- A node in which no comment goes is left as it is. -/
theorem dropInterior_eq_self {drop : Comment → Bool} {node : Node}
    (stay : ∀ comment ∈ node.interior, drop comment = false) : node.dropInterior drop = node := by
  cases node with
  | importing declaration =>
      have noneGoes : declaration.comments.any drop = false := by simpa [Node.interior] using stay
      simp [Node.dropInterior, ImportDeclaration.dropComments, noneGoes]
  | exporting declaration =>
      have noneGoes : declaration.comments.any drop = false := by simpa [Node.interior] using stay
      simp [Node.dropInterior, ExportDeclaration.dropComments, noneGoes]
  | _ => rfl

theorem Node.interior_subset (node : Node) : node.interior ⊆ node.comments := by
  cases node <;> simp [Node.interior, Node.comments]

theorem isDropped_eq_false {drop : Comment → Bool} {node : Node}
    (stay : ∀ comment ∈ node.comments, drop comment = false) : node.isDropped drop = false := by
  cases node with
  | comment own => exact stay own (by simp [Node.comments])
  | _ => rfl

/-- Without comments to remove a document is left as it is. -/
theorem removeComments_eq_self {drop : Comment → Bool} {document : Document}
    (stay : ∀ comment ∈ document.comments, drop comment = false) :
    document.removeComments drop = document := by
  have ofNode : ∀ node ∈ document.nodes, ∀ comment ∈ node.comments, drop comment = false :=
    fun node member comment inNode => stay comment (List.mem_flatMap.mpr ⟨node, member, inNode⟩)
  have untouched : document.nodes.map (Node.dropInterior drop) = document.nodes := by
    refine (List.map_congr_left fun node member => ?_).trans (List.map_id _)
    exact dropInterior_eq_self fun comment inside =>
      ofNode node member comment (node.interior_subset inside)
  have noPlaces : placesOf (Node.isDropped drop) document.nodes = [] := by
    refine List.filterMap_eq_nil_iff.mpr fun (node, index) member => ?_
    have inNodes : node ∈ document.nodes := (List.mem_zipIdx' member).2 ▸ List.getElem_mem _
    simp [isDropped_eq_false (ofNode node inNodes)]
  have isRemoval : document.removal drop = { nodes := document.nodes } := by
    simp [Document.removal, untouched, noPlaces]
  rw [Document.removeComments, isRemoval]
  obtain ⟨nodes⟩ := document
  cases nodes with
  | nil => rfl
  | cons node nodes => cases node <;> rfl

theorem BindingKind.isValue_iff {kind : BindingKind} : kind.isValue = true ↔ kind = .value :=
  beq_iff_eq

/-- An `export` of values is left as it is. -/
theorem ExportDeclaration.toValues_eq_self {declaration : ExportDeclaration}
    (none : declaration.typeCount = 0) : declaration.toValues = declaration := by
  obtain ⟨ofKind, ofList⟩ := Nat.add_eq_zero_iff.mp none
  have isValue : declaration.kind = .value := by
    by_contra notValue
    simp [BindingKind.isValue_iff, notValue] at ofKind
  have unchanged : declaration.setKind .value = declaration := if_pos isValue
  simp only [ExportDeclaration.toValues, unchanged, ofList, if_true]

/-- How many edits exports need is counted one by one. -/
theorem foldr_typeCount_eq_zero_iff {declarations : List ExportDeclaration} :
    declarations.foldr (fun declaration edits => declaration.typeCount + edits) 0 = 0 ↔
      ∀ declaration ∈ declarations, declaration.typeCount = 0 := by
  induction declarations with
  | nil => simp
  | cons declaration declarations inductionHypothesis =>
      rw [List.foldr_cons, Nat.add_eq_zero_iff, inductionHypothesis, List.forall_mem_cons]

/-- A rule that finds nothing to edit leaves the document as it is. -/
theorem Rule.apply_eq_self {rule : Rule} {document : Document} (none : rule.edits document = 0) :
    rule.apply document = document := by
  cases rule with
  | stripPragmas =>
      have noneGoes := (document.countComments_eq Comment.isPragma).symm.trans none
      refine removeComments_eq_self fun comment member => ?_
      simpa using List.countP_eq_zero.mp noneGoes comment member
  | normalizeImportKinds =>
      refine congrArg Document.mk
        ((List.map_congr_left fun node member => ?_).trans (List.map_id _))
      cases node with
      | importing declaration =>
          have inImports : declaration ∈ document.imports :=
            List.mem_filterMap.mpr ⟨_, member, rfl⟩
          have isValue := List.countP_eq_zero.mp none declaration inImports
          have unchanged : declaration.setKind .value = declaration :=
            if_pos (by simpa [BindingKind.isValue_iff] using isValue)
          simp [unchanged]
      | _ => rfl
  | normalizeExportKinds =>
      refine congrArg Document.mk
        ((List.map_congr_left fun node member => ?_).trans (List.map_id _))
      cases node with
      | exporting declaration =>
          have inExports : declaration ∈ document.exports :=
            List.mem_filterMap.mpr ⟨_, member, rfl⟩
          have ofDeclaration := foldr_typeCount_eq_zero_iff.mp none declaration inExports
          simp [ExportDeclaration.toValues_eq_self ofDeclaration]
      | _ => rfl

namespace Pipeline

/-- Rules that find nothing leave the document as it is. -/
theorem applyRules_eq_self {rules : List Rule} {document : Document}
    (none : ∀ rule ∈ rules, rule.edits document = 0) :
    applyRules rules document = (document, 0) := by
  induction rules with
  | nil => rfl
  | cons rule rules inductionHypothesis =>
      obtain ⟨ofRule, ofRules⟩ := List.forall_mem_cons.mp none
      rw [applyRules, Rule.apply_eq_self ofRule, inductionHypothesis ofRules, ofRule]

/-- Rules make no edits exactly if none of them finds anything in the document. -/
theorem applyRules_eq_zero_iff {rules : List Rule} {document : Document} :
    (applyRules rules document).2 = 0 ↔ ∀ rule ∈ rules, rule.edits document = 0 := by
  constructor
  · intro none
    induction rules with
    | nil => simp
    | cons rule rules inductionHypothesis =>
        obtain ⟨ofRule, ofRules⟩ := Nat.add_eq_zero_iff.mp none
        rw [Rule.apply_eq_self ofRule] at ofRules
        exact List.forall_mem_cons.mpr ⟨ofRule, inductionHypothesis ofRules⟩
  · intro none
    rw [applyRules_eq_self none]

end Pipeline

/-! ## Quiet documents -/

/-- Nothing is left to edit: no comment is a pragma, and every `import`, `export`
and exported binding is one of a value. -/
structure Document.Quiet (document : Document) : Prop where
  comments : ∀ comment ∈ document.comments, comment.isPragma = false
  imports : ∀ declaration ∈ document.imports, declaration.kind = .value
  exports : ∀ declaration ∈ document.exports, declaration.typeCount = 0

/-- The rules find nothing in quiet documents only. -/
theorem Document.quiet_iff {document : Document} :
    document.Quiet ↔ ∀ rule ∈ Rule.all, rule.edits document = 0 := by
  have ofComments : Rule.stripPragmas.edits document = 0 ↔
      ∀ comment ∈ document.comments, comment.isPragma = false := by
    simp [Rule.edits, Document.countComments_eq, List.countP_eq_zero]
  have ofImports : Rule.normalizeImportKinds.edits document = 0 ↔
      ∀ declaration ∈ document.imports, declaration.kind = .value := by
    simp [Rule.edits, List.countP_eq_zero, BindingKind.isValue_iff]
  have ofExports : Rule.normalizeExportKinds.edits document = 0 ↔
      ∀ declaration ∈ document.exports, declaration.typeCount = 0 :=
    foldr_typeCount_eq_zero_iff
  simp only [Rule.all, List.forall_mem_cons, List.not_mem_nil, ofComments, ofImports, ofExports]
  constructor
  · rintro ⟨comments, imports, exports⟩
    exact ⟨comments, imports, exports, by simp⟩
  · rintro ⟨comments, imports, exports, _⟩
    exact ⟨comments, imports, exports⟩

/-- A text is left as it is, without an edit, exactly if it reads as a quiet
document. -/
theorem run_standard_eq_self_iff {source : Text} :
    Pipeline.standard.run source = .ok (source, 0) ↔
      ∃ document, Document.parse source = .ok document ∧ document.Quiet := by
  constructor
  · intro ran
    obtain ⟨document, parsed, _, none⟩ := Pipeline.run_eq_ok_iff.mp ran
    exact ⟨document, parsed, Document.quiet_iff.mpr (Pipeline.applyRules_eq_zero_iff.mp none)⟩
  · rintro ⟨document, parsed, quiet⟩
    have unchanged := Pipeline.applyRules_eq_self (Document.quiet_iff.mp quiet)
    obtain ⟨tokens, scanned, standing⟩ := standing_of_parse parsed
    refine Pipeline.run_eq_ok_iff.mpr ⟨document, parsed, ?_, ?_⟩
    · rw [Pipeline.apply, Pipeline.standard, unchanged]
      exact standing.print_eq_source scanned _
    · rw [Pipeline.apply, Pipeline.standard, unchanged]

end Deflow
