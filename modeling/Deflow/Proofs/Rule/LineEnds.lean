import Deflow.Proofs.Document.LineEnds
import Deflow.Proofs.Rule.Effect

/-!
# Line ends and rules

Where a comment goes, white space is shortened, but never within a line end.  If
every line feed of a source text follows a carriage return, then the rules keep it
so in all texts of the document.  What is written anew, however, gets its line ends
from the texts that the rules have left as they were read, and bare line feeds if
no line end is left in these.
-/

namespace Deflow

open Script Spaced

/-! ## Shortened white space -/

theorem Text.Crlf.dropLastLine {text : Text} (crlf : text.Crlf) : (dropLastLine text).Crlf :=
  crlf.of_isPrefix (reverse_dropWhile_reverse_isPrefix ..)

theorem Text.Crlf.dropLineEnd {text : Text} (crlf : text.Crlf) : (dropLineEnd text).Crlf := by
  unfold Deflow.dropLineEnd
  split
  · rename_i rest
    exact @right ['\r', '\n'] rest crlf fun isLast => absurd isLast (by decide)
  · exact absurd rfl crlf.1
  · exact crlf

theorem Text.Crlf.dropIndent {text : Text} (crlf : text.Crlf) :
    Text.Crlf (text.dropWhile isIndent) := by
  rw [← List.takeWhile_append_dropWhile (p := isIndent) (l := text)] at crlf
  refine crlf.right fun isLast => ?_
  have isBlank := List.mem_takeWhile_imp (List.mem_of_mem_getLast? isLast)
  exact absurd isBlank (by decide)

section

variable {α : Type} [Spaced α] {holds : α → Prop}

/-- What holds of white space holds of it when it is shortened where a comment
goes. -/
structure Shortens (holds : α → Prop) : Prop where
  lastLine : ∀ text, holds (white text) → holds (white (dropLastLine text))
  blankLine : ∀ text, holds (white text) → holds (white (dropLineEnd (text.dropWhile isIndent)))

theorem forall_mem_consWhite {text : Text} {things : List α}
    (ofText : text ≠ [] → holds (white text))
    (each : ∀ thing ∈ things, holds thing) : ∀ thing ∈ consWhite text things, holds thing := by
  unfold consWhite
  split
  · exact each
  · rename_i nonempty
    exact List.forall_mem_cons.mpr ⟨ofText nonempty, each⟩

theorem Shortens.dropBlankLine (shortens : Shortens holds) {things : List α}
    (each : ∀ thing ∈ things, holds thing) : ∀ thing ∈ dropBlankLine things, holds thing := by
  cases things with
  | nil => exact each
  | cons first rest =>
      rcases List.forall_mem_cons.mp each with ⟨ofFirst, others⟩
      simp only [Deflow.dropBlankLine]
      split
      · exact each
      · rename_i text isWhite
        rw [white?_eq_some_iff.mp isWhite] at ofFirst
        exact forall_mem_consWhite (fun _ => shortens.blankLine text ofFirst) others

theorem Shortens.closeUp (shortens : Shortens holds) (atStart : Bool) {space : Text}
    (ofSpace : space ≠ [] → holds (white space)) {things : List α}
    (each : ∀ thing ∈ things, holds thing) :
    ∀ thing ∈ closeUp atStart space things, holds thing := by
  unfold Deflow.closeUp
  split
  · refine forall_mem_consWhite (fun nonempty => ?_) (shortens.dropBlankLine each)
    apply shortens.lastLine
    apply ofSpace
    rintro rfl
    exact nonempty rfl
  · refine forall_mem_consWhite (fun nonempty => ?_) each
    split at nonempty
    · rename_i breaks
      rw [if_pos breaks]
      exact ofSpace nonempty
    · exact absurd rfl nonempty

theorem Shortens.strip (shortens : Shortens holds) (dropped : α → Bool) (atStart : Bool)
    {space : Text} (ofSpace : space ≠ [] → holds (white space)) {things : List α}
    (each : ∀ thing ∈ things, holds thing) :
    ∀ thing ∈ strip dropped atStart space things, holds thing := by
  induction things generalizing atStart space with
  | nil => exact forall_mem_consWhite ofSpace each
  | cons first rest inductionHypothesis =>
      rcases List.forall_mem_cons.mp each with ⟨ofFirst, others⟩
      have noSpace : ([] : Text) ≠ [] → holds (white []) := fun nonempty => absurd rfl nonempty
      rw [Deflow.strip]
      split
      · exact shortens.closeUp atStart ofSpace (inductionHypothesis false noSpace others)
      · split
        · rename_i text isWhite
          rw [white?_eq_some_iff.mp isWhite] at ofFirst
          exact forall_mem_consWhite ofSpace (inductionHypothesis _ (fun _ => ofFirst) others)
        · exact forall_mem_consWhite ofSpace
            (List.forall_mem_cons.mpr ⟨ofFirst, inductionHypothesis false noSpace others⟩)

/-- What holds of all things holds of those that stripping leaves. -/
theorem Shortens.stripAll (shortens : Shortens holds) (dropped : α → Bool) {things : List α}
    (each : ∀ thing ∈ things, holds thing) : ∀ thing ∈ stripAll dropped things, holds thing := by
  have stripped := shortens.strip dropped true (fun nonempty => absurd rfl nonempty) each
  rcases stripAll_cases dropped things with same | ⟨text, _, _, same⟩
  · rwa [same]
  · rw [same] at stripped
    exact (List.forall_mem_cons.mp stripped).2

end

/-! ## Rules -/

theorem Node.crlf_trivia_iff {text : Text} : (Node.trivia text).Crlf ↔ text.Crlf := by
  constructor
  · exact fun crlf => crlf.written text rfl
  · intro crlf
    refine ⟨?_, by simp [Node.comments], by simp [Node.parts?]⟩
    rintro _ ⟨⟩
    exact crlf

theorem Node.shortens_crlf : Shortens Node.Crlf := by
  constructor
  · intro text crlf
    exact crlf_trivia_iff.mpr (crlf_trivia_iff.mp crlf).dropLastLine
  · intro text crlf
    exact crlf_trivia_iff.mpr (crlf_trivia_iff.mp crlf).dropIndent.dropLineEnd

/-- A change that adds no texts. -/
theorem Node.Crlf.of_change {old new : Node} (crlf : old.Crlf)
    (written : ∀ text ∈ new.written?, text ∈ old.written?) (comments : new.comments ⊆ old.comments)
    (parts : new.parts? = old.parts?) : new.Crlf := by
  refine ⟨fun text isText => crlf.written text (written text isText),
    fun comment member => crlf.comments comment (comments member), ?_⟩
  rw [parts]
  exact crlf.parts

namespace Rule

theorem crlf_onImport (rule : Rule) {declaration : ImportDeclaration}
    (crlf : (Node.importing declaration).Crlf) :
    (Node.importing (rule.onImport declaration)).Crlf := by
  cases rule with
  | stripPragmas =>
      simp only [onImport, ImportDeclaration.dropComments_eq]
      refine crlf.of_change ?_ (List.filter_subset_self _) rfl
      simp only [Node.written?]
      split <;> simp
  | normalizeImportKinds =>
      simp only [onImport, ImportDeclaration.setKind_eq]
      refine crlf.of_change ?_ (List.Subset.refl _) rfl
      simp only [Node.written?]
      split <;> simp
  | normalizeExportKinds => exact crlf

theorem crlf_onExport (rule : Rule) {declaration : ExportDeclaration}
    (crlf : (Node.exporting declaration).Crlf) :
    (Node.exporting (rule.onExport declaration)).Crlf := by
  cases rule with
  | stripPragmas =>
      simp only [onExport, ExportDeclaration.dropComments_eq]
      refine crlf.of_change ?_ (List.filter_subset_self _) rfl
      simp only [Node.written?]
      split <;> simp
  | normalizeImportKinds => exact crlf
  | normalizeExportKinds =>
      rw [onExport, ExportDeclaration.toValues_eq]
      refine crlf.of_change ?_ (List.Subset.refl _) ?_
      · simp only [Node.written?]
        split <;> simp
      · simp [Node.parts?, ExportDeclaration.parts, Specifier.names, SpecifierList.toValues,
          List.flatMap_map, Specifier.toValue]

/-- A rule cuts no line end apart. -/
theorem crlf_apply (rule : Rule) {document : Document} (filled : Filled document.nodes)
    (each : ∀ node ∈ document.nodes, node.Crlf) :
    ∀ node ∈ (rule.apply document).nodes, node.Crlf := by
  have changed : ∀ node ∈ document.nodes.map (Node.mapDeclaration rule.onImport rule.onExport),
      node.Crlf := by
    refine List.forall_mem_map.mpr fun node member => ?_
    cases node with
    | importing declaration => exact rule.crlf_onImport (each _ member)
    | exporting declaration => exact rule.crlf_onExport (each _ member)
    | _ => exact each _ member
  rw [rule.nodes_apply filled]
  cases rule with
  | stripPragmas => exact Node.shortens_crlf.stripAll _ changed
  | normalizeImportKinds | normalizeExportKinds => exact changed

end Rule

theorem Pipeline.crlf_applyRules (rules : List Rule) {document : Document}
    (filled : Filled document.nodes) (each : ∀ node ∈ document.nodes, node.Crlf) :
    ∀ node ∈ (applyRules rules document).1.nodes, node.Crlf := by
  induction rules generalizing document with
  | nil => exact each
  | cons rule rules inductionHypothesis =>
      exact inductionHypothesis (rule.filled_apply filled) (rule.crlf_apply filled each)

/-! ## What is written -/

/-- Where all texts have such line ends, so has what is written, exactly if one of the
texts that are still as they were read has a line end, or nothing needs one. -/
theorem Document.crlf_print_iff {document : Document} {options : PrintOptions}
    (notFeed : options.quote ≠ '\n') (each : ∀ node ∈ document.nodes, node.Crlf) :
    (document.print options).Crlf ↔
      (∃ node ∈ document.nodes, ∃ text ∈ node.written?, '\n' ∈ text) ∨
        ∀ node ∈ document.nodes, node.KeepsToLine options := by
  have whole {lineEnd : Text} (ofEnd : lineEnd.Crlf) :
      Text.Crlf (document.nodes.flatMap (Node.render options lineEnd)) :=
    Text.crlf_flatMap fun node member => (each node member).render notFeed ofEnd
  unfold Document.print
  rcases document.lineEnd_of_crlf fun node member => (each node member).written with
    ⟨withFeed, isEnd⟩ | ⟨noFeed, isEnd⟩
  · rw [isEnd]
    exact iff_of_true (whole (by decide)) (.inl withFeed)
  · rw [isEnd, or_iff_right noFeed]
    constructor
    · intro crlf node member
      refine (each node member).keepsToLine crlf ?_
      rcases List.append_of_mem member with ⟨before, after, isNodes⟩
      rw [isNodes, List.flatMap_append, List.flatMap_cons]
      exact ⟨_, _, List.append_assoc ..⟩
    · intro keeps
      have same : document.nodes.flatMap (Node.render options ['\n']) =
          document.nodes.flatMap (Node.render options []) :=
        List.flatMap_congr fun node member => keeps node member ['\n']
      rw [same]
      exact whole Text.crlf_nil

/-- If every line feed of a source text follows a carriage return, then so it does in
what the standard pipeline writes, exactly if one of the texts that the rules have
left as they were read has a line end, or no declaration that they have changed is
written over several lines. -/
theorem crlf_run_standard_iff {source output : Text} {edits : Nat} {document : Document}
    (crlf : source.Crlf) (parsed : Document.parse source = .ok document)
    (ran : Pipeline.standard.run source = .ok (output, edits)) :
    output.Crlf ↔
      (∃ node ∈ (Pipeline.standard.apply document).1.nodes, ∃ text ∈ node.written?, '\n' ∈ text) ∨
        ∀ node ∈ (Pipeline.standard.apply document).1.nodes,
          node.KeepsToLine Pipeline.standard.options := by
  rcases Pipeline.run_eq_ok_iff.mp ran with ⟨same, isParsed, rfl, _⟩
  rw [parsed] at isParsed
  cases isParsed
  rcases standing_of_parse parsed with ⟨tokens, scanned, standing⟩
  apply Document.crlf_print_iff (by decide)
  apply Pipeline.crlf_applyRules
  · exact standing.filled (filled_of_tokenize scanned)
  · exact crlf_of_parse parsed crlf

/-- A line end is left behind the `import` that loses its kind. -/
theorem crlf_run_standard_iff_call :
    let source : Text :=
      "// @flow\r\nimport type \x7b\r\n  a,\r\n  b\r\n\x7d from 'x';\r\nf();".toList
    ∃ output edits,
      Text.Crlf source ∧
      Pipeline.standard.run source = .ok (output, edits) ∧
      output = "import \x7b\r\n  a,\r\n  b,\r\n\x7d from 'x';\r\nf();".toList ∧ output.Crlf := by
  intro source
  have parsed : Document.parse source = .ok
      { nodes :=
          [.comment ⟨.line, "// @flow".toList⟩, .trivia ['\r', '\n'],
            .importing
              { kind := .type
                specifiers := some ⟨[{ name := ['a'] }, { name := ['b'] }], true⟩
                source := ⟨'\'', ['x']⟩
                written := some "import type \x7b\r\n  a,\r\n  b\r\n\x7d from 'x';".toList },
            .trivia ['\r', '\n'], .code "f();".toList] } := by
    decide +kernel
  have ran : Pipeline.standard.run source =
        .ok ("import \x7b\r\n  a,\r\n  b,\r\n\x7d from 'x';\r\nf();".toList, 2) := by
    decide +kernel
  refine ⟨_, _, by decide, ran, rfl, (crlf_run_standard_iff (by decide) parsed ran).mpr (.inl ?_)⟩
  exact ⟨.trivia ['\r', '\n'], by decide +kernel, _, rfl, by decide⟩

/-- All line ends stand in an `import` that is written anew. -/
theorem crlf_run_standard_bare :
    let source : Text := "import type \x7b\r\n  a,\r\n  b\r\n\x7d from 'x';".toList
    let output : Text := "import \x7b\n  a,\n  b,\n\x7d from 'x';".toList
    Text.Crlf source ∧ Pipeline.standard.run source = .ok (output, 1) ∧ ¬Text.Crlf output := by
  intro source output
  decide +kernel

end Deflow
