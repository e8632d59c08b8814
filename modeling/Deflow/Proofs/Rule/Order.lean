import Deflow.Proofs.Rule.Effect
import Mathlib.Data.List.Dedup

/-!
# The order of rules

Rules do not see each other's work: any two can be exchanged, and a rule that
comes a second time finds nothing.  A list of rules therefore does what the set of
its rules does, in whatever order and however often they stand in it.
-/

namespace Deflow

open Script Spaced

namespace Rule

/-! ## Two rules -/

theorem onImport_comm (first second : Rule) (declaration : ImportDeclaration) :
    first.onImport (second.onImport declaration) =
      second.onImport (first.onImport declaration) := by
  have exchanged : (declaration.setKind .value).dropComments Comment.isPragma =
      (declaration.dropComments Comment.isPragma).setKind .value := by
    simp only [ImportDeclaration.setKind_eq, ImportDeclaration.dropComments_eq]
    congr 1
    split <;> split <;> rfl
  cases first <;> cases second <;> first | rfl | exact exchanged | exact exchanged.symm

theorem onExport_comm (first second : Rule) (declaration : ExportDeclaration) :
    first.onExport (second.onExport declaration) =
      second.onExport (first.onExport declaration) := by
  have exchanged : declaration.toValues.dropComments Comment.isPragma =
      (declaration.dropComments Comment.isPragma).toValues := by
    have sameCount :
        (declaration.dropComments Comment.isPragma).typeCount = declaration.typeCount := by
      rw [ExportDeclaration.dropComments_eq]
      rfl
    rw [ExportDeclaration.toValues_eq (declaration.dropComments _), sameCount]
    simp only [ExportDeclaration.toValues_eq, ExportDeclaration.dropComments_eq]
    congr 1
    split <;> split <;> rfl
  cases first <;> cases second <;> first | rfl | exact exchanged | exact exchanged.symm

/-- Tidying up does not look at declarations. -/
theorem map_tidy (rule : Rule) (onImport : ImportDeclaration → ImportDeclaration)
    (onExport : ExportDeclaration → ExportDeclaration) (nodes : List Node) :
    (rule.tidy nodes).map (Node.mapDeclaration onImport onExport) =
      rule.tidy (nodes.map (Node.mapDeclaration onImport onExport)) := by
  cases rule with
  | stripPragmas => exact (Node.keepsSpace_mapDeclaration _ onImport onExport).map_stripAll nodes
  | normalizeImportKinds | normalizeExportKinds => rfl

/-- Two rules may be exchanged. -/
theorem apply_comm (first second : Rule) {document : Document} (filled : Filled document.nodes) :
    first.apply (second.apply document) = second.apply (first.apply document) := by
  have both (first second : Rule) : (first.apply (second.apply document)).nodes =
      first.tidy (second.tidy (document.nodes.map (Node.mapDeclaration
        (first.onImport ∘ second.onImport) (first.onExport ∘ second.onExport)))) := by
    rw [first.nodes_apply (second.filled_apply filled), second.nodes_apply filled, second.map_tidy,
      List.map_map]
    congr 3
    funext node
    cases node <;> rfl
  have sameImport : first.onImport ∘ second.onImport = second.onImport ∘ first.onImport :=
    funext (first.onImport_comm second)
  have sameExport : first.onExport ∘ second.onExport = second.onExport ∘ first.onExport :=
    funext (first.onExport_comm second)
  have tidyComm (nodes : List Node) :
      first.tidy (second.tidy nodes) = second.tidy (first.tidy nodes) := by
    cases first <;> cases second <;> rfl
  have sameNodes := both first second
  rw [sameImport, sameExport, tidyComm, ← both second first] at sameNodes
  exact congrArg Document.mk sameNodes

end Rule

namespace Pipeline

/-! ## Lists of rules -/

theorem applyRules_swap (first second : Rule) (rules : List Rule) {document : Document}
    (filled : Filled document.nodes) :
    applyRules (first :: second :: rules) document =
      applyRules (second :: first :: rules) document := by
  simp only [applyRules]
  rw [first.apply_comm second filled, first.edits_apply second filled,
    second.edits_apply first filled]
  by_cases same : first = second
  · rw [same]
  · rw [if_neg same, if_neg (Ne.symm same), Nat.add_left_comm]

/-- Rules may be put into another order. -/
theorem applyRules_perm {rules other : List Rule} (permutation : rules.Perm other)
    {document : Document} (filled : Filled document.nodes) :
    applyRules rules document = applyRules other document := by
  induction permutation generalizing document with
  | nil => rfl
  | cons rule _ inductionHypothesis =>
      simp only [applyRules]
      rw [inductionHypothesis (rule.filled_apply filled)]
  | swap first second rules => exact applyRules_swap second first rules filled
  | trans _ _ firstHypothesis secondHypothesis =>
      exact (firstHypothesis filled).trans (secondHypothesis filled)

/-- A rule that comes again at once finds nothing. -/
theorem applyRules_repeat (rule : Rule) (rules : List Rule) {document : Document}
    (filled : Filled document.nodes) :
    applyRules (rule :: rule :: rules) document = applyRules (rule :: rules) document := by
  have none : rule.edits (rule.apply document) = 0 := by
    rw [rule.edits_apply rule filled, if_pos rfl]
  simp only [applyRules]
  rw [none, Rule.apply_eq_self none, Nat.zero_add]

/-- Rules that stand in a list more than once count once. -/
theorem applyRules_dedup (rules : List Rule) {document : Document}
    (filled : Filled document.nodes) :
    applyRules rules.dedup document = applyRules rules document := by
  induction rules generalizing document with
  | nil => rfl
  | cons rule rules inductionHypothesis =>
      by_cases member : rule ∈ rules
      · have inFront := List.perm_cons_erase member
        calc applyRules (rule :: rules).dedup document
            = applyRules rules document := by
              rw [List.dedup_cons_of_mem member, inductionHypothesis filled]
          _ = applyRules (rule :: rules.erase rule) document := applyRules_perm inFront filled
          _ = applyRules (rule :: rule :: rules.erase rule) document :=
              (applyRules_repeat rule _ filled).symm
          _ = applyRules (rule :: rules) document :=
              (applyRules_perm (inFront.cons rule) filled).symm
      · rw [List.dedup_cons_of_notMem member]
        simp only [applyRules]
        rw [inductionHypothesis (rule.filled_apply filled)]

/-- What a rule of a list finds is gone when the list has been applied. -/
theorem edits_applyRules {rules : List Rule} {rule : Rule} (member : rule ∈ rules)
    {document : Document} (filled : Filled document.nodes) :
    rule.edits (applyRules rules document).1 = 0 := by
  -- A rule that finds nothing finds nothing later either.
  have later {rules : List Rule} {document : Document} (filled : Filled document.nodes)
      (none : rule.edits document = 0) : rule.edits (applyRules rules document).1 = 0 := by
    induction rules generalizing document with
    | nil => exact none
    | cons other rules inductionHypothesis =>
        apply inductionHypothesis (other.filled_apply filled)
        rw [rule.edits_apply other filled, none, ite_self]
  induction rules generalizing document with
  | nil => cases member
  | cons other rules inductionHypothesis =>
      rcases List.mem_cons.mp member with rfl | inRest
      · apply later (rule.filled_apply filled)
        rw [rule.edits_apply rule filled, if_pos rfl]
      · exact inductionHypothesis inRest (other.filled_apply filled)

end Pipeline

/-- Two pipelines with the same rules do the same to a document that was read, in
whatever order and however often the rules stand in them.  A second time they
change nothing, and they count nothing exactly if they change nothing. -/
theorem apply_of_same_rules {source : Text} {document : Document}
    (parsed : Document.parse source = .ok document) {pipeline other : Pipeline}
    (same : ∀ rule, rule ∈ pipeline.rules ↔ rule ∈ other.rules) :
    pipeline.apply document = other.apply document ∧
      pipeline.apply (pipeline.apply document).1 = ((pipeline.apply document).1, 0) ∧
      ((pipeline.apply document).2 = 0 ↔ (pipeline.apply document).1 = document) := by
  rcases standing_of_parse parsed with ⟨tokens, scanned, standing⟩
  have filled := standing.filled (filled_of_tokenize scanned)
  have again : pipeline.apply (pipeline.apply document).1 = ((pipeline.apply document).1, 0) :=
    Pipeline.applyRules_eq_self fun rule member => Pipeline.edits_applyRules member filled
  refine ⟨?_, again, ?_⟩
  · have permutation : pipeline.rules.dedup.Perm other.rules.dedup := by
      rw [List.perm_ext_iff_of_nodup (List.nodup_dedup _) (List.nodup_dedup _)]
      simpa using same
    calc pipeline.apply document
        = Pipeline.applyRules pipeline.rules.dedup document :=
          (Pipeline.applyRules_dedup _ filled).symm
      _ = Pipeline.applyRules other.rules.dedup document :=
          Pipeline.applyRules_perm permutation filled
      _ = other.apply document := Pipeline.applyRules_dedup _ filled
  · constructor
    · intro none
      rw [Pipeline.apply, Pipeline.applyRules_eq_self (Pipeline.applyRules_eq_zero_iff.mp none)]
    · intro unchanged
      have none := congrArg Prod.snd again
      rwa [unchanged] at none

/-- The rules of the standard pipeline in another order, and one of them twice. -/
theorem apply_of_same_rules_reversed :
    ∃ (document : Document) (reversed : Pipeline),
      Document.parse "// @flow\nexport type \x7ba\x7d".toList = .ok document ∧
      reversed.rules =
        [.normalizeExportKinds, .stripPragmas, .normalizeImportKinds, .normalizeExportKinds] ∧
      (reversed.apply document).2 = 2 ∧
      reversed.apply document = Pipeline.standard.apply document ∧
      reversed.apply (reversed.apply document).1 = ((reversed.apply document).1, 0) ∧
      (reversed.apply document).1 ≠ document := by
  have parsed : Document.parse "// @flow\nexport type \x7ba\x7d".toList = .ok
      { nodes :=
          [.comment ⟨.line, "// @flow".toList⟩, .trivia ['\n'],
            .exporting
              { kind := .type
                specifiers := ⟨[{ name := ['a'] }], false⟩
                written := some "export type \x7ba\x7d".toList }] } := by
    decide +kernel
  let reversed : Pipeline :=
    { Pipeline.standard with
      rules :=
        [.normalizeExportKinds, .stripPragmas, .normalizeImportKinds, .normalizeExportKinds] }
  have same (rule : Rule) : rule ∈ reversed.rules ↔ rule ∈ Pipeline.standard.rules := by
    cases rule <;> decide
  rcases apply_of_same_rules parsed same with ⟨equal, again, unchanged⟩
  refine ⟨_, reversed, parsed, rfl, by decide +kernel, equal, again, fun kept => ?_⟩
  exact absurd (unchanged.mpr kept) (by decide +kernel)

end Deflow
