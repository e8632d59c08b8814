import Deflow.Proofs.Document.Braces
import Deflow.Proofs.Document.Parts
import Deflow.Proofs.Document.Redrawing

/-!
# Declarations stand in script

Markup elements are read as script only between braces, and their script closes one brace
more than it opens.  A declaration stands where no bracket is open, and from there on no
brace is closed that was not opened behind it.  Therefore no declaration stands inside an
element, even where the attributes of another one have broken an element off: every
declaration is read as script that goes on to the end of the input.
-/

namespace Deflow

open Script

/-! ## Counting braces -/

/-- What a token adds to the number of open braces. -/
def Script.Token.weight (token : Token) : Int :=
  if token.isPunct '\x7b' then 1 else if token.isPunct '\x7d' then -1 else 0

theorem Script.Token.weight_of_kind {token : Token} (kind : token.kind ≠ .punctuation) :
    token.weight = 0 := by
  simp [Token.weight, Token.isPunct, kind]

/-- How many braces tokens open and do not close. -/
def level : List Token → Int
  | [] => 0
  | token :: tokens => token.weight + level tokens

theorem level_append (first second : List Token) :
    level (first ++ second) = level first + level second := by
  induction first with
  | nil => simp [level]
  | cons token first inductionHypothesis =>
      rw [List.cons_append, level, level, inductionHypothesis]
      omega

/-- No brace is closed that was not opened before, where `opened` braces are open to
begin with. -/
def NeverBelow (opened : Int) : List Token → Prop
  | [] => 0 ≤ opened
  | token :: tokens => 0 ≤ opened ∧ NeverBelow (opened + token.weight) tokens

theorem NeverBelow.nonneg {opened : Int} {tokens : List Token}
    (above : NeverBelow opened tokens) : 0 ≤ opened := by
  cases tokens with
  | nil => exact above
  | cons token tokens => exact above.1

theorem NeverBelow.level_nonneg {opened : Int} {first second : List Token}
    (above : NeverBelow opened (first ++ second)) : 0 ≤ opened + level first := by
  induction first generalizing opened with
  | nil =>
      rw [level, Int.add_zero]
      exact above.nonneg
  | cons token first inductionHypothesis =>
      rw [level, ← Int.add_assoc]
      exact inductionHypothesis above.2

theorem NeverBelow.mono {opened more : Int} {tokens : List Token}
    (above : NeverBelow opened tokens) (less : opened ≤ more) : NeverBelow more tokens := by
  induction tokens generalizing opened more with
  | nil => exact Int.le_trans above less
  | cons token tokens inductionHypothesis =>
      exact ⟨Int.le_trans above.1 less, inductionHypothesis above.2 (by omega)⟩

section

variable {opened : Int} {more : List Token}

/-- Tokens that close no brace. -/
theorem NeverBelow.append {tokens : List Token} (above : NeverBelow opened more)
    (opens : ∀ token ∈ tokens, 0 ≤ token.weight) : NeverBelow opened (tokens ++ more) := by
  induction tokens with
  | nil => exact above
  | cons token tokens inductionHypothesis =>
      rcases List.forall_mem_cons.mp opens with ⟨first, others⟩
      exact ⟨above.nonneg, (inductionHypothesis others).mono (by omega)⟩

theorem NeverBelow.cons {token : Token} (above : NeverBelow opened more)
    (weightless : token.weight = 0) : NeverBelow opened (token :: more) := by
  refine ⟨above.nonneg, ?_⟩
  rwa [weightless, Int.add_zero]

/-- White space and comments do not count. -/
theorem NeverBelow.of_meaningful {tokens : List Token}
    (above : NeverBelow opened (meaningful tokens ++ more)) :
    NeverBelow opened (tokens ++ more) := by
  induction tokens generalizing opened with
  | nil => exact above
  | cons token tokens inductionHypothesis =>
      by_cases isTrivia : token.isTrivia = true
      · have weightless : token.weight = 0 := by
          apply Token.weight_of_kind
          intro isPunctuation
          simp [Token.isTrivia, isPunctuation] at isTrivia
        rw [meaningful, List.filter_cons_of_neg (by simp [isTrivia])] at above
        exact (inductionHypothesis above).cons weightless
      · rw [meaningful, List.filter_cons_of_pos (by simpa using isTrivia)] at above
        exact ⟨above.1, inductionHypothesis above.2⟩

/-! ## The braces of declarations -/

namespace Declaration

theorem weight_of_isName {token : Token} (isName : token.isName = true) : token.weight = 0 := by
  apply Token.weight_of_kind
  intro isPunctuation
  simp [Token.isName, isPunctuation] at isName

theorem weight_of_mem_kind {kind : BindingKind} {token : Token} (member : token ∈ kind.words) :
    token.weight = 0 := by
  cases kind with
  | value => cases member
  | type | typeof =>
      rcases List.mem_singleton.mp member with rfl
      rfl

theorem BindingWords.weight {item : Specifier} {tokens : List Token}
    (binding : BindingWords item tokens) : ∀ token ∈ tokens, token.weight = 0 := by
  cases binding with
  | plain isName clear =>
      refine List.forall_mem_append.mpr ⟨fun _ => weight_of_mem_kind, ?_⟩
      simpa using weight_of_isName isName
  | renamed isName isNew clear =>
      refine List.forall_mem_append.mpr ⟨fun _ => weight_of_mem_kind, ?_⟩
      simp only [List.forall_mem_cons]
      exact ⟨weight_of_isName isName, rfl, weight_of_isName isNew, by simp⟩

/-- A list closes the brace in front of it. -/
theorem ListWords.neverBelow {items : List Specifier} {tokens : List Token}
    (list : ListWords items tokens) (above : NeverBelow opened more) :
    NeverBelow opened (.punct '\x7b' :: (tokens ++ more)) := by
  have nonneg := above.nonneg
  refine ⟨nonneg, ?_⟩
  have closed : NeverBelow (opened + 1) (.punct '\x7d' :: more) :=
    ⟨by omega, above.mono (by rw [show (Token.punct '\x7d').weight = -1 from rfl]; omega)⟩
  induction list with
  | nil => exact closed
  | last binding =>
      rw [List.append_assoc]
      exact closed.append fun token member => Int.le_of_eq (binding.weight token member).symm
  | cons binding rest inductionHypothesis =>
      rw [List.append_assoc]
      refine NeverBelow.append ?_ fun token member =>
        Int.le_of_eq (binding.weight token member).symm
      exact inductionHypothesis.cons rfl

/-- Attributes close one brace of those that they open. -/
theorem AttributeWords.neverBelow {behind tokens : List Token} {has : Bool}
    (words : AttributeWords behind has tokens) (above : NeverBelow opened more) :
    NeverBelow opened (tokens ++ more) := by
  cases words with
  | absent stops => exact above
  | @present first inside isWord inner =>
      have weightless : first.weight = 0 := by
        rcases isWord with rfl | rfl <;> rfl
      have nonneg := above.nonneg
      have closed : NeverBelow (opened + 1) (.punct '\x7d' :: more) :=
        ⟨by omega, above.mono (by rw [show (Token.punct '\x7d').weight = -1 from rfl]; omega)⟩
      have opens : ∀ token ∈ inside, 0 ≤ token.weight := by
        intro token member
        have notCloser : token.isPunct '\x7d' = false := by
          simpa using fun isCloser => inner token member (Token.isPunct_iff.mp isCloser)
        unfold Token.weight
        split <;> simp [notCloser]
      have braced : NeverBelow opened (.punct '\x7b' :: (inside ++ .punct '\x7d' :: more)) :=
        ⟨nonneg, closed.append opens⟩
      simpa using braced.cons weightless

theorem EndWords.neverBelow {behind tokens : List Token} (ends : EndWords behind tokens)
    (above : NeverBelow opened more) : NeverBelow opened (tokens ++ more) := by
  cases ends with
  | absent => exact above
  | semicolon => exact above.cons rfl

theorem SecondWords.neverBelow {namespaceName : Option Text} {items : Option (List Specifier)}
    {tokens : List Token} (second : SecondWords namespaceName items tokens)
    (above : NeverBelow opened more) : NeverBelow opened (tokens ++ more) := by
  cases second with
  | star isIdentifier =>
      exact ((above.cons (Token.weight_of_kind (by simp [isIdentifier]))).cons rfl).cons rfl
  | list list => exact list.neverBelow above

theorem ClauseWords.neverBelow {kind : BindingKind} {defaultName namespaceName : Option Text}
    {items : Option (List Specifier)} {tokens : List Token}
    (clauses : ClauseWords kind defaultName namespaceName items tokens)
    (above : NeverBelow opened more) : NeverBelow opened (tokens ++ more) := by
  have weightless {name : Token} (isIdentifier : name.kind = .identifier) : name.weight = 0 :=
    Token.weight_of_kind (by simp [isIdentifier])
  cases clauses with
  | default isIdentifier => exact above.cons (weightless isIdentifier)
  | second second => exact second.neverBelow above
  | both isIdentifier second =>
      exact ((second.neverBelow above).cons rfl).cons (weightless isIdentifier)
  | adjoined isIdentifier clear second =>
      exact (second.neverBelow above).cons (weightless isIdentifier)

/-- What stands behind the bindings of a declaration. -/
theorem neverBelow_source {source : Token} {behind attributes ending : List Token} {has : Bool}
    (isString : source.kind = .string)
    (hasAttributes : AttributeWords (ending ++ behind) has attributes)
    (ends : EndWords behind ending) (above : NeverBelow opened more) :
    NeverBelow opened (source :: (attributes ++ ending) ++ more) := by
  have weightless : source.weight = 0 := Token.weight_of_kind (by simp [isString])
  simpa using (hasAttributes.neverBelow (ends.neverBelow above)).cons weightless

theorem neverBelow_kind (kind : BindingKind) (above : NeverBelow opened more) :
    NeverBelow opened (kind.words ++ more) :=
  above.append fun _ member => Int.le_of_eq (weight_of_mem_kind member).symm

/-- A declaration closes no brace that it does not open. -/
theorem ImportWords.neverBelow {behind within tokens : List Token} {bare : BareImport}
    (words : ImportWords behind within bare tokens) (above : NeverBelow opened more) :
    NeverBelow opened (tokens ++ more) := by
  cases words with
  | bare isString hasAttributes ends => exact neverBelow_source isString hasAttributes ends above
  | bindings isClauses isString hasAttributes ends =>
      simp only [List.append_assoc, List.cons_append]
      refine neverBelow_kind _ (isClauses.neverBelow (NeverBelow.cons ?_ rfl))
      simpa using neverBelow_source isString hasAttributes ends above

theorem ExportWords.neverBelow {behind within tokens : List Token} {bare : BareExport}
    (words : ExportWords behind within bare tokens) (above : NeverBelow opened more) :
    NeverBelow opened (tokens ++ more) := by
  cases words with
  | own isList noSource noAttributes ends =>
      simp only [List.append_assoc, List.cons_append]
      exact neverBelow_kind _ (isList.neverBelow (ends.neverBelow above))
  | reexport isList isString hasAttributes ends =>
      simp only [List.append_assoc, List.cons_append]
      refine neverBelow_kind _ (isList.neverBelow (NeverBelow.cons ?_ rfl))
      simpa using neverBelow_source isString hasAttributes ends above

end Declaration

theorem Node.Declares.neverBelow {behind block : List Token} {node : Node}
    (declares : node.Declares behind block) (above : NeverBelow opened more) :
    NeverBelow opened (block ++ more) := by
  cases declares with
  | importing covers words among => exact (words.neverBelow above).of_meaningful.cons rfl
  | exporting covers words among => exact (words.neverBelow above).of_meaningful.cons rfl

end

/-! ## The braces of documents -/

/-- A sign changes the number of open braces by its weight. -/
theorem Script.Token.count_track? {openers behind : List Char} {token : Token}
    (isSign : token.kind = .punctuation → ∃ c, token = .punct c)
    (tracked : token.track? openers = some behind) :
    (behind.count '\x7b' : Int) = openers.count '\x7b' + token.weight := by
  by_cases isPunctuation : token.kind = .punctuation
  · rcases isSign isPunctuation with ⟨c, rfl⟩
    by_cases opens : isOpener c = true
    · obtain rfl : c :: openers = behind := by
        simpa [Token.track?, Token.punct, opens] using tracked
      simp only [isOpener, Bool.or_eq_true, beq_iff_eq] at opens
      rcases opens with (rfl | rfl) | rfl
      all_goals simp [Token.weight, Token.isPunct, Token.punct]
    · cases closes : openerOf? c with
      | none =>
          obtain rfl : openers = behind := by
            simpa [Token.track?, Token.punct, opens, closes] using tracked
          have noBrace : c ≠ '\x7b' ∧ c ≠ '\x7d' := by
            constructor
            · rintro rfl
              exact opens rfl
            · rintro rfl
              cases closes
          simp [Token.weight, Token.isPunct, Token.punct, noBrace]
      | some opener =>
          obtain rfl := Token.track?_closer closes tracked
          unfold openerOf? at closes
          split at closes
          · cases closes
            have isWeight : (Token.punct '\x7d').weight = -1 := rfl
            rw [isWeight, List.count_cons_self]
            omega
          all_goals cases closes
          all_goals simp [Token.weight, Token.isPunct, Token.punct]
  · rw [Token.track?_of_kind isPunctuation] at tracked
    cases tracked
    rw [Token.weight_of_kind isPunctuation]
    omega

/-- Tokens with the brackets among them. -/
theorem neverBelow_of_trackAll? {openers behind : List Char} {block more : List Token}
    (signs : ∀ token ∈ block, token.kind = .punctuation → ∃ c, token = .punct c)
    (tracked : trackAll? openers block = some behind)
    (above : NeverBelow (behind.count '\x7b') more) :
    NeverBelow (openers.count '\x7b') (block ++ more) := by
  induction block generalizing openers with
  | nil =>
      cases tracked
      exact above
  | cons token block inductionHypothesis =>
      rcases List.forall_mem_cons.mp signs with ⟨isSign, others⟩
      rw [trackAll?_cons, Option.bind_eq_some_iff] at tracked
      rcases tracked with ⟨found, isFound, tracked⟩
      refine ⟨by omega, ?_⟩
      rw [← Token.count_track? isSign isFound]
      exact inductionHypothesis others tracked

/-- No brace is closed that was not opened before. -/
theorem Outlined.neverBelow {openers : List Char} {nodes : List Node} {tokens : List Token}
    (outlined : Outlined openers nodes tokens)
    (signs : ∀ token ∈ tokens, token.kind = .punctuation → ∃ c, token = .punct c) :
    NeverBelow (openers.count '\x7b') tokens := by
  induction outlined with
  | nil => exact Int.natCast_nonneg _
  | trivia isTrivia covers more inductionHypothesis =>
      refine (inductionHypothesis (List.forall_mem_cons.mp signs).2).cons (Token.weight_of_kind ?_)
      intro isPunctuation
      simp [Token.isTrivia, isPunctuation] at isTrivia
  | code tracked more inductionHypothesis =>
      rcases List.forall_mem_append.mp signs with ⟨ofBlock, others⟩
      exact neverBelow_of_trackAll? ofBlock tracked (inductionHypothesis others)
  | declaration declares more inductionHypothesis =>
      exact declares.neverBelow (inductionHypothesis (List.forall_mem_append.mp signs).2)

/-! ## The braces of markup -/

/-- Script between braces closes one brace more than it opens, and markup as many as it
opens. -/
def Balances (tokens : List Token) : Mode → Prop
  | .script .closingBrace context => level tokens = -(context.depth + 1)
  | .tag _ | .children _ | .element => level tokens = 0
  | _ => True

theorem level_eq_count (tokens : List Token) :
    level tokens = (bracesOf tokens).count '\x7b' - (bracesOf tokens).count '\x7d' := by
  induction tokens with
  | nil => rfl
  | cons token tokens inductionHypothesis =>
      have isWeight : token.weight =
          (token.brace?.toList.count '\x7b' : Int) - token.brace?.toList.count '\x7d' := by
        unfold Token.weight Token.brace?
        split
        · rfl
        · split <;> rfl
      rw [level, inductionHypothesis, isWeight, bracesOf_cons, List.count_append,
        List.count_append]
      omega

theorem Balanced.count_eq {brackets : List Char} (balanced : Balanced brackets) :
    brackets.count '\x7b' = brackets.count '\x7d' := by
  induction balanced with
  | nil => rfl
  | wrap pair within inductionHypothesis =>
      simp only [bracketPairs, List.mem_cons, Prod.mk.injEq, List.not_mem_nil, or_false] at pair
      rcases pair with ⟨rfl, rfl⟩ | ⟨rfl, rfl⟩ | ⟨rfl, rfl⟩
      all_goals simpa [List.count_cons] using inductionHypothesis
  | append ofFirst ofSecond first second => rw [List.count_append, List.count_append, first, second]

/-- Tokens close the braces with which theirs are balanced. -/
theorem level_of_balanced {depth : Nat} {tokens : List Token}
    (balanced : Balanced (List.replicate depth '\x7b' ++ bracesOf tokens)) :
    level tokens = -depth := by
  have noCloser : (List.replicate depth '\x7b').count '\x7d' = 0 := by
    simp [List.count_replicate]
  have same := balanced.count_eq
  rw [List.count_append, List.count_append, List.count_replicate_self, noCloser] at same
  rw [level_eq_count]
  omega

theorem Script.Reads.balances {mode : Mode} {text rest : Text} {tokens : List Token}
    (reads : Reads mode text tokens rest) : Balances tokens mode := by
  have closes := reads.closesBraces
  cases mode with
  | template => trivial
  | tag | children | element =>
      have balanced : Balanced (List.replicate 0 '\x7b' ++ bracesOf tokens) :=
        Braced.balanced closes
      exact level_of_balanced balanced
  | script stop context =>
      cases stop with
      | endOfInput => trivial
      | closingBrace =>
          rcases closes with ⟨inner, rfl, balanced⟩
          have last : level [.punct '\x7d'] = -1 := rfl
          simp only [Balances, level_append, level_of_balanced balanced, last]
          omega

/-! ## The place of declarations -/

/-- What stands behind tokens of markup, or behind script between braces, is the only place
where `target` can begin. -/
def BeginsBehind (target tokens : List Token) : Mode → Prop
  | .script .closingBrace _ | .tag _ | .children _ | .element =>
    ∀ more, target <:+ tokens ++ more → target <:+ more
  | _ => True

/-- The tokens of a declaration and all behind it: they begin with a word, and no brace is
closed that was not opened among them. -/
structure BeginsDeclaration (target : List Token) : Prop where
  isWord : ∃ word more, target = ⟨.identifier, word⟩ :: more
  above : NeverBelow 0 target

theorem BeginsDeclaration.suffix_of_cons {target tokens : List Token} {token : Token}
    (begins : BeginsDeclaration target) (notWord : token.kind ≠ .identifier)
    (isSuffix : target <:+ token :: tokens) : target <:+ tokens := by
  rcases begins.isWord with ⟨word, more, rfl⟩
  rcases List.suffix_cons_iff.mp isSuffix with same | inside
  · rw [← (List.cons.inj same).1] at notWord
    exact absurd rfl notWord
  · exact inside

/-- No declaration begins inside a markup element. -/
theorem Script.Reads.beginsBehind {mode : Mode} {text rest : Text} {tokens target : List Token}
    (reads : Reads mode text tokens rest) (begins : BeginsDeclaration target) :
    BeginsBehind target tokens mode := by
  have skip {token : Token} {tokens : List Token} (notWord : token.kind ≠ .identifier)
      (isSuffix : target <:+ token :: tokens) : target <:+ tokens :=
    begins.suffix_of_cons notWord isSuffix
  induction reads with
  | scriptEnd | templateEnd | templateEscape | templateScript | templateChar => trivial
  | scriptClose level => exact fun more => skip (by simp [Token.punct])
  | @scriptTemplate stop context text body behind rest tokens template more _ inductionHypothesis =>
      cases stop with
      | endOfInput => trivial
      | closingBrace =>
          exact fun more isSuffix => inductionHypothesis more (skip (by simp) isSuffix)
  | @scriptRegex stop context body behind rest tokens expected slash length more
      inductionHypothesis =>
      cases stop with
      | endOfInput => trivial
      | closingBrace =>
          exact fun more isSuffix => inductionHypothesis more (skip (by simp) isSuffix)
  | @scriptMarkup stop context text behind rest element tokens expected opens markup more ofElement
      ofMore =>
      cases stop with
      | endOfInput => trivial
      | closingBrace =>
          intro more isSuffix
          have inside := skip (by simp [Token.punct]) isSuffix
          rw [List.append_eq, List.append_assoc] at inside
          exact ofMore more (ofElement _ inside)
  | @scriptToken stop context source text rest token tokens spelled plain alone behind
      inductionHypothesis =>
      cases stop with
      | endOfInput => trivial
      | closingBrace =>
          intro more isSuffix
          rcases List.suffix_cons_iff.mp isSuffix with isWhole | inside
          · -- The script would close a brace that was open in front of the declaration.
            have closed : level (token :: tokens) = -(context.depth + 1) :=
              (Reads.scriptToken spelled plain alone behind).balances
            subst isWhole
            have above : NeverBelow 0 (token :: tokens ++ more) := begins.above
            have nonneg := above.level_nonneg
            omega
          · exact inductionHypothesis more inside
  | tagClose => exact fun more => skip (by simp [Token.punct])
  | tagPart spelled found kind notClose notBrace behind inductionHypothesis =>
      intro more isSuffix
      subst spelled
      have shape := (tagPart?_append_eq_some_iff.mp found).1
      exact inductionHypothesis more (skip (shape.track? kind notBrace []).2 isSuffix)
  | tagScript inner behind ofScript ofMore | childrenScript inner behind ofScript ofMore =>
      intro more isSuffix
      have inside := skip (by simp [Token.punct]) isSuffix
      rw [List.append_eq, List.append_assoc] at inside
      exact ofMore more (ofScript _ inside)
  | childrenText nonempty inside ends behind inductionHypothesis =>
      exact fun more isSuffix => inductionHypothesis more (skip (by simp) isSuffix)
  | childrenElement markup behind ofElement ofMore =>
      intro more isSuffix
      have inside := skip (by simp [Token.punct]) isSuffix
      rw [List.append_eq, List.append_assoc] at inside
      exact ofMore more (ofElement _ inside)
  | childrenClose tag closing ofTag =>
      exact fun more isSuffix => ofTag more (skip (by simp [Token.punct]) isSuffix)
  | elementEmpty tag opening empty ofTag => exact ofTag
  | elementWhole tag opening whole children ofTag ofChildren =>
      intro more isSuffix
      rw [List.append_assoc] at isSuffix
      exact ofChildren more (ofTag _ isSuffix)

/-- A declaration is read as script that goes on to the end of the input. -/
theorem Script.Reads.exists_reads {context : Context} {text : Text} {tokens target : List Token}
    (reads : Reads (.script .endOfInput context) text tokens [])
    (begins : BeginsDeclaration target) (isSuffix : target <:+ tokens) :
    ∃ context, Reads (.script .endOfInput context) (Token.spell target) target [] := by
  generalize isScript : Mode.script .endOfInput context = mode at reads
  generalize isRest : ([] : Text) = rest at reads
  induction reads generalizing context with
  | scriptEnd =>
      rcases begins.isWord with ⟨word, more, rfl⟩
      simp at isSuffix
  | scriptTemplate template more _ inductionHypothesis =>
      cases isScript
      exact inductionHypothesis (begins.suffix_of_cons (by simp) isSuffix) rfl isRest
  | scriptRegex expected slash length more inductionHypothesis =>
      cases isScript
      exact inductionHypothesis (begins.suffix_of_cons (by simp) isSuffix) rfl isRest
  | scriptMarkup expected opens markup more _ inductionHypothesis =>
      cases isScript
      have inside := begins.suffix_of_cons (by simp [Token.punct]) isSuffix
      exact inductionHypothesis (markup.beginsBehind begins _ inside) rfl isRest
  | scriptToken spelled plain alone more inductionHypothesis =>
      cases isScript
      subst isRest
      rcases List.suffix_cons_iff.mp isSuffix with rfl | inside
      · have here := Reads.scriptToken spelled plain alone more
        have isText := here.spelled
        rw [List.append_nil] at isText
        rw [isText] at here
        exact ⟨_, here⟩
      · exact inductionHypothesis inside rfl rfl
  | _ => cases isScript

/-- Where a declaration of a document stands: it is read as script, in front of what stands
behind it. -/
structure Stands (node : Node) (block behind : List Token) : Prop where
  declares : node.Declares (meaningful behind) block
  reads : ∃ context, Reads (.script .endOfInput context) (Token.spell (block ++ behind))
    (block ++ behind) []

/-- Every declaration of a document is read as script. -/
theorem exists_stands {source : Text} {document : Document} {node : Node}
    (parsed : Document.parse source = .ok document) (member : node ∈ document.nodes)
    (isDeclaration : node.parts?.isSome = true) : ∃ block behind, Stands node block behind := by
  rcases standing_of_parse parsed with ⟨tokens, scanned, _⟩
  rcases (outlined_of_parse parsed scanned).declares_of_mem member isDeclaration with
    ⟨block, behind, rest, isSuffix, declares, outlined⟩
  have isWord : ∃ word more, block ++ behind = ⟨.identifier, word⟩ :: more := by
    cases declares with
    | importing | exporting => exact ⟨_, _, rfl⟩
  refine ⟨block, behind, declares, ?_⟩
  -- An interpreter line is no word, so that the declaration stands behind it.
  have inScript {context : Context} {text : Text} {tokens : List Token}
      (reads : Reads (.script .endOfInput context) text tokens [])
      (isSuffix : block ++ behind <:+ tokens) :
      ∃ context, Reads (.script .endOfInput context) (Token.spell (block ++ behind))
        (block ++ behind) [] := by
    refine reads.exists_reads ⟨isWord, declares.neverBelow (outlined.neverBelow ?_)⟩ isSuffix
    intro token isToken
    have member := isSuffix.subset (List.mem_append_right _ isToken)
    exact (reads.shaped (by simp) token member).exists_punct
  cases tokenize_eq_ok_iff.mp scanned with
  | script noLine reads => exact inScript reads isSuffix
  | hashbang oneLine ends reads =>
      rcases List.suffix_cons_iff.mp isSuffix with same | inside
      · rcases isWord with ⟨word, more, isTarget⟩
        rw [isTarget] at same
        cases same
      · exact inScript reads inside

end Deflow
