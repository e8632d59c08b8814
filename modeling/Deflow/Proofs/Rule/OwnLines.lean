import Deflow.Proofs.Document.Clearing
import Deflow.Proofs.Text.Stretches

/-!
# Pragmas on lines of their own

Where every pragma stands on lines of its own, stripping pragmas takes out just these
lines: the stretch from behind the last line break before the pragma through the next one
behind it.  Two such stretches may meet in one token of white space, of which then both
ends go.
-/

namespace Deflow

open Script Spaced

/-! ## Own lines -/

/-- Only blanks stand in front of the first line end of a text, or of its end. -/
def BlankAhead (text : Text) : Prop :=
  text.dropWhile isIndent = [] ∨ startsWithLineEnd (text.dropWhile isIndent) = true

instance : DecidablePred BlankAhead := fun _ => inferInstanceAs (Decidable (_ ∨ _))

/-- The tokens of white space at the end of tokens. -/
def lastSpaces (tokens : List Token) : List Token :=
  tokens.rtakeWhile (·.kind == .whitespace)

/-- The tokens between `before` and `after` stand on lines of their own: only tokens of white
space stand behind the last line feed before them, and only blanks in front of the next
line end. -/
def OnOwnLine (before after : List Token) : Prop :=
  lastLine (Token.spell before) <:+ Token.spell (lastSpaces before) ∧
    BlankAhead (Token.spell after)

instance (before after : List Token) : Decidable (OnOwnLine before after) :=
  inferInstanceAs (Decidable (_ ∧ _))

/-- The lines of a text between `before` and `after`. -/
def ownStretch (before own after : Text) : Stretch where
  start := before.length - (lastLine before).length
  finish := before.length + own.length + (firstLine after).length

/-- The lines of the tokens that `dropped` holds of, among tokens behind `before`. -/
def ownStretches (dropped : Token → Bool) (before : Text) : List Token → List Stretch
  | [] => []
  | token :: rest =>
    let later := ownStretches dropped (before ++ token.text) rest
    if dropped token then ownStretch before token.text (Token.spell rest) :: later else later

/-- Lines that begin behind a line feed do not reach over it. -/
theorem length_le_start_of_endsLines {dropped : Token → Bool} {before lines : Text}
    {tokens : List Token} (front : lines <+: before) (ends : endsLines lines) :
    ∀ stretch ∈ ownStretches dropped before tokens, lines.length ≤ stretch.start := by
  induction tokens generalizing before with
  | nil => simp [ownStretches]
  | cons token rest inductionHypothesis =>
      have later := inductionHypothesis (front.trans (List.prefix_append before token.text))
      simp only [ownStretches]
      split
      · refine List.forall_mem_cons.mpr ⟨?_, later⟩
        obtain ⟨behind, rfl⟩ := front
        simp only [ownStretch]
        rw [← length_dropLastLine, dropLastLine_append_of_endsLines ends, List.length_append]
        omega
      · exact later

/-- What the pass has before it: tokens behind `done` and white space `space` that is held
back, of which all that are dropped stand on lines of their own. -/
structure OwnLines (dropped : Token → Bool) (done : List Token) (space : Text)
    (tokens : List Token) : Prop where
  chain : (done ++ consWhite space tokens).IsChain Token.Adjoins
  filled : ∀ token ∈ done ++ consWhite space tokens, token.text ≠ []
  last : ∀ token ∈ done.getLast?, token.kind ≠ .whitespace
  comments : ∀ token ∈ tokens, dropped token = true → token.isComment = true
  own : ∀ before token after, tokens = before ++ token :: after → dropped token = true →
    OnOwnLine (done ++ consWhite space before) after

variable {dropped : Token → Bool} {done : List Token} {space : Text} {first : Token}
  {rest : List Token}

theorem isTrivia_of_isComment {token : Token} (comment : token.isComment = true) :
    token.isTrivia = true := by
  obtain ⟨kind, text⟩ := token
  cases kind <;> first | rfl | cases comment

@[simp]
theorem text_white (text : Text) : (Spaced.white text : Token).text = text :=
  rfl

theorem spell_consWhite (text : Text) (tokens : List Token) :
    Token.spell (consWhite text tokens) = text ++ Token.spell tokens := by
  unfold consWhite
  split
  · rename_i empty
    rw [empty, List.nil_append]
  · rfl

theorem kind_ne_of_white? {token : Token} (isWhite : white? token = none) :
    token.kind ≠ .whitespace := by
  intro isSpace
  obtain ⟨kind, text⟩ := token
  subst isSpace
  cases isWhite

theorem OwnLines.kind_ne (lines : OwnLines dropped done space (first :: rest))
    (goes : dropped first = true) : first.kind ≠ .whitespace := by
  intro isWhite
  simpa [Token.isComment, isWhite] using lines.comments first (by simp) goes

/-- Behind a token that is no white space the pass holds nothing back. -/
theorem OwnLines.next (lines : OwnLines dropped done space (first :: rest))
    (notWhite : first.kind ≠ .whitespace) :
    OwnLines dropped (done ++ consWhite space [first]) [] rest := by
  have all (tokens : List Token) : done ++ consWhite space [first] ++ consWhite [] tokens =
      done ++ consWhite space (first :: tokens) := by
    rw [consWhite_nil, List.append_assoc, ← consWhite_append, List.singleton_append]
  refine ⟨?_, ?_, ?_, fun token member => lines.comments token (List.mem_cons_of_mem _ member), ?_⟩
  · rw [all]
    exact lines.chain
  · rw [all]
    exact lines.filled
  · have isLast : (done ++ consWhite space [first]).getLast? = some first := by
      unfold consWhite
      split <;> simp
    intro token isToken
    rwa [← Option.some.inj (isLast.symm.trans isToken)]
  · intro before token after isRest isDropped
    rw [all]
    exact lines.own (first :: before) token after (by rw [isRest]; rfl) isDropped

/-- White space is held back behind a token that is none. -/
theorem OwnLines.white {text : Text} (lines : OwnLines dropped done space (white text :: rest)) :
    space = [] ∧ OwnLines dropped done text rest := by
  have nothing : space = [] := by
    by_contra nonempty
    have chain := lines.chain
    rw [consWhite, if_neg nonempty] at chain
    have next := (List.isChain_cons_cons.mp (List.isChain_append.mp chain).2.1).1
    exact next.spaces rfl rfl
  subst nothing
  have nonempty : text ≠ [] := lines.filled (Spaced.white text) (by simp)
  have all (tokens : List Token) :
      consWhite [] (Spaced.white text :: tokens) = consWhite text tokens := by
    rw [consWhite_nil, consWhite, if_neg nonempty]
  refine ⟨rfl, ?_, ?_, lines.last,
    fun token member => lines.comments token (List.mem_cons_of_mem _ member), ?_⟩
  · rw [← all]
    exact lines.chain
  · rw [← all]
    exact lines.filled
  · intro before token after isRest isDropped
    rw [← all]
    exact lines.own (Spaced.white text :: before) token after (by rw [isRest]; rfl) isDropped

/-! ## The line in front -/

/-- Tokens of white space at the end of what came before are what is held back. -/
theorem OwnLines.spell_lastSpaces {tokens : List Token}
    (lines : OwnLines dropped done space tokens) :
    Token.spell (lastSpaces (done ++ consWhite space [])) = space := by
  have none : lastSpaces done = [] := by
    rw [lastSpaces, List.rtakeWhile_eq_nil_iff]
    intro nonempty
    simpa using lines.last _ (List.getLast?_eq_some_getLast nonempty)
  unfold consWhite
  split
  · rename_i empty
    rw [List.append_nil, none, empty]
    rfl
  · rw [lastSpaces, List.rtakeWhile_concat_pos _ _ _ rfl, ← lastSpaces, none]
    simp [Token.spell_cons]

/-- A token that is dropped and comes next begins the text, or a line begins in the white
space before it. -/
theorem OwnLines.starts (lines : OwnLines dropped done space (first :: rest))
    (goes : dropped first = true) : done = [] ∨ '\n' ∈ space := by
  have inSpace := (lines.own [] first rest rfl goes).1
  rw [lines.spell_lastSpaces, Token.spell_append, spell_consWhite, Token.spell_nil,
    List.append_nil] at inSpace
  by_contra neither
  rw [not_or] at neither
  -- The line would begin right behind a token that is no white space.
  rw [lastLine_append_line neither.2] at inSpace
  have short := inSpace.length_le
  rw [List.length_append] at short
  have ends : endsLines (Token.spell done) :=
    lastLine_eq_nil_iff.mp (List.length_eq_zero_iff.mp (by omega))
  cases done using List.reverseRecOn with
  | nil => exact neither.1 rfl
  | append_singleton done last =>
      have feed : last.text.getLast? = some '\n' := by
        obtain ⟨c, isLast⟩ := Option.ne_none_iff_exists'.mp
          (List.getLast?_eq_none_iff.not.mpr (lines.filled last (by simp)))
        have isFeed := ends c (by simp [Token.spell_append, List.getLast?_append, isLast])
        rw [isLast, isFeed]
      obtain ⟨second, more, isNext, trivia⟩ :
          ∃ second more, consWhite space (first :: rest) = second :: more ∧
            second.isTrivia = true := by
        unfold consWhite
        split
        · exact ⟨first, rest, rfl, isTrivia_of_isComment (lines.comments first (by simp) goes)⟩
        · exact ⟨Spaced.white space, first :: rest, rfl, rfl⟩
      have chain := lines.chain
      rw [isNext] at chain
      have adjoins := (List.isChain_append.mp chain).2.2 last (by simp) second rfl
      exact lines.last last (by simp) (adjoins.feed trivia feed)

/-- The line of a token that is dropped and comes next begins in the white space before
it. -/
theorem OwnLines.lastLine_eq (lines : OwnLines dropped done space (first :: rest))
    (goes : dropped first = true) : lastLine (Token.spell done ++ space) = lastLine space := by
  rcases lines.starts goes with rfl | breaks
  · rfl
  · exact lastLine_append_of_mem breaks _

/-- Lines of tokens that are dropped begin behind what is done. -/
theorem OwnLines.length_le_start {tokens : List Token}
    (lines : OwnLines dropped done space tokens) :
    ∀ stretch ∈ ownStretches dropped (Token.spell done ++ space) tokens,
      (Token.spell done).length ≤ stretch.start := by
  induction tokens generalizing done space with
  | nil => simp [ownStretches]
  | cons first rest inductionHypothesis =>
      have behind (notWhite : first.kind ≠ .whitespace) :
          ∀ stretch ∈ ownStretches dropped (Token.spell done ++ space ++ first.text) rest,
            (Token.spell done).length ≤ stretch.start := by
        intro stretch member
        have later := inductionHypothesis (lines.next notWhite) stretch
        rw [Token.spell_append, spell_consWhite, Token.spell_cons, Token.spell_nil] at later
        have bound := later (by simpa using member)
        rw [List.length_append] at bound
        omega
      simp only [ownStretches]
      split
      · rename_i goes
        refine List.forall_mem_cons.mpr ⟨?_, behind (lines.kind_ne goes)⟩
        simp only [ownStretch, lines.lastLine_eq goes]
        have short := length_dropLastLine space
        have whole := congrArg List.length (dropLastLine_append_lastLine space)
        rw [List.length_append] at whole ⊢
        omega
      · cases isWhite : white? first with
        | some text =>
            obtain rfl := white?_eq_some_iff.mp isWhite
            obtain ⟨rfl, held⟩ := lines.white
            rw [List.append_nil]
            exact inductionHypothesis held
        | none =>
            exact behind (kind_ne_of_white? isWhite)

/-! ## The line behind -/

/-- Blanks and a line end. -/
def BlankLine (line : Text) : Prop :=
  ∃ blanks lineEnd, line = blanks ++ lineEnd ∧ (∀ c ∈ blanks, isIndent c = true) ∧
    (lineEnd = ['\n'] ∨ lineEnd = ['\r', '\n'])

theorem exists_blankLine {text : Text}
    (starts : startsWithLineEnd (text.dropWhile isIndent) = true) :
    ∃ line more, BlankLine line ∧ text = line ++ more := by
  have blanks : ∀ c ∈ text.takeWhile isIndent, isIndent c = true := fun c => List.mem_takeWhile_imp
  have whole := (List.takeWhile_append_dropWhile (p := isIndent) (l := text)).symm
  unfold startsWithLineEnd at starts
  split at starts
  · rename_i more isRest
    rw [isRest] at whole
    exact ⟨_, more, ⟨_, ['\r', '\n'], rfl, blanks, .inr rfl⟩, by simpa using whole⟩
  · rename_i more isRest
    rw [isRest] at whole
    exact ⟨_, more, ⟨_, ['\n'], rfl, blanks, .inl rfl⟩, by simpa using whole⟩
  · cases starts

namespace BlankLine

variable {line : Text} (blank : BlankLine line)

include blank

theorem endsLines : endsLines line := by
  obtain ⟨blanks, lineEnd, rfl, _, rfl | rfl⟩ := blank
  · simp [Deflow.endsLines]
  · simp [Deflow.endsLines]

theorem ne_nil : line ≠ [] := by
  obtain ⟨blanks, lineEnd, rfl, _, rfl | rfl⟩ := blank
  · simp
  · simp

theorem contains_append (more : Text) : (line ++ more).contains '\n' = true := by
  obtain ⟨blanks, lineEnd, rfl, _, rfl | rfl⟩ := blank
  · simp
  · simp

theorem dropWhile_append (more : Text) :
    ∃ lineEnd, (line ++ more).dropWhile isIndent = lineEnd ++ more ∧
      (lineEnd = ['\n'] ∨ lineEnd = ['\r', '\n']) := by
  obtain ⟨blanks, lineEnd, rfl, indents, isEnd⟩ := blank
  refine ⟨lineEnd, ?_, isEnd⟩
  rw [List.append_assoc, List.dropWhile_append_of_pos indents]
  rcases isEnd with rfl | rfl
  · rfl
  · rfl

theorem starts (more : Text) : startsWithLineEnd ((line ++ more).dropWhile isIndent) = true := by
  obtain ⟨lineEnd, isRest, rfl | rfl⟩ := blank.dropWhile_append more
  · rw [isRest]
    rfl
  · rw [isRest]
    rfl

theorem dropLineEnd_eq (more : Text) : dropLineEnd ((line ++ more).dropWhile isIndent) = more := by
  obtain ⟨lineEnd, isRest, rfl | rfl⟩ := blank.dropWhile_append more
  · rw [isRest]
    rfl
  · rw [isRest]
    rfl

theorem firstLine_eq (more : Text) : firstLine (line ++ more) = line := by
  obtain ⟨blanks, lineEnd, rfl, indents, isEnd⟩ := blank
  rw [List.append_assoc]
  induction blanks with
  | nil =>
      rcases isEnd with rfl | rfl
      · rfl
      · rfl
  | cons c blanks inductionHypothesis =>
      obtain ⟨indent, indents⟩ := List.forall_mem_cons.mp indents
      have notFeed : c ≠ '\n' := by
        rintro rfl
        exact absurd indent (by decide)
      rw [List.cons_append, firstLine, if_neg notFeed, inductionHypothesis indents]
      rfl

end BlankLine

/-- Text that is blank ahead begins with white space. -/
theorem BlankAhead.isTagSpace {c : Char} {text : Text} (blank : BlankAhead (c :: text)) :
    isTagSpace c = true := by
  by_cases indent : isIndent c = true
  · simp only [isIndent, Bool.or_eq_true, beq_iff_eq] at indent
    rcases indent with rfl | rfl
    · decide
    · decide
  · rw [BlankAhead, List.dropWhile_cons_of_neg indent] at blank
    rcases blank with empty | starts
    · cases empty
    · unfold startsWithLineEnd at starts
      split at starts
      · rename_i isFeed
        cases isFeed
        decide
      · rename_i isFeed
        cases isFeed
        decide
      · cases starts

/-- A line end at the front of two texts begins in the first one and may end in the second
one. -/
theorem startsWithLineEnd_append {c : Char} {first second : Text}
    (starts : startsWithLineEnd (c :: first ++ second) = true) :
    startsWithLineEnd (c :: first) = true ∨ ∃ more, second = '\n' :: more := by
  unfold startsWithLineEnd at starts
  split at starts
  · rename_i more isAll
    cases first with
    | nil =>
        cases isAll
        exact .inr ⟨more, rfl⟩
    | cons d first =>
        cases isAll
        exact .inl rfl
  · rename_i isAll
    cases isAll
    exact .inl rfl
  · cases starts

/-- Text of a token that follows white space is not blank ahead. -/
theorem not_blankAhead {text : Text} {others : List Token}
    (chain : (Spaced.white text :: others).IsChain Token.Adjoins)
    (filled : ∀ token ∈ others, token.text ≠ []) (blank : BlankAhead (Token.spell others)) :
    others = [] := by
  cases others with
  | nil => rfl
  | cons next others =>
      exfalso
      have adjoins := (List.isChain_cons_cons.mp chain).1
      obtain ⟨c, rest, isText⟩ := List.exists_cons_of_ne_nil (filled next (by simp))
      rw [Token.spell_cons, isText, List.cons_append] at blank
      have isSpace := adjoins.blank rfl (by simpa [isText] using blank.isTagSpace)
      exact adjoins.spaces rfl isSpace

/-- Behind a token that is dropped there is nothing, or blanks at the end of all, or white
space that begins with a blank line. -/
theorem OwnLines.behind (lines : OwnLines dropped done space (first :: rest))
    (goes : dropped first = true) :
    rest = [] ∨ (∃ text, rest = [Spaced.white text] ∧ text.dropWhile isIndent = []) ∨
      ∃ line more others, rest = Spaced.white (line ++ more) :: others ∧ BlankLine line := by
  have ends := (lines.own [] first rest rfl goes).2
  have inAll : first :: rest <:+ done ++ consWhite space (first :: rest) := by
    unfold consWhite
    split
    · exact List.suffix_append ..
    · exact (List.suffix_cons ..).trans (List.suffix_append ..)
  have chain := lines.chain.suffix inAll
  have filled := fun token member => lines.filled token (inAll.subset member)
  cases rest with
  | nil => exact .inl rfl
  | cons second others =>
      right
      obtain ⟨adjoins, chain⟩ := List.isChain_cons_cons.mp chain
      have isSpace : second.kind = .whitespace := by
        obtain ⟨c, rest, isText⟩ := List.exists_cons_of_ne_nil (filled second (by simp))
        rw [Token.spell_cons, isText, List.cons_append] at ends
        exact adjoins.blank (isTrivia_of_isComment (lines.comments first (by simp) goes))
          (by simpa [isText] using ends.isTagSpace)
      obtain ⟨kind, text⟩ := second
      subst isSpace
      have alone := not_blankAhead chain fun token member => filled token (by simp [member])
      rw [Token.spell_cons, BlankAhead, List.dropWhile_append] at ends
      cases isRest : text.dropWhile isIndent with
      | nil =>
          rw [isRest] at ends
          obtain rfl := alone ends
          exact .inl ⟨text, rfl, isRest⟩
      | cons c text' =>
          rw [isRest] at ends
          have starts := ends.resolve_left (by simp)
          rcases startsWithLineEnd_append starts with starts | ⟨more, isOthers⟩
          · rw [← isRest] at starts
            obtain ⟨line, more, blank, rfl⟩ := exists_blankLine starts
            exact .inr ⟨line, more, others, rfl, blank⟩
          · -- A line feed behind white space would belong to it.
            obtain rfl := alone (.inr (by rw [isOthers]; rfl))
            cases isOthers

/-- White space with a line break is held back and then stays, all of it or without its last
line. -/
theorem exists_strip_eq (dropped : Token → Bool) (atStart : Bool) {text : Text}
    (breaks : text.contains '\n' = true) (tokens : List Token) :
    ∃ part others, strip dropped atStart text tokens = Spaced.white part :: others ∧
      (part = text ∨ part = dropLastLine text) := by
  have nonempty : text ≠ [] := by
    rintro rfl
    simp at breaks
  have whole (others : List Token) : consWhite text others = Spaced.white text :: others :=
    if_neg nonempty
  cases tokens with
  | nil => exact ⟨text, [], whole [], .inl rfl⟩
  | cons first rest =>
      rw [strip]
      split
      · unfold closeUp
        split
        · exact ⟨_, _, if_neg (dropLastLine_ne_nil breaks), .inr rfl⟩
        · exact ⟨_, _, whole _, .inl rfl⟩
      · split
        · exact ⟨_, _, whole _, .inl rfl⟩
        · exact ⟨_, _, whole _, .inl rfl⟩

theorem OwnLines.white_stays {text : Text} (lines : OwnLines dropped done space (first :: rest))
    (member : Spaced.white text ∈ rest) : dropped (Spaced.white text) = false := by
  by_contra goes
  have comment := lines.comments _ (List.mem_cons_of_mem _ member) (by simpa using goes)
  cases comment

/-- Behind a token that is dropped a blank line goes. -/
theorem OwnLines.blankToLineEnd_strip (lines : OwnLines dropped done space (first :: rest))
    (goes : dropped first = true) :
    blankToLineEnd (strip dropped false [] rest) = true ∧
      Token.spell (strip dropped false [] rest) =
        firstLine (Token.spell rest) ++
          Token.spell (dropBlankLine (strip dropped false [] rest)) := by
  rcases lines.behind goes with rfl | ⟨text, rfl, blank⟩ | ⟨line, more, others, rfl, blank⟩
  · exact ⟨rfl, rfl⟩
  · have inLine : '\n' ∉ text := fun member =>
      absurd (List.dropWhile_eq_nil_iff.mp blank _ member) (by decide)
    rw [strip_cons_white (lines.white_stays (by simp)), consWhite_nil, strip]
    by_cases empty : text = []
    · subst empty
      exact ⟨rfl, rfl⟩
    · rw [consWhite, if_neg empty]
      simp [blankToLineEnd, dropBlankLine, blank, dropLineEnd, Token.spell_cons,
        firstLine_eq_self inLine]
  · obtain ⟨left, others', isStrip⟩ : ∃ left others',
        strip dropped false (line ++ more) others = Spaced.white (line ++ left) :: others' := by
      obtain ⟨part, others', isStrip, rfl | rfl⟩ :=
        exists_strip_eq dropped false (blank.contains_append more) others
      · exact ⟨more, others', isStrip⟩
      · rw [dropLastLine_append_of_endsLines blank.endsLines] at isStrip
        exact ⟨dropLastLine more, others', isStrip⟩
    rw [strip_cons_white (lines.white_stays (by simp)), consWhite_nil, Bool.false_and, isStrip]
    constructor
    · simp [blankToLineEnd, blank.starts]
    · simp only [dropBlankLine, white?_white, blank.dropLineEnd_eq, spell_consWhite,
        Token.spell_cons, text_white, List.append_assoc, blank.firstLine_eq]

/-- The lines of later tokens begin behind the blank line. -/
theorem OwnLines.firstLine_le_start (lines : OwnLines dropped done space (first :: rest))
    (goes : dropped first = true) (before : Text) :
    ∀ stretch ∈ ownStretches dropped before rest,
      before.length + (firstLine (Token.spell rest)).length ≤ stretch.start := by
  rcases lines.behind goes with rfl | ⟨text, rfl, blank⟩ | ⟨line, more, others, rfl, blank⟩
  · simp [ownStretches]
  · simp [ownStretches, lines.white_stays]
  · have stays := lines.white_stays (List.mem_cons_self ..)
    rw [ownStretches, stays, Token.spell_cons, text_white, List.append_assoc, blank.firstLine_eq,
      ← List.length_append]
    refine length_le_start_of_endsLines ?_
      (endsLines_append blank.endsLines fun empty => absurd empty blank.ne_nil)
    rw [List.prefix_append_right_inj]
    exact List.prefix_append line more

/-! ## All lines -/

theorem OwnLines.spell_next (done : List Token) (space : Text) (first : Token) :
    Token.spell (done ++ consWhite space [first]) = Token.spell done ++ space ++ first.text := by
  simp [Token.spell_append, spell_consWhite, Token.spell_cons]

/-- The line of a token that is dropped and comes next is cut out. -/
theorem OwnLines.cutOut_eq (lines : OwnLines dropped done space (first :: rest))
    (goes : dropped first = true) {more : Text}
    (isRest : Token.spell rest = firstLine (Token.spell rest) ++ more) :
    cutOut (ownStretches dropped (Token.spell done ++ space) (first :: rest))
        (Token.spell done).length (space ++ Token.spell (first :: rest)) =
      dropLastLine space ++
        cutOut (ownStretches dropped (Token.spell done ++ space ++ first.text) rest)
          ((Token.spell done ++ space ++ first.text).length + (firstLine (Token.spell rest)).length)
          more := by
  have later := lines.firstLine_le_start goes (Token.spell done ++ space ++ first.text)
  have starts : (ownStretch (Token.spell done ++ space) first.text (Token.spell rest)).start =
      (Token.spell done).length + (dropLastLine space).length := by
    have whole := congrArg List.length (dropLastLine_append_lastLine space)
    simp only [ownStretch, lines.lastLine_eq goes, List.length_append] at whole ⊢
    omega
  have isText : space ++ Token.spell (first :: rest) = dropLastLine space ++
      ((lastLine space ++ first.text ++ firstLine (Token.spell rest)) ++ more) := by
    rw [Token.spell_cons, List.append_assoc, List.append_assoc, ← isRest,
      ← List.append_assoc (dropLastLine space), dropLastLine_append_lastLine]
  have lengths := congrArg List.length (dropLastLine_append_lastLine space)
  simp only [List.length_append] at later lengths
  rw [isText, ownStretches, if_pos goes, cutOut_append, cutOut_append, cutOut_eq_self,
    cutOut_eq_nil (List.mem_cons_self ..) starts.le, List.nil_append, cutOut_cons_of_finish_le]
  · simp only [List.length_append]
    congr 2
    omega
  · simp only [ownStretch, List.length_append]
    omega
  · simp only [ownStretch, List.length_append]
    omega
  · refine List.forall_mem_cons.mpr ⟨starts.ge, fun stretch member => ?_⟩
    have bound := later stretch member
    omega

/-- Where all that is dropped stands on lines of its own, these lines are cut out. -/
theorem OwnLines.spell_strip {tokens : List Token} (lines : OwnLines dropped done space tokens) :
    Token.spell (strip dropped done.isEmpty space tokens) =
      cutOut (ownStretches dropped (Token.spell done ++ space) tokens) (Token.spell done).length
        (space ++ Token.spell tokens) := by
  induction tokens generalizing done space with
  | nil =>
      rw [strip, spell_consWhite]
      exact (cutOut_eq_self (by simp [ownStretches])).symm
  | cons first rest inductionHypothesis =>
      have next (notWhite : first.kind ≠ .whitespace) :
          Token.spell (strip dropped false [] rest) =
            cutOut (ownStretches dropped (Token.spell done ++ space ++ first.text) rest)
              (Token.spell done ++ space ++ first.text).length (Token.spell rest) := by
        have held := inductionHypothesis (lines.next notWhite)
        have someDone : (done ++ consWhite space [first]).isEmpty = false := by
          rw [List.isEmpty_eq_false_iff]
          unfold consWhite
          split <;> simp
        rwa [someDone, OwnLines.spell_next, List.append_nil, List.nil_append] at held
      by_cases goes : dropped first = true
      · have notWhite := lines.kind_ne goes
        obtain ⟨more, isRest⟩ := firstLine_isPrefix (Token.spell rest)
        obtain ⟨blank, isLine⟩ := lines.blankToLineEnd_strip goes
        have starts : (done.isEmpty || space.contains '\n') = true := by
          rcases lines.starts goes with rfl | breaks
          · rfl
          · simp [breaks]
        have left : Token.spell (dropBlankLine (strip dropped false [] rest)) =
            cutOut (ownStretches dropped (Token.spell done ++ space ++ first.text) rest)
              ((Token.spell done ++ space ++ first.text).length +
                (firstLine (Token.spell rest)).length) more := by
          have both := isLine.symm.trans (next notWhite)
          nth_rewrite 2 [← isRest] at both
          rw [cutOut_append, cutOut_eq_self (lines.firstLine_le_start goes _)] at both
          exact List.append_cancel_left both
        rw [lines.cutOut_eq goes isRest.symm, ← left, strip_cons_dropped goes, closeUp, starts,
          blank]
        exact spell_consWhite ..
      · have stays : dropped first = false := by simpa using goes
        cases isWhite : white? first with
        | some text =>
            obtain rfl := white?_eq_some_iff.mp isWhite
            obtain ⟨rfl, held⟩ := lines.white
            have ofRest := inductionHypothesis held
            simpa [strip_cons_white stays, ownStretches, stays, Token.spell_cons] using ofRest
        | none =>
            have notWhite := kind_ne_of_white? isWhite
            have later := (lines.next notWhite).length_le_start
            rw [OwnLines.spell_next, List.append_nil] at later
            rw [strip_cons_kept stays isWhite, spell_consWhite, Token.spell_cons, next notWhite,
              ownStretches, stays, Token.spell_cons, ← List.append_assoc, ← List.append_assoc,
              cutOut_append]
            simp only [Bool.false_eq_true, if_false]
            have lengths : (Token.spell done ++ space ++ first.text).length =
                (Token.spell done).length + (space ++ first.text).length := by
              rw [List.append_assoc, List.length_append]
            rw [lengths] at later ⊢
            rw [cutOut_eq_self later]

/-- What goes from a beginning that was cleared is blank. -/
theorem exists_spell_stripAll (dropped : Token → Bool) (tokens : List Token) :
    ∃ blank : Text, blank.isBlank = true ∧ (clearsHead dropped tokens = false → blank = []) ∧
      Token.spell (strip dropped true [] tokens) =
        blank ++ Token.spell (stripAll dropped tokens) := by
  rcases stripAll_cases dropped tokens with same | ⟨text, blank, clears, same⟩
  · exact ⟨[], rfl, fun _ => rfl, by rw [same, List.nil_append]⟩
  · refine ⟨text, blank, fun stays => absurd (clears.symm.trans stays) (by simp), ?_⟩
    rw [same, Token.spell_cons, text_white]

/-- Where no pragma stands inside a declaration and every other one on lines of its own,
stripping pragmas cuts these lines out of the source.  If the first of all tokens besides
white space is a pragma, blank text may also go from the beginning. -/
theorem cutOut_ownStretches_eq {source : Text} {document : Document} {tokens : List Token}
    (parsed : Document.parse source = .ok document) (scanned : tokenize source = .ok tokens)
    (outside : ∀ node ∈ document.nodes, ∀ comment ∈ node.interior, comment.isPragma = false)
    (own : ∀ before token after, tokens = before ++ token :: after → token.isPragma = true →
      OnOwnLine before after)
    (options : PrintOptions) :
    ∃ blank : Text, blank.isBlank = true ∧
      (clearsHead Token.isPragma tokens = false → blank = []) ∧
      cutOut (ownStretches Token.isPragma [] tokens) 0 source =
        blank ++ (Rule.stripPragmas.apply document).print options := by
  obtain ⟨tokens', alsoScanned, standing⟩ := standing_of_parse parsed
  obtain rfl : tokens = tokens' := Except.ok.inj (scanned.symm.trans alsoScanned)
  have scans := tokenize_eq_ok_iff.mp scanned
  have lines : OwnLines Token.isPragma [] [] tokens :=
    { chain := scans.adjoins
      filled := scans.text_ne_nil
      last := by simp
      comments := fun _ _ => isComment_of_isDropped
      own := own }
  have written : (Rule.stripPragmas.apply document).print options =
      Token.spell (stripAll Token.isPragma tokens) :=
    print_removeComments standing (filled_of_tokenize scanned) outside options
  have cut : Token.spell (strip Token.isPragma true [] tokens) =
      cutOut (ownStretches Token.isPragma [] tokens) 0 source := by
    rw [← scans.spell_eq]
    exact lines.spell_strip
  rw [written, ← cut]
  exact exists_spell_stripAll Token.isPragma tokens

theorem forall_split_cons {P : List Token → Token → List Token → Prop} {first : Token}
    {rest : List Token} :
    (∀ before token after, first :: rest = before ++ token :: after → P before token after) ↔
      P [] first rest ∧ ∀ before token after,
        rest = before ++ token :: after → P (first :: before) token after := by
  constructor
  · intro all
    exact ⟨all [] first rest rfl, fun before token after isRest =>
      all (first :: before) token after (by rw [isRest]; rfl)⟩
  · rintro ⟨here, later⟩ before token after isSplit
    cases before with
    | nil =>
        cases isSplit
        exact here
    | cons _ before =>
        cases isSplit
        exact later before token after rfl

/-- The second and the third pragma share white space, the third one ends on another line, the
last one has no line end, and a blank line goes with the first one. -/
theorem cutOut_ownStretches_eq_script :
    let source :=
      "// @flow\n\na;\n  // $FlowFixMe\n\t/* $FlowIssue\n b */ \r\nc;\n// @flow".toList
    ∃ document tokens blank,
      Document.parse source = .ok document ∧ tokenize source = .ok tokens ∧
      ownStretches Token.isPragma [] tokens = [⟨0, 9⟩, ⟨13, 29⟩, ⟨29, 52⟩, ⟨55, 63⟩] ∧
      (Rule.stripPragmas.apply document).print {} = "a;\nc;\n".toList ∧
      Text.isBlank blank = true ∧
      cutOut (ownStretches Token.isPragma [] tokens) 0 source =
        blank ++ (Rule.stripPragmas.apply document).print {} := by
  intro source
  let first : Token := ⟨.lineComment, "// @flow".toList⟩
  let second : Token := ⟨.lineComment, "// $FlowFixMe".toList⟩
  let third : Token := ⟨.blockComment, "/* $FlowIssue\n b */".toList⟩
  have scanned : tokenize source = .ok
      [first, white "\n\n".toList, ⟨.identifier, ['a']⟩, .punct ';', white "\n  ".toList, second,
        white "\n\t".toList, third, white " \r\n".toList, ⟨.identifier, ['c']⟩, .punct ';',
        white ['\n'], first] := by
    decide +kernel
  have parsed : Document.parse source = .ok
      { nodes := [.comment ⟨.line, first.text⟩, .trivia "\n\n".toList, .code "a;".toList,
          .trivia "\n  ".toList, .comment ⟨.line, second.text⟩, .trivia "\n\t".toList,
          .comment ⟨.block, third.text⟩, .trivia " \r\n".toList, .code "c;".toList,
          .trivia ['\n'], .comment ⟨.line, first.text⟩] } := by
    decide +kernel
  obtain ⟨blank, isBlank, _, cut⟩ := cutOut_ownStretches_eq parsed scanned (by decide +kernel)
    (by
      simp only [forall_split_cons, List.nil_eq, List.append_eq_nil_iff, reduceCtorEq, and_false,
        false_imp_iff, implies_true, and_true]
      decide +kernel) {}
  exact ⟨_, _, blank, parsed, scanned, by decide +kernel, by decide +kernel, isBlank, cut⟩

end Deflow
