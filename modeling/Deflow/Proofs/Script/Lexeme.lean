import Deflow.Proofs.Script.Measure

/-!
# The shape of lexemes

A lexeme is what `plainToken` reads: white space, a comment, an identifier, a
string, a number or a single punctuation character.  Its shape does not depend
on the text behind it; whether it ends where it does depends on the next
character only.  The main statement of this file says that reading a token off
the front of a text means just these two things.
-/

namespace Deflow.Script

/-- Whether a text begins like a number: with a digit, or a dot and a digit. -/
def startsNumber : Text → Bool
  | [] => false
  | c :: text => c.isDigit || (c == '.' && text.head?.any Char.isDigit)

/-- The shape of a token that can be read without looking at its context. -/
inductive IsLexeme : Token → Prop
  | whitespace {text : Text} (nonempty : text ≠ []) (blank : ∀ c ∈ text, isSpace c = true) :
      IsLexeme ⟨.whitespace, text⟩
  | lineComment {body : Text} (oneLine : ∀ c ∈ body, isLineFeed c = false) :
      IsLexeme ⟨.lineComment, '/' :: '/' :: body⟩
  | blockComment {body : Text} (closed : commentEnd? 0 body = some body.length) :
      IsLexeme ⟨.blockComment, '/' :: '*' :: body⟩
  | identifier {c : Char} {parts : Text} (start : isIdentStart c = true)
      (inside : ∀ d ∈ parts, isIdentPart d = true) :
      IsLexeme ⟨.identifier, c :: parts⟩
  | string {quote : Char} {body : Text} (isQuote : quote = '"' ∨ quote = '\'')
      (closed : stringEnd? quote 0 body = some body.length) :
      IsLexeme ⟨.string, quote :: body⟩
  | number {text : Text} (start : startsNumber text = true)
      (whole : numberLength text = text.length) :
      IsLexeme ⟨.number, text⟩
  | punctuation {c : Char} (sign : isPunctuation c = true) : IsLexeme ⟨.punctuation, [c]⟩

/-- A lexeme is not empty. -/
theorem IsLexeme.text_ne_nil {token : Token} (lexeme : IsLexeme token) : token.text ≠ [] := by
  cases lexeme with
  | whitespace nonempty blank => exact nonempty
  | number start whole =>
      rintro rfl
      simp [startsNumber] at start
  | _ => simp

/-- Whether a token is complete in front of a text, which only the first
character of the text decides. -/
def Token.endsBefore (token : Token) (rest : Text) : Bool :=
  match token.kind with
  | .whitespace => !rest.head?.any isSpace
  | .lineComment | .hashbang => rest.head?.all isLineFeed
  | .identifier => !rest.head?.any isIdentPart
  | .regex => !rest.head?.any isRegexFlag
  | .number => !rest.head?.any (runsOn token.text)
  | .jsxName => !rest.head?.any isTagNamePart
  | .jsxText => !rest.head?.any fun c => c != '<' && c != '\x7b'
  | .punctuation =>
    if token.text = ['/'] then !rest.head?.any fun c => c == '/' || c == '*'
    else if token.text = ['.'] then !rest.head?.any Char.isDigit
    else true
  | .blockComment | .string | .template => true

/-- Texts with the same first character end a token alike. -/
theorem Token.endsBefore_congr (token : Token) {first second : Text}
    (same : first.head? = second.head?) : token.endsBefore first = token.endsBefore second := by
  unfold Token.endsBefore
  rw [same]

/-- Cutting a front part off a text. -/
theorem cut_append {kind : TokenKind} {size : Nat} {front rest : Text}
    (length : front.length = size) : cut kind size (front ++ rest) = ⟨kind, front⟩ := by
  rw [cut, ← length, List.take_left]

/-- What a text reads as that begins no comment. -/
theorem plainToken_cons {c : Char} {rest : Text}
    (noComment : c = '/' → rest.head?.any (fun d => d == '/' || d == '*') = false) :
    plainToken (c :: rest) =
      if isSpace c then .ok (cut .whitespace (1 + runLength isSpace rest) (c :: rest))
      else if isIdentStart c then .ok (cut .identifier (1 + runLength isIdentPart rest) (c :: rest))
      else if c = '"' || c = '\'' then
        match stringEnd? c 1 rest with
        | some size => .ok (cut .string size (c :: rest))
        | none => .error .unterminatedString
      else if c.isDigit || (c = '.' && rest.head?.any Char.isDigit) then
        .ok (cut .number (numberLength (c :: rest)) (c :: rest))
      else if isPunctuation c then .ok (cut .punctuation 1 (c :: rest))
      else .error .unexpectedCharacter := by
  have noLine (behind : Text) (isSlash : c = '/') (follows : rest = '/' :: behind) : False := by
    simp [follows, isSlash] at noComment
  have noBlock (behind : Text) (isSlash : c = '/') (follows : rest = '*' :: behind) : False := by
    simp [follows, isSlash] at noComment
  exact plainToken.eq_4 c rest noLine noBlock

/-- A token that was read off a text stands in front of it. -/
theorem exists_of_plainToken {text : Text} {token : Token} (read : plainToken text = .ok token) :
    ∃ rest, text = token.text ++ rest := by
  have isCut : ∃ kind size, token = cut kind size text := by
    unfold plainToken at read
    repeat' split at read
    all_goals
      first
      | contradiction
      | exact ⟨_, _, (Except.ok.inj read).symm⟩
  obtain ⟨kind, size, rfl⟩ := isCut
  exact ⟨text.drop size, (List.take_append_drop size text).symm⟩

/-- A lexeme that ends before a text is read off the front of it. -/
theorem IsLexeme.plainToken_eq {token : Token} (lexeme : IsLexeme token) {rest : Text}
    (ends : token.endsBefore rest = true) : plainToken (token.text ++ rest) = .ok token := by
  cases lexeme with
  | @whitespace text nonempty blank =>
      obtain ⟨c, more, rfl⟩ := List.exists_cons_of_ne_nil nonempty
      obtain ⟨space, spaces⟩ := List.forall_mem_cons.mp blank
      have notSlash : c ≠ '/' := by
        rintro rfl
        exact absurd space (by decide)
      have run : runLength isSpace (more ++ rest) = more.length :=
        runLength_append_eq_iff.mpr ⟨spaces, by simpa [Token.endsBefore] using ends⟩
      rw [List.cons_append, plainToken_cons fun same => absurd same notSlash, if_pos space, run,
        ← List.cons_append, cut_append (by rw [List.length_cons, Nat.add_comm])]
  | @lineComment body oneLine =>
      have run : runLength (!isLineFeed ·) (body ++ rest) = body.length := by
        refine runLength_append_eq_iff.mpr ⟨fun c member => by simp [oneLine c member], ?_⟩
        cases rest with
        | nil => rfl
        | cons c rest => simpa [Token.endsBefore] using ends
      rw [List.cons_append, List.cons_append, plainToken, run, ← List.cons_append,
        ← List.cons_append, cut_append (by simp only [List.length_cons]; omega)]
  | @blockComment body closed =>
      have found : commentEnd? 2 (body ++ rest) = some (2 + body.length) := by
        rw [commentEnd?_append, show 2 = 2 + 0 from rfl, commentEnd?_add, closed]
        rfl
      rw [List.cons_append, List.cons_append, plainToken, found]
      simp only
      rw [← List.cons_append, ← List.cons_append,
        cut_append (by simp only [List.length_cons]; omega)]
  | @identifier c parts start inside =>
      obtain ⟨notSpace, notSlash⟩ := not_other_of_isIdentStart start
      have run : runLength isIdentPart (parts ++ rest) = parts.length :=
        runLength_append_eq_iff.mpr ⟨inside, by simpa [Token.endsBefore] using ends⟩
      rw [List.cons_append, plainToken_cons fun same => absurd same notSlash,
        if_neg (by simp [notSpace]), if_pos start, run, ← List.cons_append,
        cut_append (by rw [List.length_cons, Nat.add_comm])]
  | @string quote body isQuote closed =>
      have found : stringEnd? quote 1 (body ++ rest) = some (1 + body.length) := by
        rw [stringEnd?_append, show 1 = 1 + 0 from rfl, stringEnd?_add, closed]
        rfl
      have notOther : isSpace quote = false ∧ isIdentStart quote = false ∧ quote ≠ '/' := by
        rcases isQuote with rfl | rfl <;> decide
      rw [List.cons_append, plainToken_cons fun same => absurd same notOther.2.2,
        if_neg (by simp [notOther.1]), if_neg (by simp [notOther.2.1]),
        if_pos (by simpa using isQuote), found]
      simp only
      rw [← List.cons_append, cut_append (by rw [List.length_cons, Nat.add_comm])]
  | @number text start whole =>
      cases text with
      | nil => simp [startsNumber] at start
      | cons c more =>
          have long : numberLength (c :: (more ++ rest)) = more.length + 1 :=
            numberLength_append_eq_iff.mpr ⟨whole, by simpa [Token.endsBefore] using ends⟩
          have begins :
              (c.isDigit || (c = '.' && (more ++ rest).head?.any Char.isDigit)) = true := by
            simp only [startsNumber, Bool.or_eq_true, Bool.and_eq_true, beq_iff_eq,
              decide_eq_true_eq] at start ⊢
            cases more with
            | nil => exact .inl (by simpa using start)
            | cons d more => simpa using start
          have notOther : isSpace c = false ∧ isIdentStart c = false ∧ c ≠ '"' ∧ c ≠ '\'' ∧
              c ≠ '/' := by
            simp only [Bool.or_eq_true, Bool.and_eq_true, decide_eq_true_eq] at begins
            rcases begins with digit | ⟨rfl, _⟩
            · obtain ⟨a, b, d, e, f, _⟩ := not_other_of_isDigit digit
              exact ⟨a, b, d, e, f⟩
            · decide
          obtain ⟨notSpace, notIdent, notDouble, notSingle, notSlash⟩ := notOther
          rw [List.cons_append, plainToken_cons fun same => absurd same notSlash,
            if_neg (by simp [notSpace]), if_neg (by simp [notIdent]),
            if_neg (by simp [notDouble, notSingle]), if_pos begins, long, ← List.cons_append,
            cut_append (List.length_cons ..)]
  | @punctuation c sign =>
      obtain ⟨notSpace, notIdent, notDouble, notSingle, notDigit⟩ := not_other_of_isPunctuation sign
      have noComment : c = '/' → rest.head?.any (fun d => d == '/' || d == '*') = false := by
        rintro rfl
        simpa [Token.endsBefore] using ends
      have noNumber : ¬(c.isDigit || (c = '.' && rest.head?.any Char.isDigit)) = true := by
        rw [notDigit, Bool.false_or, Bool.and_eq_true, decide_eq_true_eq]
        rintro ⟨rfl, digit⟩
        simp [Token.endsBefore, digit] at ends
      rw [List.singleton_append, plainToken_cons noComment, if_neg (by simp [notSpace]),
        if_neg (by simp [notIdent]), if_neg (by simp [notDouble, notSingle]), if_neg noNumber,
        if_pos sign, ← List.singleton_append, cut_append (List.length_singleton ..)]

/-- A token that was cut from a text is a known front part of it. -/
private theorem eq_of_cut {kind : TokenKind} {size : Nat} (front : Text) {behind rest : Text}
    {token : Token} (spelled : token.text ++ rest = front ++ behind)
    (length : front.length = size) (read : cut kind size (front ++ behind) = token) :
    token = ⟨kind, front⟩ ∧ rest = behind := by
  rw [cut_append length] at read
  subst read
  exact ⟨rfl, List.append_cancel_left spelled⟩

/-- What is read off the front of a text is a lexeme that ends there. -/
theorem isLexeme_of_plainToken {token : Token} {rest : Text}
    (read : plainToken (token.text ++ rest) = .ok token) :
    IsLexeme token ∧ token.endsBefore rest = true := by
  generalize spelled : token.text ++ rest = text at read
  unfold plainToken at read
  split at read
  · contradiction
  · rename_i behind
    obtain ⟨body, behind, rfl, inside, ends⟩ := exists_run (!isLineFeed ·) behind
    rw [runLength_append_eq_iff.mpr ⟨inside, ends⟩] at read
    obtain ⟨rfl, rfl⟩ := eq_of_cut ('/' :: '/' :: body) spelled
      (by simp only [List.length_cons]; omega) (Except.ok.inj read)
    refine ⟨.lineComment fun c member => by simpa using inside c member, ?_⟩
    cases rest with
    | nil => rfl
    | cons c rest => simpa [Token.endsBefore] using ends
  · rename_i behind
    split at read
    · rename_i size found
      obtain ⟨body, behind, rfl, rfl, closed⟩ := exists_comment found
      obtain ⟨rfl, rfl⟩ := eq_of_cut ('/' :: '*' :: body) spelled
        (by simp only [List.length_cons]; omega) (Except.ok.inj read)
      exact ⟨.blockComment closed, rfl⟩
    · contradiction
  · rename_i c behind noLine noBlock
    split at read
    · rename_i space
      obtain ⟨more, behind, rfl, inside, ends⟩ := exists_run isSpace behind
      rw [runLength_append_eq_iff.mpr ⟨inside, ends⟩] at read
      obtain ⟨rfl, rfl⟩ := eq_of_cut (c :: more) spelled
        (by simp only [List.length_cons]; omega) (Except.ok.inj read)
      exact ⟨.whitespace (by simp) (List.forall_mem_cons.mpr ⟨space, inside⟩),
        by simpa [Token.endsBefore] using ends⟩
    · split at read
      · rename_i start
        obtain ⟨more, behind, rfl, inside, ends⟩ := exists_run isIdentPart behind
        rw [runLength_append_eq_iff.mpr ⟨inside, ends⟩] at read
        obtain ⟨rfl, rfl⟩ := eq_of_cut (c :: more) spelled
          (by simp only [List.length_cons]; omega) (Except.ok.inj read)
        exact ⟨.identifier start inside, by simpa [Token.endsBefore] using ends⟩
      · split at read
        · rename_i isQuote
          split at read
          · rename_i size found
            obtain ⟨body, behind, rfl, rfl, closed⟩ := exists_string found
            obtain ⟨rfl, rfl⟩ := eq_of_cut (c :: body) spelled
              (by simp only [List.length_cons]; omega) (Except.ok.inj read)
            exact ⟨.string (by simpa using isQuote) closed, rfl⟩
          · contradiction
        · split at read
          · rename_i start
            obtain ⟨more, behind, rfl, moreLength⟩ : ∃ more rest, behind = more ++ rest ∧
                numberLength (c :: behind) = more.length + 1 := by
              have within := numberLength_le c behind
              have positive := numberLength_pos (c :: behind)
              exact ⟨behind.take (numberLength (c :: behind) - 1),
                behind.drop (numberLength (c :: behind) - 1), by simp, by
                rw [List.length_take]
                omega⟩
            obtain ⟨rfl, rfl⟩ := eq_of_cut (c :: more) spelled
              (by rw [List.length_cons, moreLength]) (Except.ok.inj read)
            obtain ⟨whole, ends⟩ := numberLength_append_eq_iff.mp moreLength
            refine ⟨.number ?_ whole, by simpa [Token.endsBefore] using ends⟩
            cases more with
            | nil =>
                -- A lone dot is no number: the digit behind it would have been taken.
                simp only [Bool.or_eq_true, Bool.and_eq_true, List.nil_append] at start
                rcases start with digit | ⟨_, digit⟩
                · simp [startsNumber, digit]
                · cases rest with
                  | nil => simp at digit
                  | cons d rest =>
                      have runs := (not_other_of_isDigit (by simpa using digit)).2.2.2.2.2
                      simp [runsOn, runs] at ends
            | cons d more =>
                simp only [Bool.or_eq_true, Bool.and_eq_true, decide_eq_true_eq,
                  List.cons_append, List.head?_cons] at start
                simpa [startsNumber] using start
          · rename_i noNumber
            split at read
            · rename_i sign
              obtain ⟨rfl, rfl⟩ := eq_of_cut [c] spelled rfl (Except.ok.inj read)
              refine ⟨.punctuation sign, ?_⟩
              unfold Token.endsBefore
              simp only [List.cons.injEq, and_true]
              split
              · rename_i isSlash
                cases rest with
                | nil => rfl
                | cons d rest =>
                    have notSlash : d ≠ '/' := fun same => noLine rest isSlash (by rw [same])
                    have notStar : d ≠ '*' := fun same => noBlock rest isSlash (by rw [same])
                    simp [notSlash, notStar]
              · split
                · rename_i isDot
                  subst isDot
                  simpa using noNumber
                · rfl
            · contradiction

/-- Reading a token off the front of a text means that it is a lexeme and ends
before what follows. -/
theorem plainToken_append_eq_ok_iff {token : Token} {rest : Text} :
    plainToken (token.text ++ rest) = .ok token ↔ IsLexeme token ∧ token.endsBefore rest = true :=
  ⟨isLexeme_of_plainToken, fun ⟨lexeme, ends⟩ => lexeme.plainToken_eq ends⟩

end Deflow.Script
