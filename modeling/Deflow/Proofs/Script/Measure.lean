import Deflow.Script.Lexeme
import Mathlib.Data.List.TakeWhile

/-!
# How far lexemes reach

What the measures of a lexeme's length say: where a run of characters ends,
where a comment or a string is closed, and where a number stops.  For each of
them, whether it ends with a given front part of a text is a matter of that
front part and of the next character only.
-/

namespace Deflow.Script

/-! ## Characters -/

/-- A test that all ASCII characters pass. -/
theorem of_ascii (test : Char → Bool) (passed : ∀ n < 128, test (Char.ofNat n) = true)
    {c : Char} (ascii : c.toNat < 128) : test c = true := by
  have atCode := passed c.toNat ascii
  rwa [Char.ofNat_toNat] at atCode

theorem toNat_lt_of_isAlpha {c : Char} (letter : c.isAlpha = true) : c.toNat < 128 := by
  have bounds : (65 ≤ c.val ∧ c.val ≤ 90) ∨ (97 ≤ c.val ∧ c.val ≤ 122) := by
    have tests : (decide ('A'.val ≤ c.val ∧ c.val ≤ 'Z'.val) ||
        (decide ('a'.val ≤ c.val) && decide (c.val ≤ 'z'.val))) = true := letter
    simpa using tests
  simp only [UInt32.le_iff_toNat_le, Char.toNat_val, UInt32.reduceToNat] at bounds
  omega

theorem toNat_lt_of_isDigit {c : Char} (digit : c.isDigit = true) : c.toNat < 128 := by
  have bound : c.toNat ≤ 57 := (Char.isDigit_iff_toNat.mp digit).2
  omega

/-- Punctuation is ASCII. -/
theorem toNat_lt_of_isPunctuation {c : Char} (punctuation : isPunctuation c = true) :
    c.toNat < 128 := by
  have listed : "!#%&()*+,-./:;<=>?@[\\]^\x7b|\x7d~".toList.all (·.toNat < 128) = true := by
    decide +kernel
  simp only [isPunctuation, Bool.or_eq_true, Bool.and_eq_true, decide_eq_true_eq, beq_iff_eq,
    List.contains_iff_mem] at punctuation
  rcases punctuation with ((isListed | control) | control) | control
  · exact of_decide_eq_true (List.all_eq_true.mp listed c isListed)
  all_goals omega

/-- Whether a character that is punctuation, a digit or the start of an identifier begins
nothing else. -/
def beginsOne (c : Char) : Bool :=
  (!isPunctuation c || (!isSpace c && !isIdentStart c && c != '"' && c != '\'' && !c.isDigit)) &&
    (!c.isDigit ||
      (!isSpace c && !isIdentStart c && c != '"' && c != '\'' && c != '/' && isNumberPart c)) &&
    (!isIdentStart c || (!isSpace c && c != '/'))

theorem beginsOne_of_ascii {c : Char} (ascii : c.toNat < 128) : beginsOne c = true :=
  of_ascii beginsOne (by decide +kernel) ascii

/-- A punctuation character begins nothing else. -/
theorem not_other_of_isPunctuation {c : Char} (punctuation : isPunctuation c = true) :
    isSpace c = false ∧ isIdentStart c = false ∧ c ≠ '"' ∧ c ≠ '\'' ∧ c.isDigit = false := by
  have atC := beginsOne_of_ascii (toNat_lt_of_isPunctuation punctuation)
  simp only [beginsOne, Bool.and_eq_true] at atC
  simpa [punctuation, and_assoc] using atC.1.1

/-- A digit begins only numbers. -/
theorem not_other_of_isDigit {c : Char} (digit : c.isDigit = true) :
    isSpace c = false ∧ isIdentStart c = false ∧ c ≠ '"' ∧ c ≠ '\'' ∧ c ≠ '/' ∧
      isNumberPart c = true := by
  have atC := beginsOne_of_ascii (toNat_lt_of_isDigit digit)
  simp only [beginsOne, Bool.and_eq_true] at atC
  simpa [digit, and_assoc] using atC.1.2

/-- A character that begins an identifier is no white space and no slash. -/
theorem not_other_of_isIdentStart {c : Char} (start : isIdentStart c = true) :
    isSpace c = false ∧ c ≠ '/' := by
  by_cases ascii : c.toNat < 128
  · have atC := beginsOne_of_ascii ascii
    simp only [beginsOne, Bool.and_eq_true] at atC
    simpa [start] using atC.2
  · simp only [isIdentStart, Bool.or_eq_true, Bool.and_eq_true, decide_eq_true_eq, beq_iff_eq]
      at start
    have notSlash : c ≠ '/' := by
      rintro rfl
      exact ascii (by decide)
    rcases start with ((letter | rfl) | rfl) | beyond
    · exact absurd (toNat_lt_of_isAlpha letter) ascii
    · exact absurd (by decide) ascii
    · exact absurd (by decide) ascii
    · exact ⟨by simpa using beyond.2, notSlash⟩

/-! ## Runs -/

/-- A run lies within its text. -/
theorem runLength_le (inClass : Char → Bool) (text : Text) :
    runLength inClass text ≤ text.length :=
  (List.takeWhile_prefix inClass).length_le

/-- A run takes a front part that is in its class, and goes on behind it. -/
theorem runLength_append {inClass : Char → Bool} {run : Text} (rest : Text)
    (inside : ∀ c ∈ run, inClass c = true) :
    runLength inClass (run ++ rest) = run.length + runLength inClass rest := by
  rw [runLength, List.takeWhile_append_of_pos inside, List.length_append, runLength]

/-- A run is empty where the next character is of another class. -/
theorem runLength_eq_zero_iff {inClass : Char → Bool} {text : Text} :
    runLength inClass text = 0 ↔ text.head?.any inClass = false := by
  cases text with
  | nil => simp [runLength]
  | cons c text =>
      cases inside : inClass c <;> simp [runLength, inside]

/-- Every text is a run and what comes behind it. -/
theorem exists_run (inClass : Char → Bool) (text : Text) :
    ∃ run rest, text = run ++ rest ∧ (∀ c ∈ run, inClass c = true) ∧
      rest.head?.any inClass = false := by
  refine ⟨text.takeWhile inClass, text.dropWhile inClass,
    List.takeWhile_append_dropWhile.symm, fun c member => List.mem_takeWhile_imp member, ?_⟩
  cases dropped : text.dropWhile inClass with
  | nil => rfl
  | cons c rest =>
      have fails := List.head?_dropWhile_not inClass text
      simpa [dropped] using fails

/-- A run takes exactly the front part of a text that is in its class. -/
theorem runLength_append_eq_iff {inClass : Char → Bool} {run rest : Text} :
    runLength inClass (run ++ rest) = run.length ↔
      (∀ c ∈ run, inClass c = true) ∧ rest.head?.any inClass = false := by
  constructor
  · intro length
    induction run with
    | nil => exact ⟨by simp, runLength_eq_zero_iff.mp length⟩
    | cons c run inductionHypothesis =>
        by_cases inside : inClass c = true
        · have shorter : runLength inClass (run ++ rest) = run.length := by
            simpa [runLength, List.takeWhile_cons, inside] using length
          obtain ⟨others, ends⟩ := inductionHypothesis shorter
          exact ⟨List.forall_mem_cons.mpr ⟨inside, others⟩, ends⟩
        · simp [runLength, inside] at length
  · rintro ⟨inside, ends⟩
    rw [runLength_append rest inside, runLength_eq_zero_iff.mpr ends, Nat.add_zero]

/-! ## Comments and strings -/

/-- The end of a comment lies behind what was measured before and within the text. -/
theorem commentEnd?_bounds {size finish : Nat} {text : Text}
    (found : commentEnd? size text = some finish) :
    size + 2 ≤ finish ∧ finish ≤ size + text.length := by
  fun_induction commentEnd? size text with
  | case1 => contradiction
  | case2 size text =>
      cases found
      simp only [List.length_cons]
      omega
  | case3 size c text _ inductionHypothesis =>
      have bounds := inductionHypothesis found
      simp only [List.length_cons]
      omega

/-- Whether a comment ends with a text does not depend on what follows. -/
theorem commentEnd?_append (size : Nat) (body rest : Text) :
    commentEnd? size (body ++ rest) = some (size + body.length) ↔
      commentEnd? size body = some (size + body.length) := by
  fun_induction commentEnd? size body with
  | case1 size =>
      constructor
      · intro found
        have later := (commentEnd?_bounds found).1
        simp only [List.length_nil] at later
        omega
      · simp
  | case2 size text => simp [commentEnd?]
  | case3 size c text notEnd inductionHypothesis =>
      have shifted : size + (c :: text).length = size + 1 + text.length := by
        simp only [List.length_cons]
        omega
      rw [shifted, ← inductionHypothesis]
      by_cases star : c = '*'
      · subst star
        cases text with
        | nil =>
            cases rest with
            | nil => simp [commentEnd?]
            | cons d rest =>
                by_cases slash : d = '/'
                · subst slash
                  constructor
                  · intro found
                    simp [commentEnd?] at found
                  · intro found
                    have later := (commentEnd?_bounds found).1
                    simp only [List.length_nil] at later
                    omega
                · simp [commentEnd?, slash]
        | cons d text =>
            have notSlash : d ≠ '/' := fun same => notEnd text rfl (by rw [same])
            simp [commentEnd?, notSlash]
      · simp [commentEnd?, star]

/-- The size at which a comment's measure starts only shifts its end. -/
theorem commentEnd?_add (shift size : Nat) (text : Text) :
    commentEnd? (shift + size) text = (commentEnd? size text).map (shift + ·) := by
  fun_induction commentEnd? size text with
  | case1 => rfl
  | case2 size text => simp [commentEnd?, Nat.add_assoc]
  | case3 size c text notEnd inductionHypothesis =>
      rw [← inductionHypothesis, commentEnd?]
      · rfl
      · exact notEnd

/-- Where a comment ends, a body stands that is closed by itself. -/
theorem exists_comment {size finish : Nat} {text : Text}
    (found : commentEnd? size text = some finish) :
    ∃ body rest, text = body ++ rest ∧ finish = size + body.length ∧
      commentEnd? 0 body = some body.length := by
  have bounds := commentEnd?_bounds found
  obtain ⟨body, rest, rfl, rfl⟩ :
      ∃ body rest, text = body ++ rest ∧ finish = size + body.length :=
    ⟨text.take (finish - size), text.drop (finish - size), by simp, by
      rw [List.length_take]
      omega⟩
  refine ⟨body, rest, rfl, rfl, ?_⟩
  have closed := (commentEnd?_append size body rest).mp found
  have shifted : commentEnd? size body = (commentEnd? 0 body).map (size + ·) :=
    commentEnd?_add size 0 body
  rw [shifted] at closed
  obtain ⟨bodyEnd, closed, same⟩ := Option.map_eq_some_iff.mp closed
  rw [closed, show bodyEnd = body.length by omega]

/-- The end of a string lies behind what was measured before and within the text. -/
theorem stringEnd?_bounds {quote : Char} {size finish : Nat} {text : Text}
    (found : stringEnd? quote size text = some finish) :
    size + 1 ≤ finish ∧ finish ≤ size + text.length := by
  fun_induction stringEnd? quote size text with
  | case1 => contradiction
  | case2 size text inductionHypothesis | case3 size c text _ inductionHypothesis =>
      have bounds := inductionHypothesis found
      simp only [List.length_cons]
      omega
  | case4 => contradiction
  | case5 size text =>
      cases found
      simp only [List.length_cons]
      omega
  | case6 => contradiction
  | case7 size c text _ _ _ _ _ inductionHypothesis =>
      have bounds := inductionHypothesis found
      simp only [List.length_cons]
      omega

/-- A character of a string body that is no backslash stands for itself. -/
theorem stringEnd?_cons {quote c : Char} (size : Nat) (text : Text) (plain : c ≠ '\\') :
    stringEnd? quote size (c :: text) =
      if c = quote then some (size + 1)
      else if isLineFeed c then none
      else stringEnd? quote (size + 1) text := by
  rw [stringEnd?]
  · exact fun _ same => absurd same plain
  · exact fun _ _ same => absurd same plain
  · exact fun same => absurd same plain

/-- A backslash takes one more character, or a whole line end. -/
theorem stringEnd?_escape (quote : Char) (size : Nat) (c : Char) (text : Text) :
    (∃ behind, c = '\r' ∧ text = '\n' :: behind ∧
      stringEnd? quote size ('\\' :: c :: text) = stringEnd? quote (size + 3) behind) ∨
    stringEnd? quote size ('\\' :: c :: text) = stringEnd? quote (size + 2) text := by
  by_cases lineEnd : ∃ behind, c = '\r' ∧ text = '\n' :: behind
  · obtain ⟨behind, rfl, rfl⟩ := lineEnd
    exact .inl ⟨behind, rfl, rfl, by rw [stringEnd?]⟩
  · refine .inr ?_
    rw [stringEnd?]
    exact fun behind isReturn isFeed => lineEnd ⟨behind, isReturn, isFeed⟩

/-- Whether a string ends with a text does not depend on what follows. -/
theorem stringEnd?_append (quote : Char) (size : Nat) (body rest : Text) :
    stringEnd? quote size (body ++ rest) = some (size + body.length) ↔
      stringEnd? quote size body = some (size + body.length) := by
  fun_induction stringEnd? quote size body with
  | case1 size =>
      constructor
      · intro found
        have later := (stringEnd?_bounds found).1
        simp only [List.length_nil] at later
        omega
      · simp
  | case2 size text inductionHypothesis =>
      have shifted : size + ('\\' :: '\r' :: '\n' :: text).length = size + 3 + text.length := by
        simp only [List.length_cons]
        omega
      rw [shifted, ← inductionHypothesis]
      simp [stringEnd?]
  | case3 size c text notBreak inductionHypothesis =>
      have shifted : size + ('\\' :: c :: text).length = size + 2 + text.length := by
        simp only [List.length_cons]
        omega
      rw [shifted, ← inductionHypothesis, List.cons_append, List.cons_append]
      rcases stringEnd?_escape quote size c (text ++ rest) with
        ⟨behind, rfl, isFeed, longer⟩ | same
      · -- Only a line end that is cut in two can be taken differently, and then both sides fail.
        cases text with
        | nil =>
            rw [longer, isFeed]
            constructor
            all_goals
              intro found
              have later := (stringEnd?_bounds found).1
              simp only [List.length_nil] at later
              omega
        | cons d text =>
            rw [List.cons_append, List.cons.injEq] at isFeed
            exact absurd (by rw [isFeed.1]) (notBreak text rfl)
      · rw [same]
  | case4 size =>
      simp only [reduceCtorEq, iff_false]
      intro found
      cases rest with
      | nil => simp [stringEnd?] at found
      | cons c rest =>
          rcases stringEnd?_escape quote size c rest with ⟨behind, _, _, longer⟩ | same
          · have later := (stringEnd?_bounds (longer.symm.trans found)).1
            simp only [List.length_singleton] at later
            omega
          · have later := (stringEnd?_bounds (same.symm.trans found)).1
            simp only [List.length_singleton] at later
            omega
  | case5 size text _ isLong isShort =>
      have plain : quote ≠ '\\' := by
        cases text with
        | nil => exact fun same => isShort same rfl
        | cons d text => exact fun same => isLong d text same rfl
      rw [List.cons_append, stringEnd?_cons _ _ plain]
      simp
  | case6 size c text _ isLong isShort other lineFeed =>
      have plain : c ≠ '\\' := by
        cases text with
        | nil => exact fun same => isShort same rfl
        | cons d text => exact fun same => isLong d text same rfl
      rw [List.cons_append, stringEnd?_cons _ _ plain]
      simp [other, lineFeed]
  | case7 size c text _ isLong isShort other inLine inductionHypothesis =>
      have plain : c ≠ '\\' := by
        cases text with
        | nil => exact fun same => isShort same rfl
        | cons d text => exact fun same => isLong d text same rfl
      have shifted : size + (c :: text).length = size + 1 + text.length := by
        simp only [List.length_cons]
        omega
      rw [shifted, ← inductionHypothesis, List.cons_append, stringEnd?_cons _ _ plain]
      simp [other, inLine]

/-- The size at which a string's measure starts only shifts its end. -/
theorem stringEnd?_add (quote : Char) (shift size : Nat) (text : Text) :
    stringEnd? quote (shift + size) text = (stringEnd? quote size text).map (shift + ·) := by
  fun_induction stringEnd? quote size text with
  | case1 => rfl
  | case2 size text inductionHypothesis =>
      rw [stringEnd?]
      exact inductionHypothesis
  | case3 size c text notBreak inductionHypothesis =>
      rw [stringEnd?]
      · exact inductionHypothesis
      · exact notBreak
  | case4 => rfl
  | case5 size text isBreak isLong isShort =>
      rw [stringEnd?.eq_5 _ _ _ _ isBreak isLong isShort]
      simp [Nat.add_assoc]
  | case6 size c text isBreak isLong isShort other lineFeed =>
      rw [stringEnd?.eq_5 _ _ _ _ isBreak isLong isShort]
      simp [other, lineFeed]
  | case7 size c text isBreak isLong isShort other inLine inductionHypothesis =>
      rw [stringEnd?.eq_5 _ _ _ _ isBreak isLong isShort]
      simp only [other, if_false, inLine]
      exact inductionHypothesis

/-- Where a string ends, a body stands that is closed by itself. -/
theorem exists_string {quote : Char} {size finish : Nat} {text : Text}
    (found : stringEnd? quote size text = some finish) :
    ∃ body rest, text = body ++ rest ∧ finish = size + body.length ∧
      stringEnd? quote 0 body = some body.length := by
  have bounds := stringEnd?_bounds found
  obtain ⟨body, rest, rfl, rfl⟩ :
      ∃ body rest, text = body ++ rest ∧ finish = size + body.length :=
    ⟨text.take (finish - size), text.drop (finish - size), by simp, by
      rw [List.length_take]
      omega⟩
  refine ⟨body, rest, rfl, rfl, ?_⟩
  have closed := (stringEnd?_append quote size body rest).mp found
  have shifted : stringEnd? quote size body = (stringEnd? quote 0 body).map (size + ·) :=
    stringEnd?_add quote size 0 body
  rw [shifted] at closed
  obtain ⟨bodyEnd, closed, same⟩ := Option.map_eq_some_iff.mp closed
  rw [closed, show bodyEnd = body.length by omega]

/-! ## Numbers -/

/-- Whether a number so far would take a sign along. -/
def awaitsExponent (digits : Text) : Bool :=
  (digits.drop 1).all isNumberPart && endsWithExponentMark digits && !isHexadecimal digits

/-- Whether a number of the characters so far takes one more. -/
def runsOn (digits : Text) (c : Char) : Bool :=
  isNumberPart c || ((c == '+' || c == '-') && awaitsExponent digits)

/-- A number has at least one character. -/
theorem numberLength_pos (text : Text) : 0 < numberLength text := by
  unfold numberLength
  dsimp only
  split
  · split <;> omega
  · omega

/-- The measure of a number, once its digits are known. -/
theorem numberLength_cons_append {c : Char} {digits rest : Text}
    (inside : ∀ d ∈ digits, isNumberPart d = true) (ends : rest.head?.any isNumberPart = false) :
    numberLength (c :: (digits ++ rest)) =
      match rest with
      | sign :: rest =>
        if (sign == '+' || sign == '-') && endsWithExponentMark (c :: digits) &&
            !isHexadecimal (c :: digits) then
          digits.length + 2 + runLength isNumberPart rest
        else
          digits.length + 1
      | [] => digits.length + 1 := by
  have size : 1 + runLength isNumberPart (digits ++ rest) = (c :: digits).length := by
    rw [runLength_append_eq_iff.mpr ⟨inside, ends⟩, List.length_cons, Nat.add_comm]
  unfold numberLength
  simp only [List.drop_succ_cons, List.drop_zero, size]
  rw [← List.cons_append, List.take_left, List.drop_left]
  cases rest with
  | nil => rfl
  | cons sign rest => simp only [List.length_cons]

/-- A number takes at least the digits in front. -/
theorem runLength_lt_numberLength (c : Char) (text : Text) :
    runLength isNumberPart text < numberLength (c :: text) := by
  unfold numberLength
  simp only [List.drop_succ_cons, List.drop_zero]
  split
  · split <;> omega
  · omega

/-- A number lies within its text. -/
theorem numberLength_le (c : Char) (text : Text) : numberLength (c :: text) ≤ text.length + 1 := by
  obtain ⟨digits, tail, rfl, inside, ends⟩ := exists_run isNumberPart text
  rw [numberLength_cons_append inside ends]
  cases tail with
  | nil => simp
  | cons sign more =>
      have within := runLength_le isNumberPart more
      simp only [List.length_append, List.length_cons]
      split <;> omega

/-- Whether a number ends with a text depends on its next character only. -/
theorem numberLength_append_eq_iff {c : Char} {text rest : Text} :
    numberLength (c :: (text ++ rest)) = text.length + 1 ↔
      numberLength (c :: text) = text.length + 1 ∧
        rest.head?.any (runsOn (c :: text)) = false := by
  obtain ⟨digits, tail, rfl, inside, ends⟩ := exists_run isNumberPart text
  cases tail with
  | nil =>
      -- No sign so far: the next character is a digit, a sign, or ends the number.
      rw [List.append_nil]
      have whole : numberLength (c :: digits) = digits.length + 1 := by
        simpa using @numberLength_cons_append c digits [] inside rfl
      have allDigits : digits.all isNumberPart = true := List.all_eq_true.mpr inside
      cases rest with
      | nil => simp [whole]
      | cons d rest =>
          by_cases digit : isNumberPart d = true
          · have longer := runLength_lt_numberLength c (digits ++ d :: rest)
            rw [runLength_append _ inside] at longer
            have one : runLength isNumberPart (d :: rest) ≠ 0 := by
              simp [runLength_eq_zero_iff, digit]
            simp only [List.head?_cons, Option.any_some, runsOn, digit, Bool.true_or,
              Bool.true_eq_false, and_false, iff_false]
            omega
          · rw [numberLength_cons_append inside (by simpa using digit)]
            simp only [Bool.not_eq_true] at digit
            simp only [whole, List.head?_cons, Option.any_some, runsOn, digit, awaitsExponent,
              List.drop_succ_cons, List.drop_zero, allDigits, Bool.true_and, Bool.false_or,
              true_and, ← Bool.and_assoc]
            split
            · rename_i signed
              simp only [signed, Bool.true_eq_false, iff_false]
              omega
            · rename_i unsigned
              simpa using unsigned
  | cons sign more =>
      -- A sign has been taken, so that only digits can follow.
      have signed : awaitsExponent (c :: (digits ++ sign :: more)) = false := by
        have other : isNumberPart sign = false := by simpa using ends
        simp [awaitsExponent, other]
      have runs : runsOn (c :: (digits ++ sign :: more)) = isNumberPart := by
        funext d
        simp [runsOn, signed]
      rw [runs, List.append_assoc, List.cons_append, numberLength_cons_append inside ends,
        numberLength_cons_append inside (by simpa using ends)]
      simp only [List.length_append, List.length_cons]
      split
      · have short := @runLength_append_eq_iff isNumberPart more []
        have long := @runLength_append_eq_iff isNumberPart more rest
        simp only [List.append_nil, List.head?_nil, Option.any_none, and_true] at short
        constructor
        · intro length
          have both := long.mp (by omega)
          exact ⟨by have all := short.mpr both.1; omega, both.2⟩
        · rintro ⟨length, follows⟩
          have all := short.mp (by omega)
          have whole := long.mpr ⟨all, follows⟩
          omega
      · omega

/-! ## Regular expressions -/

/-- The place behind a character that neither ends the body nor is escaped. -/
def RegexPlace.after (place : RegexPlace) (c : Char) : RegexPlace :=
  match place with
  | .body => if c = '[' then .bracket else .body
  | .bracket => if c = ']' then .body else .bracket

/-- Texts in which a backslash takes the next character with it. -/
theorem escapeInduction {motive : Text → Prop} (nil : motive []) (lone : motive ['\\'])
    (escape : ∀ c text, motive text → motive ('\\' :: c :: text))
    (plain : ∀ c text, c ≠ '\\' → motive text → motive (c :: text)) :
    ∀ text, motive text
  | [] => nil
  | [c] =>
      if isEscape : c = '\\' then isEscape ▸ lone else plain c [] isEscape nil
  | c :: d :: text =>
      if isEscape : c = '\\' then
        isEscape ▸ escape d text (escapeInduction nil lone escape plain text)
      else
        plain c (d :: text) isEscape (escapeInduction nil lone escape plain (d :: text))

theorem regexBodyEnd?_escape (place : RegexPlace) (size : Nat) (c : Char) (text : Text) :
    regexBodyEnd? place size ('\\' :: c :: text) =
      if isLineTerminator c then none else regexBodyEnd? place (size + 2) text := by
  rw [regexBodyEnd?]

/-- A character that is not escaped ends the body, breaks it off or leads on. -/
theorem regexBodyEnd?_cons {c : Char} (place : RegexPlace) (size : Nat) (text : Text)
    (plain : c ≠ '\\') :
    regexBodyEnd? place size (c :: text) =
      if place = .body ∧ c = '/' then some size
      else if isLineTerminator c then none
      else regexBodyEnd? (place.after c) (size + 1) text := by
  cases place with
  | body =>
      rw [regexBodyEnd?.eq_4 _ _ _ (fun _ _ same => absurd same plain)
        fun same => absurd same plain]
      by_cases bracket : c = '[' <;> simp [RegexPlace.after, bracket]
  | bracket =>
      rw [regexBodyEnd?.eq_5 _ _ _ (fun _ _ same => absurd same plain)
        fun same => absurd same plain]
      by_cases bracket : c = ']'
      · subst bracket
        simp [RegexPlace.after, show isLineTerminator ']' = false by decide]
      · simp [RegexPlace.after, bracket]

/-- The body of a regular expression ends behind what was measured before and
within the text. -/
theorem regexBodyEnd?_bounds {place : RegexPlace} {size finish : Nat} {text : Text}
    (found : regexBodyEnd? place size text = some finish) :
    size ≤ finish ∧ finish < size + text.length := by
  induction text using escapeInduction generalizing place size with
  | nil => simp [regexBodyEnd?] at found
  | lone => simp [regexBodyEnd?] at found
  | escape c text inductionHypothesis =>
      rw [regexBodyEnd?_escape] at found
      split at found
      · contradiction
      · have bounds := inductionHypothesis found
        simp only [List.length_cons]
        omega
  | plain c text plain inductionHypothesis =>
      rw [regexBodyEnd?_cons _ _ _ plain] at found
      simp only [List.length_cons]
      split at found
      · cases found
        omega
      · split at found
        · contradiction
        · have bounds := inductionHypothesis found
          omega

/-- Whether the body of a regular expression ends at a place does not depend on
what stands behind the place. -/
theorem regexBodyEnd?_append {place : RegexPlace} {size finish : Nat} {body : Text} (rest : Text)
    (within : finish < size + body.length) :
    regexBodyEnd? place size (body ++ rest) = some finish ↔
      regexBodyEnd? place size body = some finish := by
  induction body using escapeInduction generalizing place size with
  | nil =>
      constructor
      · intro found
        have bounds := regexBodyEnd?_bounds found
        simp only [List.length_nil] at within
        omega
      · simp [regexBodyEnd?]
  | lone =>
      -- A backslash at the end takes the next character along, so the body ends later.
      have short : regexBodyEnd? place size ['\\'] = none := by rw [regexBodyEnd?]
      simp only [short, reduceCtorEq, iff_false]
      intro found
      cases rest with
      | nil => simp [short] at found
      | cons c rest =>
          rw [List.singleton_append, regexBodyEnd?_escape] at found
          split at found
          · contradiction
          · have bounds := regexBodyEnd?_bounds found
            simp only [List.length_singleton] at within
            omega
  | escape c text inductionHypothesis =>
      rw [List.cons_append, List.cons_append, regexBodyEnd?_escape, regexBodyEnd?_escape]
      simp only [List.length_cons] at within
      split
      · rfl
      · exact inductionHypothesis (by omega)
  | plain c text plain inductionHypothesis =>
      rw [List.cons_append, regexBodyEnd?_cons _ _ _ plain, regexBodyEnd?_cons _ _ _ plain]
      simp only [List.length_cons] at within
      split
      · rfl
      · split
        · rfl
        · exact inductionHypothesis (by omega)

/-- A regular expression is a body that is not empty, a slash and the flags. -/
theorem regexLength?_eq_some_iff {text : Text} {length : Nat} :
    regexLength? text = some length ↔ ∃ size, regexBodyEnd? .body 0 text = some (size + 1) ∧
      length = size + 2 + runLength isRegexFlag (text.drop (size + 2)) := by
  unfold regexLength?
  cases regexBodyEnd? .body 0 text with
  | none => simp
  | some bodyEnd =>
      cases bodyEnd with
      | zero => simp
      | succ size => simp [eq_comm]

/-- A regular expression lies within its text. -/
theorem regexLength?_le {text : Text} {length : Nat} (found : regexLength? text = some length) :
    length ≤ text.length := by
  obtain ⟨size, atSlash, rfl⟩ := regexLength?_eq_some_iff.mp found
  have bounds := regexBodyEnd?_bounds atSlash
  have flags := runLength_le isRegexFlag (text.drop (size + 2))
  rw [List.length_drop] at flags
  omega

/-- Whether a regular expression ends with a text depends on its next character
only. -/
theorem regexLength?_append_eq_iff {body rest : Text} :
    regexLength? (body ++ rest) = some body.length ↔
      regexLength? body = some body.length ∧ rest.head?.any isRegexFlag = false := by
  -- Behind the closing slash there are flags and nothing else.
  have flags {size : Nat} (short : size + 2 ≤ body.length) (rest : Text) :
      body.length = size + 2 + runLength isRegexFlag ((body ++ rest).drop (size + 2)) ↔
        (∀ c ∈ body.drop (size + 2), isRegexFlag c = true) ∧
          rest.head?.any isRegexFlag = false := by
    rw [List.drop_append_of_le_length short, ← runLength_append_eq_iff, List.length_drop]
    omega
  simp only [regexLength?_eq_some_iff]
  constructor
  · rintro ⟨size, atSlash, length⟩
    have short : size + 2 ≤ body.length := by omega
    obtain ⟨inside, follows⟩ := (flags short rest).mp length
    refine ⟨⟨size, (regexBodyEnd?_append rest (by omega)).mp atSlash, ?_⟩, follows⟩
    simpa using (flags short []).mpr ⟨inside, rfl⟩
  · rintro ⟨⟨size, atSlash, length⟩, follows⟩
    have short : size + 2 ≤ body.length := by omega
    have inside := ((flags short []).mp (by simpa using length)).1
    exact ⟨size, (regexBodyEnd?_append rest (by omega)).mpr atSlash,
      (flags short rest).mpr ⟨inside, follows⟩⟩

end Deflow.Script
