import Deflow.Proofs.Script.Lexeme
import Deflow.Script.Scan

/-!
# The shape of tag parts

The parts of a markup tag follow rules of their own: other characters separate
them, names may hold hyphens, and strings run over line ends without escapes.
As with lexemes, the shape of a part does not depend on what follows, and
whether it ends there depends on the next character only.
-/

namespace Deflow.Script

/-! ## Characters -/

/-- A character that begins a name in a tag begins nothing else there. -/
theorem not_other_of_isTagNameStart {c : Char} (start : isTagNameStart c = true) :
    isTagSpace c = false ∧ c ≠ '/' ∧ c ≠ '>' ∧ c ≠ '\x7b' ∧ c ≠ '"' ∧ c ≠ '\'' := by
  by_cases ascii : c.toNat < 128
  · have others : ∀ n < 128, (!isTagNameStart (Char.ofNat n) ||
        (!isTagSpace (Char.ofNat n) && Char.ofNat n != '/' && Char.ofNat n != '>' &&
          Char.ofNat n != '\x7b' && Char.ofNat n != '"' && Char.ofNat n != '\'')) = true := by
      decide +kernel
    have atC := of_ascii (fun c => !isTagNameStart c ||
      (!isTagSpace c && c != '/' && c != '>' && c != '\x7b' && c != '"' && c != '\''))
      others ascii
    simpa [start, and_assoc] using atC
  · have notAscii {d : Char} (isAscii : d.toNat < 128) : c ≠ d := by
      rintro rfl
      exact ascii isAscii
    simp only [isTagNameStart, Bool.or_eq_true, Bool.and_eq_true, decide_eq_true_eq, beq_iff_eq]
      at start
    rcases start with ((letter | rfl) | rfl) | beyond
    · exact absurd (toNat_lt_of_isAlpha letter) ascii
    · exact absurd (by decide) ascii
    · exact absurd (by decide) ascii
    · exact ⟨by simpa using beyond.2, notAscii (by decide), notAscii (by decide),
        notAscii (by decide), notAscii (by decide), notAscii (by decide)⟩

/-- White space in a tag begins no other part. -/
theorem not_other_of_isTagSpace {c : Char} (space : isTagSpace c = true) :
    c ≠ '/' ∧ c ≠ '>' ∧ c ≠ '\x7b' := by
  refine ⟨?_, ?_, ?_⟩
  all_goals
    rintro rfl
    exact absurd space (by decide)

/-! ## Parts -/

/-- The shape of a part of a tag. -/
inductive IsTagPart : TagPart → Text → Prop
  | whitespace {text : Text} (nonempty : text ≠ []) (blank : ∀ c ∈ text, isTagSpace c = true) :
      IsTagPart .whitespace text
  | lineComment {body : Text} (oneLine : ∀ c ∈ body, isLineFeed c = false) :
      IsTagPart .lineComment ('/' :: '/' :: body)
  | blockComment {body : Text} (closed : commentEnd? 0 body = some body.length) :
      IsTagPart .blockComment ('/' :: '*' :: body)
  | string {quote : Char} {body : Text} (isQuote : quote = '"' ∨ quote = '\'')
      (inside : ∀ c ∈ body, (c != quote) = true) :
      IsTagPart .string (quote :: (body ++ [quote]))
  | name {c : Char} {parts : Text} (start : isTagNameStart c = true)
      (inside : ∀ d ∈ parts, isTagNamePart d = true) :
      IsTagPart .name (c :: parts)
  | openBrace : IsTagPart .openBrace ['\x7b']
  | slash : IsTagPart .slash ['/']
  | close : IsTagPart .close ['>']
  | punctuation {c : Char} (sign : c = '=' ∨ c = '.' ∨ c = ':') : IsTagPart .punctuation [c]

/-- A part of a tag is not empty. -/
theorem IsTagPart.ne_nil {part : TagPart} {text : Text} (shape : IsTagPart part text) :
    text ≠ [] := by
  cases shape with
  | whitespace nonempty blank => exact nonempty
  | _ => simp

/-- Whether a part of a tag is complete in front of a text. -/
def TagPart.endsBefore (part : TagPart) (rest : Text) : Bool :=
  match part with
  | .whitespace => !rest.head?.any isTagSpace
  | .lineComment => rest.head?.all isLineFeed
  | .name => !rest.head?.any isTagNamePart
  | .slash => !rest.head?.any fun c => c == '/' || c == '*'
  | _ => true

/-- What a tag goes on with that begins neither a comment nor ends. -/
theorem tagPart?_cons {c : Char} {rest : Text} (notSlash : c ≠ '/') (notClose : c ≠ '>')
    (notBrace : c ≠ '\x7b') :
    tagPart? (c :: rest) =
      if isTagSpace c then some (.whitespace, 1 + runLength isTagSpace rest)
      else if c = '"' || c = '\'' then
        if runLength (· != c) rest < rest.length then
          some (.string, runLength (· != c) rest + 2)
        else none
      else if isTagNameStart c then some (.name, 1 + runLength isTagNamePart rest)
      else if c = '=' || c = '.' || c = ':' then some (.punctuation, 1)
      else none := by
  rw [tagPart?]
  · exact fun _ same => absurd same notSlash
  · exact fun _ same => absurd same notSlash
  · exact notSlash
  · exact notClose
  · exact notBrace

/-- A part that ends before a text is found at the front of it. -/
theorem IsTagPart.tagPart?_eq {part : TagPart} {text : Text} (shape : IsTagPart part text)
    {rest : Text} (ends : part.endsBefore rest = true) :
    tagPart? (text ++ rest) = some (part, text.length) := by
  cases shape with
  | whitespace nonempty blank =>
      obtain ⟨c, more, rfl⟩ := List.exists_cons_of_ne_nil nonempty
      obtain ⟨space, spaces⟩ := List.forall_mem_cons.mp blank
      obtain ⟨notSlash, notClose, notBrace⟩ := not_other_of_isTagSpace space
      have run : runLength isTagSpace (more ++ rest) = more.length :=
        runLength_append_eq_iff.mpr ⟨spaces, by simpa [TagPart.endsBefore] using ends⟩
      rw [List.cons_append, tagPart?_cons notSlash notClose notBrace, if_pos space, run,
        List.length_cons, Nat.add_comm]
  | @lineComment body oneLine =>
      have run : runLength (!isLineFeed ·) (body ++ rest) = body.length := by
        refine runLength_append_eq_iff.mpr ⟨fun c member => by simp [oneLine c member], ?_⟩
        cases rest with
        | nil => rfl
        | cons c rest => simpa [TagPart.endsBefore] using ends
      rw [List.cons_append, List.cons_append, tagPart?, run]
      simp only [List.length_cons]
      rw [show 2 + body.length = body.length + 1 + 1 by omega]
  | @blockComment body closed =>
      have found : commentEnd? 2 (body ++ rest) = some (2 + body.length) := by
        rw [commentEnd?_append, show 2 = 2 + 0 from rfl, commentEnd?_add, closed]
        rfl
      rw [List.cons_append, List.cons_append, tagPart?, found]
      simp only [List.length_cons, Option.map_some]
      rw [show 2 + body.length = body.length + 1 + 1 by omega]
  | @string quote body isQuote inside =>
      have run : runLength (· != quote) (body ++ quote :: rest) = body.length :=
        runLength_append_eq_iff.mpr ⟨inside, by simp⟩
      have notOther : isTagSpace quote = false ∧ quote ≠ '/' ∧ quote ≠ '>' ∧ quote ≠ '\x7b' := by
        rcases isQuote with rfl | rfl <;> decide
      obtain ⟨notSpace, notSlash, notClose, notBrace⟩ := notOther
      have shorter : body.length < (body ++ quote :: rest).length := by
        simp only [List.length_append, List.length_cons]
        omega
      rw [List.cons_append, List.append_assoc, List.singleton_append,
        tagPart?_cons notSlash notClose notBrace, if_neg (by simp [notSpace]),
        if_pos (by simpa using isQuote), run, if_pos shorter]
      simp
  | @name c parts start inside =>
      obtain ⟨notSpace, notSlash, notClose, notBrace, notDouble, notSingle⟩ :=
        not_other_of_isTagNameStart start
      have run : runLength isTagNamePart (parts ++ rest) = parts.length :=
        runLength_append_eq_iff.mpr ⟨inside, by simpa [TagPart.endsBefore] using ends⟩
      rw [List.cons_append, tagPart?_cons notSlash notClose notBrace, if_neg (by simp [notSpace]),
        if_neg (by simp [notDouble, notSingle]), if_pos start, run, List.length_cons, Nat.add_comm]
  | openBrace => rfl
  | slash =>
      rw [List.singleton_append, tagPart?]
      · rfl
      · rintro behind rfl
        simp [TagPart.endsBefore] at ends
      · rintro behind rfl
        simp [TagPart.endsBefore] at ends
  | close => rfl
  | @punctuation c sign =>
      have notOther : isTagSpace c = false ∧ isTagNameStart c = false ∧ c ≠ '"' ∧ c ≠ '\'' ∧
          c ≠ '/' ∧ c ≠ '>' ∧ c ≠ '\x7b' := by
        rcases sign with rfl | rfl | rfl <;> decide
      obtain ⟨notSpace, notName, notDouble, notSingle, notSlash, notClose, notBrace⟩ := notOther
      rw [List.singleton_append, tagPart?_cons notSlash notClose notBrace,
        if_neg (by simp [notSpace]), if_neg (by simp [notDouble, notSingle]),
        if_neg (by simp [notName]), if_pos (by simpa [or_assoc] using sign)]
      rfl

/-- A part that is found stands in front of the text. -/
theorem exists_of_tagPart? {part : TagPart} {size : Nat} {text : Text}
    (found : tagPart? text = some (part, size)) :
    ∃ front rest, text = front ++ rest ∧ size = front.length := by
  have within : size ≤ text.length := by
    unfold tagPart? at found
    split at found
    · contradiction
    · rename_i rest
      have run := runLength_le (!isLineFeed ·) rest
      cases found
      simp only [List.length_cons]
      omega
    · obtain ⟨size, commentEnd, same⟩ := Option.map_eq_some_iff.mp found
      cases same
      have bounds := commentEnd?_bounds commentEnd
      simp only [List.length_cons]
      omega
    · cases found
      simp
    · cases found
      simp
    · cases found
      simp
    · rename_i c rest _ _ _ _ _
      have spaces := runLength_le isTagSpace rest
      have names := runLength_le isTagNamePart rest
      simp only [List.length_cons]
      split at found
      · cases found
        omega
      · split at found
        · dsimp only at found
          split at found
          · cases found
            omega
          · contradiction
        · split at found
          · cases found
            omega
          · split at found
            · cases found
              omega
            · contradiction
  exact ⟨text.take size, text.drop size, by simp, by
    rw [List.length_take, Nat.min_eq_left within]⟩

/-- A front part of known length is known. -/
private theorem eq_of_length {text rest front behind : Text} {size : Nat}
    (spelled : text ++ rest = front ++ behind) (length : front.length = size)
    (same : size = text.length) : text = front ∧ rest = behind :=
  List.append_inj spelled (by omega)

/-- What is found at the front of a tag is a part that ends there. -/
theorem isTagPart_of_tagPart? {part : TagPart} {text rest : Text}
    (found : tagPart? (text ++ rest) = some (part, text.length)) :
    IsTagPart part text ∧ part.endsBefore rest = true := by
  generalize spelled : text ++ rest = whole at found
  unfold tagPart? at found
  split at found
  · contradiction
  · rename_i behind
    obtain ⟨body, behind, rfl, inside, ends⟩ := exists_run (!isLineFeed ·) behind
    rw [runLength_append_eq_iff.mpr ⟨inside, ends⟩] at found
    simp only [Option.some.injEq, Prod.mk.injEq] at found
    obtain ⟨rfl, size⟩ := found
    obtain ⟨rfl, rfl⟩ := @eq_of_length _ _ ('/' :: '/' :: body) _ _ spelled
      (by simp only [List.length_cons]; omega) size
    refine ⟨.lineComment fun c member => by simpa using inside c member, ?_⟩
    cases rest with
    | nil => rfl
    | cons c rest => simpa [TagPart.endsBefore] using ends
  · rename_i behind
    obtain ⟨size, commentEnd, same⟩ := Option.map_eq_some_iff.mp found
    simp only [Prod.mk.injEq] at same
    obtain ⟨rfl, size⟩ := same
    obtain ⟨body, behind, rfl, rfl, closed⟩ := exists_comment commentEnd
    obtain ⟨rfl, rfl⟩ := @eq_of_length _ _ ('/' :: '*' :: body) _ _ spelled
      (by simp only [List.length_cons]; omega) size
    exact ⟨.blockComment closed, rfl⟩
  · rename_i behind noLine noBlock
    simp only [Option.some.injEq, Prod.mk.injEq] at found
    obtain ⟨rfl, size⟩ := found
    obtain ⟨rfl, rfl⟩ := @eq_of_length _ _ ['/'] _ _ spelled rfl size
    refine ⟨.slash, ?_⟩
    cases rest with
    | nil => rfl
    | cons c rest =>
        have notSlash : c ≠ '/' := fun same => noLine rest (by rw [same])
        have notStar : c ≠ '*' := fun same => noBlock rest (by rw [same])
        simp [TagPart.endsBefore, notSlash, notStar]
  · rename_i behind
    simp only [Option.some.injEq, Prod.mk.injEq] at found
    obtain ⟨rfl, size⟩ := found
    obtain ⟨rfl, rfl⟩ := @eq_of_length _ _ ['>'] _ _ spelled rfl size
    exact ⟨.close, rfl⟩
  · rename_i behind
    simp only [Option.some.injEq, Prod.mk.injEq] at found
    obtain ⟨rfl, size⟩ := found
    obtain ⟨rfl, rfl⟩ := @eq_of_length _ _ ['\x7b'] _ _ spelled rfl size
    exact ⟨.openBrace, rfl⟩
  · rename_i c behind _ _ _ _ _
    split at found
    · rename_i space
      obtain ⟨more, behind, rfl, inside, ends⟩ := exists_run isTagSpace behind
      rw [runLength_append_eq_iff.mpr ⟨inside, ends⟩] at found
      simp only [Option.some.injEq, Prod.mk.injEq] at found
      obtain ⟨rfl, size⟩ := found
      obtain ⟨rfl, rfl⟩ := @eq_of_length _ _ (c :: more) _ _ spelled
        (by simp only [List.length_cons]; omega) size
      exact ⟨.whitespace (by simp) (List.forall_mem_cons.mpr ⟨space, inside⟩),
        by simpa [TagPart.endsBefore] using ends⟩
    · split at found
      · rename_i isQuote
        obtain ⟨body, behind, rfl, inside, ends⟩ := exists_run (· != c) behind
        dsimp only at found
        rw [runLength_append_eq_iff.mpr ⟨inside, ends⟩] at found
        split at found
        · rename_i closed
          simp only [Option.some.injEq, Prod.mk.injEq] at found
          obtain ⟨rfl, size⟩ := found
          cases behind with
          | nil => simp at closed
          | cons d behind =>
              have same : d = c := by simpa using ends
              subst same
              obtain ⟨rfl, rfl⟩ := @eq_of_length _ _ (d :: (body ++ [d])) behind _
                (by simpa using spelled) (by simp) size
              exact ⟨.string (by simpa using isQuote) inside, rfl⟩
        · contradiction
      · split at found
        · rename_i start
          obtain ⟨more, behind, rfl, inside, ends⟩ := exists_run isTagNamePart behind
          rw [runLength_append_eq_iff.mpr ⟨inside, ends⟩] at found
          simp only [Option.some.injEq, Prod.mk.injEq] at found
          obtain ⟨rfl, size⟩ := found
          obtain ⟨rfl, rfl⟩ := @eq_of_length _ _ (c :: more) _ _ spelled
            (by simp only [List.length_cons]; omega) size
          exact ⟨.name start inside, by simpa [TagPart.endsBefore] using ends⟩
        · split at found
          · rename_i sign
            simp only [Option.some.injEq, Prod.mk.injEq] at found
            obtain ⟨rfl, size⟩ := found
            obtain ⟨rfl, rfl⟩ := @eq_of_length _ _ [c] _ _ spelled rfl size
            exact ⟨.punctuation (by simpa [or_assoc] using sign), rfl⟩
          · contradiction

/-- Finding a part at the front of a tag means that it has the shape of one and
ends before what follows. -/
theorem tagPart?_append_eq_some_iff {part : TagPart} {text rest : Text} :
    tagPart? (text ++ rest) = some (part, text.length) ↔
      IsTagPart part text ∧ part.endsBefore rest = true :=
  ⟨isTagPart_of_tagPart?, fun ⟨shape, ends⟩ => shape.tagPart?_eq ends⟩

end Deflow.Script
