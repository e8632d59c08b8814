import Deflow.Proofs.Script.Readers

/-!
# Edited tokens

Tokens are edited by leaving comments out and by changing the white space
between the others.  What is left may read differently: tokens that come to stand
side by side can run together, and a slash or an angle bracket can begin a
regular expression or an element that the comment had broken off.  `Edited` says
what an edit may do and that none of this happens at the tokens it keeps.
-/

namespace Deflow.Script

/-! ## Names of tags -/

/-- Whether a token could belong to the name of a markup tag. -/
def Token.isNameSign (token : Token) : Bool :=
  token.kind == .jsxName || token.isPunct '.' || token.isPunct ':' || token.isPunct '='

/-- Whether tokens go on with what could belong to the name of a tag, comments
and slashes in front of it aside. -/
def continuesName (tokens : List Token) : Bool :=
  (tokens.dropWhile fun token => token.isComment || token.isPunct '/').head?.any Token.isNameSign

/-- Whether a token could stand in a tag behind its opening bracket. -/
def Token.standsInTag (token : Token) : Bool :=
  token.isNameSign || token.isComment || token.kind == .string || token.isPunct '/' ||
    token.isPunct '\x7d'

/-! ## What an edit may do -/

/-- Whether a whole markup element begins behind an angle bracket. -/
def opensElement (text : Text) : Bool :=
  opensMarkup text && (readElement text).isSome

/-- No slash and no angle bracket in a text begins a regular expression or an
element in front of `changed` that it does not begin in front of `rest`. -/
structure SignsStay (text rest changed : Text) : Prop where
  regex : ∀ inner, '/' :: inner <:+ text → (regexLength? (inner ++ changed)).isSome = true →
    (regexLength? (inner ++ rest)).isSome = true
  element : ∀ inner, '<' :: inner <:+ text → opensElement (inner ++ changed) = true →
    opensElement (inner ++ rest) = true

/-- A sign in a text is its first character or stands behind it. -/
theorem forall_sign_cons {sign c : Char} {text : Text} {holds : Text → Prop} :
    (∀ inner, sign :: inner <:+ c :: text → holds inner) ↔
      (c = sign → holds text) ∧ ∀ inner, sign :: inner <:+ text → holds inner := by
  simp only [List.suffix_cons_iff, List.cons.injEq]
  constructor
  · intro all
    exact ⟨fun isSign => all text (.inl ⟨isSign.symm, rfl⟩),
      fun inner inside => all inner (.inr inside)⟩
  · rintro ⟨atHead, inside⟩ inner (⟨rfl, rfl⟩ | isInside)
    · exact atHead rfl
    · exact inside inner isInside

theorem signsStay_cons_iff {c : Char} {text rest changed : Text} :
    SignsStay (c :: text) rest changed ↔
      ((c = '/' → (regexLength? (text ++ changed)).isSome = true →
          (regexLength? (text ++ rest)).isSome = true) ∧
        (c = '<' → opensElement (text ++ changed) = true → opensElement (text ++ rest) = true)) ∧
      SignsStay text rest changed := by
  constructor
  · rintro ⟨regex, element⟩
    obtain ⟨regexAtHead, regex⟩ := forall_sign_cons.mp regex
    obtain ⟨elementAtHead, element⟩ := forall_sign_cons.mp element
    exact ⟨⟨regexAtHead, elementAtHead⟩, regex, element⟩
  · rintro ⟨⟨regexAtHead, elementAtHead⟩, regex, element⟩
    exact ⟨forall_sign_cons.mpr ⟨regexAtHead, regex⟩, forall_sign_cons.mpr ⟨elementAtHead, element⟩⟩

instance decidableSignsStay (rest changed : Text) : ∀ text, Decidable (SignsStay text rest changed)
  | [] => .isTrue ⟨by simp, by simp⟩
  | c :: text =>
    haveI := decidableSignsStay rest changed text
    decidable_of_iff _ signsStay_cons_iff.symm

/-- A token reads the same when the text behind it is changed: it still ends
there, and its signs begin nothing new. -/
structure Stays (token : Token) (rest changed : Text) : Prop where
  ends : changed.head? = rest.head? ∨ token.endsBefore changed = true
  signs : token.kind = .punctuation ∨ token.kind = .template → SignsStay token.text rest changed

instance (token : Token) (rest changed : Text) : Decidable (Stays token rest changed) :=
  decidable_of_iff
    ((changed.head? = rest.head? ∨ token.endsBefore changed = true) ∧
      (token.kind = .punctuation ∨ token.kind = .template → SignsStay token.text rest changed))
    ⟨fun both => ⟨both.1, both.2⟩, fun stays => ⟨stays.ends, stays.signs⟩⟩

/-- Tokens in front of `rest` are edited, so that they stand in front of
`changed`.  If the token directly before them could stand in a tag, which `inTag`
says, then nothing may go in front of what could belong to the tag's name. -/
inductive Edited (rest changed : Text) : (inTag : Bool) → List Token → List Token → Prop
  | nil {inTag : Bool} : Edited rest changed inTag [] []
  | keep {inTag : Bool} {token : Token} {tokens edited : List Token}
      (filled : token.kind ≠ .whitespace)
      (stays : Stays token (Token.spell tokens ++ rest) (Token.spell edited ++ changed))
      (more : Edited rest changed token.standsInTag tokens edited) :
      Edited rest changed inTag (token :: tokens) (token :: edited)
  | drop {inTag : Bool} {token : Token} {tokens edited : List Token}
      (comment : token.isComment = true) (name : inTag = true → continuesName edited = false)
      (more : Edited rest changed inTag tokens edited) :
      Edited rest changed inTag (token :: tokens) edited
  | space {inTag : Bool} {text space : Text} {tokens edited : List Token} (nonempty : space ≠ [])
      (part : ∀ c ∈ space, c ∈ text) (more : Edited rest changed false tokens edited) :
      Edited rest changed inTag (⟨.whitespace, text⟩ :: tokens) (⟨.whitespace, space⟩ :: edited)
  | vanish {inTag : Bool} {text : Text} {tokens edited : List Token}
      (name : inTag = true → continuesName edited = false)
      (more : Edited rest changed false tokens edited) :
      Edited rest changed inTag (⟨.whitespace, text⟩ :: tokens) edited

/-! ## White space put together -/

/-- Tokens with white space in front, as one token with white space that they
begin with. -/
def consSpace (space : Text) : List Token → List Token
  | ⟨.whitespace, text⟩ :: tokens => ⟨.whitespace, space ++ text⟩ :: tokens
  | tokens => ⟨.whitespace, space⟩ :: tokens

/-- Tokens with adjacent white space put together. -/
def joinSpaces : List Token → List Token
  | [] => []
  | ⟨.whitespace, text⟩ :: tokens => consSpace text (joinSpaces tokens)
  | token :: tokens => token :: joinSpaces tokens

theorem joinSpaces_cons {token : Token} (filled : token.kind ≠ .whitespace) (tokens : List Token) :
    joinSpaces (token :: tokens) = token :: joinSpaces tokens := by
  rw [joinSpaces]
  rintro text rfl
  exact filled rfl

@[simp]
theorem spell_consSpace (space : Text) (tokens : List Token) :
    Token.spell (consSpace space tokens) = space ++ Token.spell tokens := by
  unfold consSpace
  split <;> simp

@[simp]
theorem spell_joinSpaces (tokens : List Token) :
    Token.spell (joinSpaces tokens) = Token.spell tokens := by
  fun_induction joinSpaces tokens with
  | case1 => rfl
  | case2 text tokens inductionHypothesis => simp [inductionHypothesis]
  | case3 token tokens _ inductionHypothesis => simp [inductionHypothesis]

theorem consSpace_append {space : Text} {tokens : List Token} (nonempty : tokens ≠ [])
    (more : List Token) : consSpace space (tokens ++ more) = consSpace space tokens ++ more := by
  obtain ⟨⟨kind, text⟩, tokens, rfl⟩ := List.exists_cons_of_ne_nil nonempty
  cases kind <;> rfl

theorem consSpace_ne_nil (space : Text) (tokens : List Token) : consSpace space tokens ≠ [] := by
  unfold consSpace
  split <;> simp

/-- White space is put together on either side of a token that is none. -/
theorem joinSpaces_append {token : Token} (filled : token.kind ≠ .whitespace)
    (front behind : List Token) :
    joinSpaces (front ++ token :: behind) = joinSpaces (front ++ [token]) ++ joinSpaces behind := by
  have nonempty (front : List Token) : joinSpaces (front ++ [token]) ≠ [] := by
    cases front with
    | nil => simp [joinSpaces_cons filled]
    | cons first front =>
        obtain ⟨kind, text⟩ := first
        cases kind <;> simp [joinSpaces, consSpace_ne_nil]
  induction front with
  | nil => simp [joinSpaces_cons filled, joinSpaces]
  | cons first front inductionHypothesis =>
      obtain ⟨kind, text⟩ := first
      by_cases blank : kind = .whitespace
      · subst blank
        simp only [List.cons_append, joinSpaces]
        rw [inductionHypothesis, consSpace_append (nonempty front)]
      · simp only [List.cons_append]
        rw [joinSpaces_cons blank, joinSpaces_cons blank, inductionHypothesis, List.cons_append]

/-! ## Edits of stretches -/

/-- Whether a name goes on is settled by the first token that is neither a comment
nor a slash. -/
theorem continuesName_append {last : Token} (solid : last.isTrivia = false)
    (notSlash : last.isPunct '/' = false) (front behind : List Token) :
    continuesName (front ++ last :: behind) = continuesName (front ++ [last]) := by
  have notComment : last.isComment = false := by
    obtain ⟨kind, text⟩ := last
    cases kind <;> simp_all [Token.isTrivia, Token.isComment]
  unfold continuesName
  induction front with
  | nil => simp [notComment, notSlash]
  | cons first front inductionHypothesis =>
      simp only [List.cons_append, List.dropWhile_cons]
      split
      · exact inductionHypothesis
      · rfl

/-- An edit of two stretches, the first of which ends with a token that stays, is
an edit of either. -/
theorem Edited.exists_append {rest changed : Text} {inTag : Bool}
    {front behind edited : List Token} {last : Token} (solid : last.isTrivia = false)
    (notSlash : last.isPunct '/' = false)
    (edits : Edited rest changed inTag (front ++ last :: behind) edited) :
    ∃ before after, edited = before ++ last :: after ∧
      Edited (Token.spell behind ++ rest) (Token.spell after ++ changed) inTag (front ++ [last])
        (before ++ [last]) ∧
      Edited rest changed last.standsInTag behind after := by
  generalize isWhole : front ++ last :: behind = whole at edits
  induction edits generalizing front with
  | nil => simp at isWhole
  | @keep inTag token tokens edited filled stays more inductionHypothesis =>
      cases front with
      | nil =>
          obtain ⟨rfl, rfl⟩ := List.cons.inj isWhole
          exact ⟨[], edited, rfl, .keep filled stays .nil, more⟩
      | cons first front =>
          rw [List.cons_append] at isWhole
          obtain ⟨rfl, rfl⟩ := List.cons.inj isWhole
          obtain ⟨before, after, rfl, inFront, inBack⟩ := inductionHypothesis rfl
          exact ⟨first :: before, after, rfl, .keep filled (by simpa using stays) inFront, inBack⟩
  | @drop inTag token tokens edited comment name more inductionHypothesis =>
      cases front with
      | nil =>
          obtain ⟨rfl, rfl⟩ := List.cons.inj isWhole
          obtain ⟨kind, text⟩ := last
          cases kind <;> simp [Token.isComment, Token.isTrivia] at comment solid
      | cons first front =>
          rw [List.cons_append] at isWhole
          obtain ⟨rfl, rfl⟩ := List.cons.inj isWhole
          obtain ⟨before, after, rfl, inFront, inBack⟩ := inductionHypothesis rfl
          rw [continuesName_append solid notSlash] at name
          exact ⟨before, after, rfl, .drop comment name inFront, inBack⟩
  | @space inTag text space tokens edited nonempty part more inductionHypothesis =>
      cases front with
      | nil =>
          obtain ⟨rfl, rfl⟩ := List.cons.inj isWhole
          simp [Token.isTrivia] at solid
      | cons first front =>
          rw [List.cons_append] at isWhole
          obtain ⟨rfl, rfl⟩ := List.cons.inj isWhole
          obtain ⟨before, after, rfl, inFront, inBack⟩ := inductionHypothesis rfl
          exact ⟨⟨.whitespace, space⟩ :: before, after, rfl, .space nonempty part inFront, inBack⟩
  | @vanish inTag text tokens edited name more inductionHypothesis =>
      cases front with
      | nil =>
          obtain ⟨rfl, rfl⟩ := List.cons.inj isWhole
          simp [Token.isTrivia] at solid
      | cons first front =>
          rw [List.cons_append] at isWhole
          obtain ⟨rfl, rfl⟩ := List.cons.inj isWhole
          obtain ⟨before, after, rfl, inFront, inBack⟩ := inductionHypothesis rfl
          rw [continuesName_append solid notSlash] at name
          exact ⟨before, after, rfl, .vanish name inFront, inBack⟩

/-- What is neither white space nor a comment stays. -/
theorem Edited.exists_cons {rest changed : Text} {inTag : Bool} {tokens edited : List Token}
    {token : Token} (solid : token.isTrivia = false)
    (edits : Edited rest changed inTag (token :: tokens) edited) :
    ∃ behind, edited = token :: behind ∧
      Stays token (Token.spell tokens ++ rest) (Token.spell behind ++ changed) ∧
      Edited rest changed token.standsInTag tokens behind := by
  cases edits with
  | keep filled stays more => exact ⟨_, rfl, stays, more⟩
  | drop comment name more =>
      obtain ⟨kind, text⟩ := token
      cases kind <;> simp [Token.isComment, Token.isTrivia] at comment solid
  | space nonempty part more => simp [Token.isTrivia] at solid
  | vanish name more => simp [Token.isTrivia] at solid

/-- An edit of a stretch that ends with a token that stays, and of what follows
it. -/
theorem Edited.exists_stretch {rest changed : Text} {inTag : Bool}
    {stretch tokens edited : List Token} {last : Token} (ends : [last] <:+ stretch)
    (solid : last.isTrivia = false) (notSlash : last.isPunct '/' = false)
    (edits : Edited rest changed inTag (stretch ++ tokens) edited) :
    ∃ inner behind, edited = inner ++ behind ∧
      joinSpaces (inner ++ behind) = joinSpaces inner ++ joinSpaces behind ∧
      Edited (Token.spell tokens ++ rest) (Token.spell behind ++ changed) inTag stretch inner ∧
      Edited rest changed last.standsInTag tokens behind := by
  obtain ⟨front, rfl⟩ := ends
  rw [List.append_assoc, List.singleton_append] at edits
  obtain ⟨before, behind, rfl, inFront, inBack⟩ := edits.exists_append solid notSlash
  have filled : last.kind ≠ .whitespace := by
    intro white
    simp [Token.isTrivia, white] at solid
  refine ⟨before ++ [last], behind, by simp, ?_, inFront, inBack⟩
  rw [List.append_assoc, List.singleton_append, joinSpaces_append filled]

/-- A token that ended before still ends. -/
theorem Stays.endsBefore {token : Token} {rest changed : Text} (stays : Stays token rest changed)
    (ends : token.endsBefore rest = true) : token.endsBefore changed = true := by
  rcases stays.ends with same | ends'
  · rw [token.endsBefore_congr same, ends]
  · exact ends'

/-! ## Nothing edited -/

/-- Signs stay in a part of a text, too. -/
theorem SignsStay.of_suffix {text part rest changed : Text} (stay : SignsStay text rest changed)
    (suffix : part <:+ text) : SignsStay part rest changed :=
  ⟨fun inner sign => stay.regex inner (sign.trans suffix),
    fun inner sign => stay.element inner (sign.trans suffix)⟩

/-- Signs stay in the front part of a text in which they stay. -/
theorem SignsStay.of_append {first second rest changed : Text}
    (stay : SignsStay (first ++ second) rest changed) :
    SignsStay first (second ++ rest) (second ++ changed) := by
  constructor
  · rintro inner ⟨before, rfl⟩
    have whole := stay.regex (inner ++ second) ⟨before, by simp⟩
    simpa using whole
  · rintro inner ⟨before, rfl⟩
    have whole := stay.element (inner ++ second) ⟨before, by simp⟩
    simpa using whole

/-- Tokens that are left as they are, in front of a text that only changes
further behind. -/
theorem edited_self {body rest changed : Text} (nonempty : body ≠ []) {inTag : Bool}
    {tokens : List Token} (filled : ∀ token ∈ tokens, token.text ≠ [])
    (signs : SignsStay (Token.spell tokens ++ body) rest changed) :
    Edited (body ++ rest) (body ++ changed) inTag tokens tokens := by
  induction tokens generalizing inTag with
  | nil => exact .nil
  | cons token tokens inductionHypothesis =>
      obtain ⟨first, others⟩ := List.forall_mem_cons.mp filled
      rw [Token.spell_cons, List.append_assoc] at signs
      have behind {inTag : Bool} := @inductionHypothesis inTag others
        (signs.of_suffix (List.suffix_append ..))
      by_cases white : token.kind = .whitespace
      · obtain ⟨kind, text⟩ := token
        subst white
        exact .space first (fun c member => member) behind
      · refine .keep white ⟨.inl ?_, fun _ => ?_⟩ behind
        · cases spelled : Token.spell tokens ++ body with
          | nil => simp [nonempty] at spelled
          | cons c more => simp [← List.append_assoc, spelled]
        · simpa using signs.of_append

end Deflow.Script
