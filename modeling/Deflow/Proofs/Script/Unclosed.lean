import Deflow.Document.Parse
import Deflow.Proofs.Script.Tiling

/-!
# Where a script cannot be read

Every character begins some token.  What keeps a script from being read is therefore
always something that begins and does not end: a comment, a string or a template.
What is wrong inside a template is told of the template, and what is wrong inside a
markup element is not told at all, since then there is no such element.
-/

namespace Deflow.Script

/-! ## What begins a token -/

/-- Whether a character begins a token of script. -/
def beginsToken (c : Char) : Bool :=
  isSpace c || isIdentStart c || c == '"' || c == '\'' || c.isDigit || isPunctuation c ||
    c == '\x60'

/-- Every character begins a token. -/
theorem beginsToken_eq_true (c : Char) : beginsToken c = true := by
  by_cases ascii : c.toNat < 128
  · exact of_ascii beginsToken (by decide +kernel) ascii
  · have beyond : 0x80 ≤ c.toNat := Nat.le_of_not_lt ascii
    cases space : isSpace c with
    | true => simp [beginsToken, space]
    | false => simp [beginsToken, isIdentStart, space, beyond]

/-! ## What does not end -/

/-- A comment has no end where there is no star with a slash behind it. -/
theorem commentEnd?_eq_none_iff {size : Nat} {text : Text} :
    commentEnd? size text = none ↔ ¬['*', '/'] <:+: text := by
  fun_induction commentEnd? size text with
  | case1 => simp
  | case2 size text =>
      simp only [reduceCtorEq, false_iff, not_not]
      exact ⟨[], text, rfl⟩
  | case3 size c text notEnd inductionHypothesis =>
      rw [inductionHypothesis, List.infix_cons_iff, not_or]
      constructor
      · intro none
        constructor
        · rintro ⟨rest, spelled⟩
          rcases List.cons.inj spelled with ⟨rfl, behind⟩
          exact notEnd rest rfl behind.symm
        · exact none
      · exact And.right

/-- A string has no end wherever the measure of its length starts. -/
theorem stringEnd?_eq_none_iff {quote : Char} {size : Nat} {text : Text} :
    stringEnd? quote size text = none ↔ stringEnd? quote 0 text = none := by
  have shifted := stringEnd?_add quote size 0 text
  rw [Nat.add_zero] at shifted
  rw [shifted, Option.map_eq_none_iff]

/-- The faults of things that begin and do not end. -/
def endlessFaults : List ScanFault :=
  [.unterminatedComment, .unterminatedString, .unterminatedTemplate]

/-- A failure in front of a comment, a string or a template that begins there and does not
end. -/
inductive Unclosed : Failure → Prop
  | comment {body : Text} (endless : ¬['*', '/'] <:+: body) :
      Unclosed ⟨.unterminatedComment, '/' :: '*' :: body⟩
  | string {quote : Char} {body : Text} (isQuote : quote = '"' ∨ quote = '\'')
      (endless : stringEnd? quote 0 body = none) : Unclosed ⟨.unterminatedString, quote :: body⟩
  | template {fault : ScanFault} {body : Text} (known : fault ∈ endlessFaults)
      (endless : readTemplate ['\x60'] 0 body = .error fault) : Unclosed ⟨fault, '\x60' :: body⟩

theorem Unclosed.fault_mem {failure : Failure} (unclosed : Unclosed failure) :
    failure.fault ∈ endlessFaults := by
  cases unclosed with
  | comment | string => simp [endlessFaults]
  | template known => exact known

/-- Where no token can be read that is no template, a comment or a string does not end. -/
theorem unclosed_of_plainToken {c : Char} {text : Text} {fault : ScanFault}
    (isPlain : c ≠ '\x60') (failed : plainToken (c :: text) = .error fault) :
    Unclosed ⟨fault, c :: text⟩ := by
  by_cases comment : c = '/' ∧ text.head?.any (fun d => d == '/' || d == '*') = true
  · rcases comment with ⟨rfl, second⟩
    cases text with
    | nil => simp at second
    | cons d text =>
        simp only [List.head?_cons, Option.any_some, Bool.or_eq_true, beq_iff_eq] at second
        rcases second with rfl | rfl
        · simp [plainToken] at failed
        · rw [plainToken] at failed
          split at failed
          · contradiction
          · rename_i endless
            cases failed
            exact .comment (commentEnd?_eq_none_iff.mp endless)
  · rw [plainToken_cons (by simpa using comment)] at failed
    have begins := beginsToken_eq_true c
    split at failed
    · contradiction
    · split at failed
      · contradiction
      · split at failed
        · rename_i isQuote
          split at failed
          · contradiction
          · rename_i endless
            cases failed
            exact .string (by simpa using isQuote) (stringEnd?_eq_none_iff.mp endless)
        · split at failed
          · contradiction
          · split at failed
            · contradiction
            · -- The character would begin nothing at all.
              simp_all [beginsToken]

/-! ## One step -/

/-- Script fails where a template or another token cannot be read, or behind that. -/
theorem failed_here_or_behind {stop : Until} {state : ScriptState} {c : Char} {text : Text}
    {failure : Failure} (failed : readScript stop state 0 (c :: text) = .error failure) :
    (c = '\x60' ∧ ∃ fault, readTemplate [c] 0 text = .error fault ∧ failure = ⟨fault, c :: text⟩) ∨
      (c ≠ '\x60' ∧ ∃ fault, plainToken (c :: text) = .error fault ∧ failure = ⟨fault, c :: text⟩) ∨
      ∃ next skip, readScript stop next 0 (text.drop skip) = .error failure := by
  by_cases isTemplate : c = '\x60'
  · rw [readScript.eq_4, if_pos isTemplate] at failed
    split at failed
    · rename_i fault inside
      cases failed
      exact .inl ⟨isTemplate, fault, inside, rfl⟩
    · rw [readScript_skip] at failed
      exact .inr (.inr ⟨_, _, failed⟩)
  · cases plain : plainToken (c :: text) with
    | error fault =>
        rw [readScript.eq_4, if_neg isTemplate, plain] at failed
        cases failed
        exact .inr (.inl ⟨isTemplate, fault, rfl, rfl⟩)
    | ok token =>
        apply Or.inr
        apply Or.inr
        rw [readScript_plain isTemplate plain] at failed
        split at failed
        · split at failed
          · rw [readScript_skip] at failed
            exact ⟨_, _, failed⟩
          · exact ⟨_, 0, failed⟩
        · split at failed
          · split at failed
            · rw [readScript_skip] at failed
              exact ⟨_, _, failed⟩
            · exact ⟨_, 0, failed⟩
          · split at failed
            · contradiction
            · rw [readScript_skip] at failed
              exact ⟨_, _, failed⟩

/-! ## The whole run -/

/-- On texts shorter than a bound, script fails in front of what does not end, or because it
ends itself before its closing brace, and a template because of what does not end. -/
structure FailsUnclosed (bound : Nat) : Prop where
  script {stop : Until} {state : ScriptState} {text : Text} {failure : Failure}
    (short : text.length < bound) (failed : readScript stop state 0 text = .error failure) :
    (stop = .closingBrace ∧ failure.fault = .unexpectedEnd) ∨
      (Unclosed failure ∧ failure.rest <:+ text)
  template {before text : Text} {fault : ScanFault} (short : text.length < bound)
    (failed : readTemplate before 0 text = .error fault) : fault ∈ endlessFaults

theorem FailsUnclosed.script_step {bound : Nat} (fails : FailsUnclosed bound) {stop : Until}
    {state : ScriptState} {text : Text} {failure : Failure} (short : text.length < bound + 1)
    (failed : readScript stop state 0 text = .error failure) :
    (stop = .closingBrace ∧ failure.fault = .unexpectedEnd) ∨
      (Unclosed failure ∧ failure.rest <:+ text) := by
  cases text with
  | nil =>
      cases stop with
      | endOfInput => simp [readScript] at failed
      | closingBrace =>
          rw [readScript.eq_2] at failed
          cases failed
          exact .inl ⟨rfl, rfl⟩
  | cons c text =>
      have shorter : text.length < bound := by simpa using short
      rcases failed_here_or_behind failed with ⟨rfl, fault, inside, rfl⟩ |
        ⟨isPlain, fault, plain, rfl⟩ | ⟨next, skip, behind⟩
      · exact .inr ⟨.template (fails.template shorter inside) inside, List.suffix_rfl⟩
      · exact .inr ⟨unclosed_of_plainToken isPlain plain, List.suffix_rfl⟩
      · have shortest : (text.drop skip).length < bound := by
          rw [List.length_drop]
          omega
        rcases fails.script shortest behind with ended | ⟨unclosed, isRest⟩
        · exact .inl ended
        · apply Or.inr
          apply And.intro unclosed
          exact isRest.trans ((List.drop_suffix skip text).trans (List.suffix_cons c text))

theorem FailsUnclosed.template_step {bound : Nat} (fails : FailsUnclosed bound)
    {before text : Text} {fault : ScanFault} (short : text.length < bound + 1)
    (failed : readTemplate before 0 text = .error fault) : fault ∈ endlessFaults := by
  cases text with
  | nil =>
      rw [readTemplate.eq_1] at failed
      cases failed
      simp [endlessFaults]
  | cons c text =>
      have shorter : text.length < bound := by simpa using short
      by_cases isEnd : c = '\x60'
      · cases text <;> simp [readTemplate, isEnd] at failed
      by_cases escape : c = '\\'
      · subst escape
        cases text with
        | nil =>
            have isFault : ScanFault.unterminatedTemplate = fault := by
              simpa [readTemplate] using failed
            simp [endlessFaults, ← isFault]
        | cons d text =>
            have behind : readTemplate (d :: '\\' :: before) 0 text = .error fault := by
              simpa [readTemplate.eq_4] using failed
            exact fails.template (Nat.lt_trans (Nat.lt_succ_self _) shorter) behind
      by_cases script : c = '$' ∧ text.head? = some '\x7b'
      · rcases script with ⟨rfl, isBrace⟩
        rcases List.head?_eq_some_iff.mp isBrace with ⟨text, rfl⟩
        have shortest : text.length < bound := Nat.lt_trans (Nat.lt_succ_self _) shorter
        cases inner : readScript .closingBrace {} 0 text with
        | ok tokens =>
            rw [readTemplate_script inner, readTemplate_skip] at failed
            apply fails.template _ failed
            rw [List.length_drop]
            omega
        | error failure =>
            rcases failure with ⟨innerFault, rest⟩
            rcases fails.script shortest inner with ⟨_, ended⟩ | ⟨unclosed, _⟩
            · -- The substitution ends with the text, and the template with it.
              replace ended : innerFault = .unexpectedEnd := ended
              subst ended
              have isFault : ScanFault.unterminatedTemplate = fault := by
                simpa [readTemplate, inner] using failed
              simp [endlessFaults, ← isFault]
            · have known : innerFault ∈ endlessFaults := unclosed.fault_mem
              have isFault : innerFault = fault := by
                cases innerFault with
                | unexpectedEnd => simp [endlessFaults] at known
                | _ => simpa [readTemplate, inner] using failed
              exact isFault ▸ known
      · have noScript : c = '$' → text.head? ≠ some '\x7b' := fun dollar brace =>
          script ⟨dollar, brace⟩
        rw [readTemplate_char isEnd escape noScript] at failed
        exact fails.template shorter failed

theorem failsUnclosed (bound : Nat) : FailsUnclosed bound := by
  induction bound with
  | zero =>
      constructor
      all_goals
        intros
        omega
  | succ bound fails =>
      constructor
      · exact fails.script_step
      · exact fails.template_step

/-- Script that runs to the end of the input fails only in front of what does not end. -/
theorem unclosed_of_readScript {state : ScriptState} {text : Text} {failure : Failure}
    (failed : readScript .endOfInput state 0 text = .error failure) :
    Unclosed failure ∧ failure.rest <:+ text := by
  rcases (failsUnclosed (text.length + 1)).script (Nat.lt_succ_self _) failed with ended | unclosed
  · cases ended.1
  · exact unclosed

/-- A source text fails to be read only in front of what does not end. -/
theorem unclosed_of_tokenize {source : Text} {failure : Failure}
    (failed : tokenize source = .error failure) : Unclosed failure ∧ failure.rest <:+ source := by
  unfold tokenize at failed
  split at failed
  · rename_i text
    rw [readScript_skip] at failed
    rcases unclosed_of_readScript failed with ⟨unclosed, isRest⟩
    exact ⟨unclosed, isRest.trans (List.drop_suffix _ _)⟩
  · exact unclosed_of_readScript failed

end Deflow.Script

namespace Deflow

open Script

/-- Where a source text has no tokens, a comment, a string or a template begins that does not
end, and the error says which and where. -/
theorem unclosed_of_tokensOf {source : Text} {error : SyntaxError}
    (failed : tokensOf source = .error error) :
    ∃ (front rest : Text) (fault : ScanFault), source = front ++ rest ∧ Unclosed ⟨fault, rest⟩ ∧
      error.fault = .scan fault ∧ error.position = Position.ofOffset source front.byteLength ∧
      error.fault.message ∈
        ["unterminated block comment", "unterminated string literal",
          "unterminated template literal"] := by
  unfold tokensOf at failed
  split at failed
  · contradiction
  · rename_i failure scanned
    cases failed
    rcases failure with ⟨fault, rest⟩
    rcases unclosed_of_tokenize scanned with ⟨unclosed, front, spelled⟩
    replace spelled : front ++ rest = source := spelled
    subst spelled
    refine ⟨front, rest, fault, rfl, unclosed, rfl, ?_, ?_⟩
    · rw [Position.ofOffset_append, positionOfRest]
      simp
    · have known : fault ∈ endlessFaults := unclosed.fault_mem
      simp only [endlessFaults, List.mem_cons, List.not_mem_nil, or_false] at known
      rcases known with rfl | rfl | rfl
      · exact .head _
      · exact .tail _ (.head _)
      · exact .tail _ (.tail _ (.head _))

/-- A string that does not end, inside a substitution of a template. -/
theorem unclosed_of_tokensOf_substitution :
    let source : Text := "é = <b>\n\x60$\x7b'\x60".toList
    tokensOf source = .error ⟨⟨2, 1⟩, .scan .unterminatedString⟩ ∧
      ∃ front rest : Text, source = front ++ rest ∧
        Unclosed ⟨.unterminatedString, rest⟩ ∧
        ⟨2, 1⟩ = Position.ofOffset source front.byteLength := by
  intro source
  have failed : tokensOf source =
      .error ⟨⟨2, 1⟩, .scan .unterminatedString⟩ := by
    decide +kernel
  rcases unclosed_of_tokensOf failed with ⟨front, rest, fault, spelled, unclosed, isFault, place, _⟩
  cases isFault
  exact ⟨failed, front, rest, spelled, unclosed, place⟩

end Deflow
