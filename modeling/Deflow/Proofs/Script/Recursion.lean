import Deflow.Proofs.Script.Tiling

/-!
# How the readers call each other

The readers of script, templates and markup call each other and go round their own loops,
each time for a text further on.  This file takes that recursion apart.  A `Call` is a call
of a reader or a further round of its loop, and its `plan` says which calls it makes and
what it makes of their answers, without going into them.  Every such call stands further on
in the source text, or at the same place and on a lower stage, so that there is no infinite
chain of calls.  That a call stands further on is due to what the call before it has taken,
which is never nothing.
-/

namespace Deflow.Script

/-! ## Calls -/

/-- A call of a reader, or a further round of its loop, with the text ahead of it. -/
inductive Call where
  | script (stop : Until) (state : ScriptState) (text : Text)
  /-- A template behind its opening quote, or behind the characters `read`. -/
  | template (read text : Text)
  /-- A markup element at the angle bracket in front of `text`. -/
  | element (text : Text)
  /-- A markup tag at the angle bracket in front of `text`. -/
  | tag (text : Text)
  /-- A round over the inside of a tag. -/
  | tagRound (state : TagState) (text : Text)
  | children (name : Text) (read : List Token) (text : Text)

namespace Call

/-- What a call gives. -/
@[reducible]
def Answer : Call → Type
  | .script .. => Except Failure (List Token)
  | .template .. => Except ScanFault Text
  | .element .. | .children .. => Option (List Token)
  | .tag .. | .tagRound .. => Option Tag

/-- The answer of the reader that is called. -/
def run : (call : Call) → call.Answer
  | .script stop state text => readScript stop state 0 text
  | .template read text => readTemplate read 0 text
  | .element text => readElement text
  | .tag text => readTag {} 0 text
  | .tagRound state text => readTag state 0 text
  | .children name read text => readChildren name read 0 text

/-- The text from the place on at which the call is made. -/
def text : Call → Text
  | .script _ _ text | .template _ text | .tagRound _ text | .children _ _ text => text
  | .element text | .tag text => '<' :: text

/-- The order of calls at one place: script tries an element, and an element and the
children of one begin with a tag. -/
def stage : Call → Nat
  | .script .. => 2
  | .element .. | .children .. => 1
  | .template .. | .tag .. | .tagRound .. => 0

/-- A call stands further on than another, or at the same place and on a lower stage. -/
def Ahead (next origin : Call) : Prop :=
  next.text <:+ origin.text ∧
    (next.text.length < origin.text.length ∨
      next.text = origin.text ∧ next.stage < origin.stage)

end Call

/-! ## Plans -/

/-- What to do for an answer: give it, or make a call and go on with what it gives. -/
inductive Plan (α : Type) : Type where
  | done (answer : α)
  | ask (call : Call) (next : call.Answer → Plan α)

namespace Plan

variable {α : Type}

/-- To make a call and give its answer. -/
def goOn (call : Call) : Plan call.Answer :=
  .ask call .done

/-- What a plan gives if the calls have the given answers. -/
def answer (answers : (call : Call) → call.Answer) : Plan α → α
  | .done answer => answer
  | .ask call next => (next (answers call)).answer answers

/-- The calls that a plan makes if they have the given answers. -/
def calls (answers : (call : Call) → call.Answer) : Plan α → List Call
  | .done _ => []
  | .ask call next => call :: (next (answers call)).calls answers

/-- What a plan gives if each of its calls has an answer. -/
def answer? (answers : (call : Call) → Option call.Answer) : Plan α → Option α
  | .done answer => some answer
  | .ask call next => (answers call).bind fun answer => (next answer).answer? answers

/-- A plan whose calls are all answered gives what it gives with these answers. -/
theorem answer?_eq_some {plan : Plan α} {answers : (call : Call) → call.Answer}
    {known : (call : Call) → Option call.Answer}
    (each : ∀ call ∈ plan.calls answers, known call = some (answers call)) :
    plan.answer? known = some (plan.answer answers) := by
  induction plan with
  | done answer => rfl
  | ask call next inductionHypothesis =>
      rcases List.forall_mem_cons.mp each with ⟨first, others⟩
      rw [answer?, first, Option.bind_some, inductionHypothesis _ others]
      rfl

end Plan

/-- A round over script. -/
def planScript (stop : Until) (state : ScriptState) : Text → Plan (Except Failure (List Token))
  | [] =>
    match stop with
    | .endOfInput => .done (.ok state.read.reverse)
    | .closingBrace => .done (.error ⟨.unexpectedEnd, []⟩)
  | c :: rest =>
    if c = '\x60' then
      .ask (.template [c] rest) fun
        | .error fault => .done (.error ⟨fault, c :: rest⟩)
        | .ok template =>
          .goOn (.script stop (state.push ⟨.template, template⟩) ((c :: rest).drop template.length))
    else
      match plainToken (c :: rest) with
      | .error fault => .done (.error ⟨fault, c :: rest⟩)
      | .ok token =>
        if token.isPunct '/' && state.expressionStart then
          match regexLength? rest with
          | some size =>
            .goOn (.script stop (state.push ⟨.regex, c :: rest.take size⟩) (rest.drop size))
          | none => .goOn (.script stop (state.push token) rest)
        else if token.isPunct '<' && state.expressionStart && opensMarkup rest then
          .ask (.element rest) fun
            | some tokens =>
              .goOn (.script stop (state.pushMarkup tokens) ((c :: rest).drop (Token.size tokens)))
            -- What is no element is read again as script.
            | none => .goOn (.script stop (state.push token) rest)
        else if token.isPunct '\x7d' && state.depth == 0 && stop == .closingBrace then
          .done (.ok (token :: state.read).reverse)
        else
          .goOn (.script stop (state.push token) ((c :: rest).drop token.text.length))

/-- A round over a template. -/
def planTemplate (read : Text) : Text → Plan (Except ScanFault Text)
  | [] => .done (.error .unterminatedTemplate)
  | c :: rest =>
    if c = '\x60' then
      .done (.ok (c :: read).reverse)
    else if c = '\\' then
      match rest with
      | [] => .done (.error .unterminatedTemplate)
      | d :: rest => .goOn (.template (d :: c :: read) rest)
    else if c = '$' then
      match rest with
      | '\x7b' :: rest =>
        .ask (.script .closingBrace {} rest) fun
          | .error ⟨.unexpectedEnd, _⟩ => .done (.error .unterminatedTemplate)
          | .error ⟨fault, _⟩ => .done (.error fault)
          | .ok tokens =>
            .goOn (.template ((Token.spell tokens).reverse ++ '\x7b' :: c :: read)
              (rest.drop (Token.size tokens)))
      | rest => .goOn (.template (c :: read) rest)
    else
      .goOn (.template (c :: read) rest)

/-- An element. -/
def planElement (text : Text) : Plan (Option (List Token)) :=
  .ask (.tag text) fun
    | none => .done none
    | some tag =>
      if tag.closing then .done none
      else if tag.selfClosing then .done (some tag.tokens)
      else
        .goOn (.children tag.name tag.tokens.reverse (('<' :: text).drop (Token.size tag.tokens)))

/-- A round over the inside of a tag. -/
def planTagRound (state : TagState) : Text → Plan (Option Tag)
  | [] => .done none
  | c :: rest =>
    match tagPart? (c :: rest) with
    | none => .done none
    | some (part, size) =>
      match part with
      | .close => .done (some state.finish)
      | .openBrace =>
        .ask (.script .closingBrace {} rest) fun
          | .error _ => .done none
          | .ok tokens =>
            .goOn (.tagRound (state.pushScript tokens) (rest.drop (Token.size tokens)))
      | part =>
        .goOn (.tagRound (state.push part (cut part.kind size (c :: rest)))
          ((c :: rest).drop size))

/-- A round over children. -/
def planChildren (name : Text) (read : List Token) : Text → Plan (Option (List Token))
  | [] => .done none
  | c :: rest =>
    if c = '\x7b' then
      .ask (.script .closingBrace {} rest) fun
        | .error _ => .done none
        | .ok tokens =>
          .goOn (.children name (tokens.reverse ++ Token.punct c :: read)
            (rest.drop (Token.size tokens)))
    else if c = '<' then
      .ask (.tag rest) fun
        | none => .done none
        | some tag =>
          let behind := (c :: rest).drop (Token.size tag.tokens)
          let read := tag.tokens.reverse ++ read
          if tag.closing then
            if tag.name = name then .done (some read.reverse) else .done none
          else if tag.selfClosing then
            .goOn (.children name read behind)
          else
            .ask (.children tag.name [] behind) fun
              | none => .done none
              | some tokens =>
                .goOn (.children name (tokens.reverse ++ read) (behind.drop (Token.size tokens)))
    else
      let size := runLength (fun c => c != '<' && c != '\x7b') (c :: rest)
      .goOn (.children name (cut .jsxText size (c :: rest) :: read) ((c :: rest).drop size))

namespace Call

/-- What a call does. -/
def plan : (call : Call) → Plan call.Answer
  | .script stop state text => planScript stop state text
  | .template read text => planTemplate read text
  | .element text => planElement text
  | .tag text => .goOn (.tagRound {} text)
  | .tagRound state text => planTagRound state text
  | .children name read text => planChildren name read text

/-- The calls that a call makes, further rounds of its own loop among them. -/
def calls (call : Call) : List Call :=
  call.plan.calls run

/-- The answer of a call if it is found with calls within calls to the given depth, where
each round of a loop is one more. -/
def runWithin : Nat → (call : Call) → Option call.Answer
  | 0, _ => none
  | depth + 1, call => call.plan.answer? (runWithin depth)

end Call

/-! ## What a call takes -/

/-- Whatever is read takes some text, unless script ends where the text does. -/
theorem Reads.eq_of_spell_eq_nil {mode : Mode} {text rest : Text} {tokens : List Token}
    (reads : Reads mode text tokens rest) (nothing : Token.spell tokens = []) :
    text = [] ∧ ∃ context, mode = .script .endOfInput context := by
  have filled := reads.text_ne_nil
  cases tokens with
  | cons first more =>
      rw [Token.spell_cons] at nothing
      exact absurd (List.append_eq_nil_iff.mp nothing).1 (filled first List.mem_cons_self)
  | nil =>
      generalize isNil : ([] : List Token) = tokens at reads
      cases reads with
      | scriptEnd => exact ⟨rfl, _, rfl⟩
      | elementEmpty tag | elementWhole tag =>
          rw [tag.tokens_of_tag] at isNil
          simp at isNil
      | _ => cases isNil

theorem eq_ok_of_toOption {ε α : Type} {result : Except ε α} {value : α}
    (success : result.toOption = some value) : result = .ok value := by
  cases result with
  | error fault => cases success
  | ok other => exact congrArg Except.ok (Option.some.inj success)

namespace Call

/-- The text that was read before a call, as far as the call is told of it. -/
def before : Call → Text
  | .script _ state _ => Token.spell state.read.reverse
  | .template read _ => read.reverse
  | .element _ | .tag _ => []
  | .tagRound state _ => Token.spell state.read.reverse
  | .children _ read _ => Token.spell read.reverse

/-- The text that has been read, that before the call included, if an answer tells of
success. -/
def spelled? : (call : Call) → call.Answer → Option Text
  | .script .., answer => answer.toOption.map Token.spell
  | .template .., answer => answer.toOption
  | .element .., answer | .children .., answer => answer.map Token.spell
  | .tag .., answer | .tagRound .., answer => answer.map fun tag => Token.spell tag.tokens

/-- A call that succeeds has taken a front of the text ahead of it, and some text unless it
is script at the end of the text. -/
theorem exists_of_spelled? {call : Call} {whole : Text}
    (success : call.spelled? call.run = some whole) :
    ∃ taken left, whole = call.before ++ taken ∧ call.text = taken ++ left ∧
      (taken = [] → ∃ state, call = .script .endOfInput state []) := by
  have follow (text : Text) := readersFollow (text.length + 1)
  cases call with
  | script stop state text =>
      rcases Option.map_eq_some_iff.mp success with ⟨all, isAll, rfl⟩
      rcases (follow text).script (Nat.lt_succ_self _) (eq_ok_of_toOption isAll) with
        ⟨tokens, rest, reads, rfl⟩
      refine ⟨Token.spell tokens, rest, Token.spell_append .., reads.spelled, fun nothing => ?_⟩
      rcases reads.eq_of_spell_eq_nil nothing with ⟨rfl, _, ⟨⟩⟩
      exact ⟨state, rfl⟩
  | template read text =>
      rcases (follow text).template (Nat.lt_succ_self _) (eq_ok_of_toOption success) with
        ⟨body, rest, reads, rfl⟩
      have spelled : Token.spell [⟨.template, body⟩] = body := List.append_nil body
      refine ⟨body, rest, rfl, spelled ▸ reads.spelled, fun nothing => ?_⟩
      obtain ⟨_, _, ⟨⟩⟩ := reads.eq_of_spell_eq_nil (spelled.trans nothing)
  | element text =>
      rcases Option.map_eq_some_iff.mp success with ⟨all, isAll, rfl⟩
      rcases (follow text).element (Nat.lt_succ_self _) isAll with ⟨tokens, rest, reads, rfl⟩
      exact ⟨'<' :: Token.spell tokens, rest, rfl, congrArg ('<' :: ·) reads.spelled, by simp⟩
  | tag text =>
      rcases Option.map_eq_some_iff.mp success with ⟨tag, isTag, rfl⟩
      rcases (follow text).tag (Nat.lt_succ_self _) isTag with ⟨items, tokens, rest, reads, rfl⟩
      refine ⟨'<' :: Token.spell tokens, rest, ?_, congrArg ('<' :: ·) reads.spelled, by simp⟩
      exact congrArg Token.spell reads.tokens_ofItems
  | tagRound state text =>
      rcases Option.map_eq_some_iff.mp success with ⟨tag, isTag, rfl⟩
      rcases (follow text).tag (Nat.lt_succ_self _) isTag with ⟨items, tokens, rest, reads, rfl⟩
      refine ⟨Token.spell tokens, rest, ?_, reads.spelled, fun nothing => ?_⟩
      · rw [TagState.finish_tokens, List.append_assoc, ← reads.tokens_of_tag]
        exact Token.spell_append ..
      · obtain ⟨_, _, ⟨⟩⟩ := reads.eq_of_spell_eq_nil nothing
  | children name read text =>
      rcases Option.map_eq_some_iff.mp success with ⟨all, isAll, rfl⟩
      rcases (follow text).children (Nat.lt_succ_self _) isAll with ⟨tokens, rest, reads, rfl⟩
      refine ⟨Token.spell tokens, rest, Token.spell_append .., reads.spelled, fun nothing => ?_⟩
      obtain ⟨_, _, ⟨⟩⟩ := reads.eq_of_spell_eq_nil nothing

end Call

/-! ## Where the calls stand -/

/-- A call that is made behind the first character of what another call has ahead. -/
theorem Call.Ahead.of_suffix {next origin : Call} {c : Char} {rest : Text}
    (isText : origin.text = c :: rest) (behind : next.text <:+ rest) : next.Ahead origin := by
  rw [Call.Ahead, isText]
  have within := behind.length_le
  exact ⟨behind.trans (List.suffix_cons c rest), .inl (by simpa using Nat.lt_succ_of_le within)⟩

theorem Call.Ahead.of_stage {next origin : Call} (samePlace : next.text = origin.text)
    (lower : next.stage < origin.stage) : next.Ahead origin :=
  ⟨samePlace ▸ List.suffix_rfl, .inr ⟨samePlace, lower⟩⟩

/-- With the answers of the readers, a plan gives an answer, and all of its calls are ahead
of the call whose plan it is. -/
inductive Plan.Leads (origin : Call) {α : Type} : Plan α → α → Prop
  | done (answer : α) : Leads origin (.done answer) answer
  | ask {call : Call} {next : call.Answer → Plan α} {answer : α} (ahead : call.Ahead origin)
      (more : Leads origin (next call.run) answer) : Leads origin (.ask call next) answer

namespace Plan.Leads

variable {α : Type} {origin : Call} {plan : Plan α} {answer : α}

theorem goOn {call : Call} (ahead : call.Ahead origin) : (Plan.goOn call).Leads origin call.run :=
  .ask ahead (.done _)

theorem ite {condition : Prop} [Decidable condition] {other : Plan α} {otherAnswer : α}
    (holds : condition → plan.Leads origin answer)
    (fails : ¬condition → other.Leads origin otherAnswer) :
    (if condition then plan else other).Leads origin
      (if condition then answer else otherAnswer) := by
  split
  · exact holds ‹_›
  · exact fails ‹_›

theorem answer_eq (leads : plan.Leads origin answer) : plan.answer Call.run = answer := by
  induction leads with
  | done answer => rfl
  | ask ahead more inductionHypothesis => exact inductionHypothesis

theorem ahead_of_mem (leads : plan.Leads origin answer) :
    ∀ call ∈ plan.calls Call.run, call.Ahead origin := by
  induction leads with
  | done answer => simp [Plan.calls]
  | ask ahead more inductionHypothesis =>
      exact List.forall_mem_cons.mpr ⟨ahead, inductionHypothesis⟩

end Plan.Leads

/-! ## Sizes of what was read -/

theorem pos_of_template {c : Char} {rest template : Text}
    (read : readTemplate [c] 0 rest = .ok template) : 0 < template.length := by
  have success : (Call.template [c] rest).spelled? (readTemplate [c] 0 rest) = some template := by
    rw [read]
    rfl
  obtain ⟨taken, _, rfl, _⟩ := Call.exists_of_spelled? success
  exact Nat.zero_lt_succ _

theorem pos_of_element {rest : Text} {tokens : List Token} (read : readElement rest = some tokens) :
    0 < Token.size tokens := by
  rcases readElement_eq_some_iff.mp read with ⟨others, _, _, rfl⟩
  rw [Token.size_eq_length]
  exact Nat.zero_lt_succ _

theorem pos_of_tag {rest : Text} {tag : Tag} (read : readTag {} 0 rest = some tag) :
    0 < Token.size tag.tokens := by
  rcases (readersFollow (rest.length + 1)).tag (Nat.lt_succ_self _) read with
    ⟨items, tokens, _, reads, rfl⟩
  rw [Token.size_eq_length, show (items.foldl TagState.add {}).finish.tokens = _ from
    reads.tokens_ofItems]
  exact Nat.zero_lt_succ _

theorem pos_of_plainToken {text : Text} {token : Token} (plain : plainToken text = .ok token) :
    0 < token.text.length := by
  rcases exists_of_plainToken plain with ⟨rest, rfl⟩
  exact List.length_pos_iff.mpr (plainToken_append_eq_ok_iff.mp plain).1.text_ne_nil

theorem eq_of_plainToken {c d : Char} {rest : Text} {token : Token}
    (plain : plainToken (c :: rest) = .ok token) (isPunct : token.isPunct d = true) : c = d := by
  rcases exists_of_plainToken plain with ⟨behind, spelled⟩
  rw [Token.isPunct_iff.mp isPunct] at spelled
  exact (List.cons.inj spelled).1

theorem pos_of_tagPart? {text : Text} {part : TagPart} {size : Nat}
    (found : tagPart? text = some (part, size)) : 0 < size := by
  rcases exists_of_tagPart? found with ⟨front, rest, rfl, rfl⟩
  exact List.length_pos_iff.mpr (tagPart?_append_eq_some_iff.mp found).1.ne_nil

/-! ## One round of each reader -/

/-- A round over script at a token that is no template. -/
theorem leads_planScript_plain {stop : Until} {state : ScriptState} {c : Char} {rest : Text}
    {token : Token} (isPlain : c ≠ '\x60') (plain : plainToken (c :: rest) = .ok token) :
    (planScript stop state (c :: rest)).Leads (.script stop state (c :: rest))
      (readScript stop state 0 (c :: rest)) := by
  have further (next : ScriptState) {behind : Text} (isBehind : behind <:+ rest) :
      (Plan.goOn (.script stop next behind)).Leads (.script stop state (c :: rest))
        (readScript stop next 0 behind) :=
    .goOn (.of_suffix rfl isBehind)
  rw [readScript_plain isPlain plain, planScript, if_neg isPlain, plain]
  refine .ite (fun _ => ?_) fun _ => .ite (fun isAngle => ?_) fun _ =>
    .ite (fun _ => .done _) fun _ => ?_
  · cases regexLength? rest with
    | none => exact further _ List.suffix_rfl
    | some size =>
        simp only
        rw [readScript_skip]
        exact further _ (List.drop_suffix _ _)
  · -- The element is tried at the angle bracket itself, so that only the stage is lower.
    have isHead : c = '<' := eq_of_plainToken plain (by simp_all)
    refine .ask (.of_stage (congrArg (· :: rest) isHead.symm) (Nat.lt_succ_self 1)) ?_
    simp only [Call.run]
    cases element : readElement rest with
    | none => exact further _ List.suffix_rfl
    | some tokens =>
        simp only
        rw [readScript_skip, List.drop_cons (pos_of_element element)]
        exact further _ (List.drop_suffix _ _)
  · rw [readScript_skip, List.drop_cons (pos_of_plainToken plain)]
    exact further _ (List.drop_suffix _ _)

/-- A round over script does what the reader of script does. -/
theorem leads_planScript (stop : Until) (state : ScriptState) (text : Text) :
    (planScript stop state text).Leads (.script stop state text)
      (readScript stop state 0 text) := by
  cases text with
  | nil => cases stop <;> exact .done _
  | cons c rest =>
      by_cases isTemplate : c = '\x60'
      · rw [planScript, if_pos isTemplate, readScript.eq_4, if_pos isTemplate]
        refine .ask (.of_suffix rfl List.suffix_rfl) ?_
        simp only [Call.run]
        cases read : readTemplate [c] 0 rest with
        | error fault => exact .done _
        | ok template =>
            simp only
            rw [readScript_skip, List.drop_cons (pos_of_template read)]
            exact .goOn (.of_suffix rfl (List.drop_suffix _ _))
      · cases plain : plainToken (c :: rest) with
        | error fault =>
            rw [planScript, if_neg isTemplate, readScript.eq_4, if_neg isTemplate, plain]
            exact .done _
        | ok token => exact leads_planScript_plain isTemplate plain

/-- A round over a template does what the reader of templates does. -/
theorem leads_planTemplate (read text : Text) :
    (planTemplate read text).Leads (.template read text) (readTemplate read 0 text) := by
  cases text with
  | nil => exact .done _
  | cons c rest =>
      have further (next : Text) {behind : Text} (isBehind : behind <:+ rest) :
          (Plan.goOn (.template next behind)).Leads (.template read (c :: rest))
            (readTemplate next 0 behind) :=
        .goOn (.of_suffix rfl isBehind)
      cases rest with
      | nil =>
          rw [planTemplate.eq_2, readTemplate.eq_3]
          refine .ite (fun _ => .done _) fun _ => .ite (fun _ => .done _) fun _ => ?_
          exact .ite (fun _ => further _ List.suffix_rfl) fun _ => further _ List.suffix_rfl
      | cons d rest =>
          rw [planTemplate.eq_3, readTemplate.eq_4]
          refine .ite (fun _ => .done _) fun _ =>
            .ite (fun _ => further _ (List.suffix_cons d rest)) fun _ =>
              .ite (fun _ => ?_) fun _ => further _ List.suffix_rfl
          by_cases isBrace : d = '\x7b'
          · subst isBrace
            refine .ask (.of_suffix rfl (List.suffix_cons _ rest)) ?_
            simp only [Call.run]
            cases readScript .closingBrace {} 0 rest with
            | error failure =>
                rcases failure with ⟨fault, _⟩
                cases fault <;> exact .done _
            | ok tokens =>
                simp only
                rw [readTemplate_skip]
                exact further _ ((List.drop_suffix _ rest).trans (List.suffix_cons _ rest))
          · simpa [isBrace] using further (c :: read) List.suffix_rfl

/-- An element is read as planned. -/
theorem leads_planElement (text : Text) :
    (planElement text).Leads (.element text) (readElement text) := by
  refine .ask (.of_stage rfl Nat.zero_lt_one) ?_
  simp only [Call.run, readElement]
  cases read : readTag {} 0 text with
  | none => exact .done _
  | some tag =>
      refine .ite (fun _ => .done _) fun _ => .ite (fun _ => .done _) fun _ => ?_
      rw [readChildren_skip, List.drop_cons (pos_of_tag read)]
      exact .goOn (.of_suffix rfl (List.drop_suffix _ _))

/-- A round over a tag does what the reader of tags does. -/
theorem leads_planTagRound (state : TagState) (text : Text) :
    (planTagRound state text).Leads (.tagRound state text) (readTag state 0 text) := by
  cases text with
  | nil => exact .done _
  | cons c rest =>
      rw [planTagRound, readTag.eq_3]
      cases found : tagPart? (c :: rest) with
      | none => exact .done _
      | some pair =>
          rcases pair with ⟨part, size⟩
          cases part with
          | close => exact .done _
          | openBrace =>
              refine .ask (.of_suffix rfl List.suffix_rfl) ?_
              simp only [Call.run]
              cases readScript .closingBrace {} 0 rest with
              | error failure => exact .done _
              | ok tokens =>
                  simp only
                  rw [readTag_skip]
                  exact .goOn (.of_suffix rfl (List.drop_suffix _ _))
          | _ =>
              simp only
              rw [readTag_skip, List.drop_cons (pos_of_tagPart? found)]
              exact .goOn (.of_suffix rfl (List.drop_suffix _ _))

/-- A round over children does what the reader of children does. -/
theorem leads_planChildren (name : Text) (read : List Token) (text : Text) :
    (planChildren name read text).Leads (.children name read text)
      (readChildren name read 0 text) := by
  cases text with
  | nil => exact .done _
  | cons c rest =>
      have further (next : List Token) {behind : Text} (isBehind : behind <:+ rest) :
          (Plan.goOn (.children name next behind)).Leads (.children name read (c :: rest))
            (readChildren name next 0 behind) :=
        .goOn (.of_suffix rfl isBehind)
      rw [planChildren, readChildren.eq_3]
      refine .ite (fun isBrace => ?_) fun isBrace => .ite (fun isAngle => ?_) fun isAngle => ?_
      · refine .ask (.of_suffix rfl List.suffix_rfl) ?_
        simp only [Call.run]
        cases readScript .closingBrace {} 0 rest with
        | error failure => exact .done _
        | ok tokens =>
            simp only
            rw [readChildren_skip]
            exact further _ (List.drop_suffix _ _)
      · refine .ask (.of_stage (congrArg (· :: rest) isAngle.symm) Nat.zero_lt_one) ?_
        simp only [Call.run]
        cases tagRead : readTag {} 0 rest with
        | none => exact .done _
        | some tag =>
            simp only
            rw [List.drop_cons (pos_of_tag tagRead)]
            refine .ite (fun _ => .ite (fun _ => .done _) fun _ => .done _) fun _ =>
              .ite (fun _ => ?_) fun _ => ?_
            · rw [readChildren_skip]
              exact further _ (List.drop_suffix _ _)
            · rw [readChildren_skip tag.name]
              refine .ask (.of_suffix rfl (List.drop_suffix _ _)) ?_
              simp only [Call.run]
              cases readChildren tag.name [] 0 (rest.drop (Token.size tag.tokens - 1)) with
              | none => exact .done _
              | some tokens =>
                  simp only
                  rw [readChildren_skip, List.drop_drop]
                  exact further _ (List.drop_suffix _ _)
      · have inClass : (c != '<' && c != '\x7b') = true := by simp [isBrace, isAngle]
        have positive : 0 < runLength (fun c => c != '<' && c != '\x7b') (c :: rest) := by
          simp [runLength, inClass]
        simp only
        rw [readChildren_skip, List.drop_cons positive]
        exact further _ (List.drop_suffix _ _)

/-! ## The whole recursion -/

namespace Call

/-- Every call does what its reader does, and makes calls ahead of it only. -/
theorem leads_plan (call : Call) : call.plan.Leads call call.run := by
  cases call with
  | script stop state text => exact leads_planScript stop state text
  | template read text => exact leads_planTemplate read text
  | element text => exact leads_planElement text
  | tag text => exact .goOn (.of_suffix rfl List.suffix_rfl)
  | tagRound state text => exact leads_planTagRound state text
  | children name read text => exact leads_planChildren name read text

theorem ahead_of_mem_calls {next call : Call} (made : next ∈ call.calls) : next.Ahead call :=
  call.leads_plan.ahead_of_mem next made

/-- How far calls can go: three stages at each character that is left. -/
def reach (call : Call) : Nat :=
  3 * call.text.length + call.stage

theorem Ahead.reach_lt {next origin : Call} (ahead : next.Ahead origin) :
    next.reach < origin.reach := by
  have stages : next.stage ≤ 2 := by cases next <;> simp [stage]
  rcases ahead with ⟨_, shorter | ⟨samePlace, lower⟩⟩
  · simp only [reach]
    omega
  · simp only [reach, samePlace]
    omega

/-- No chain of calls goes on forever. -/
theorem wellFounded_calls : WellFounded fun next call : Call => next ∈ call.calls :=
  Subrelation.wf (fun made => (ahead_of_mem_calls made).reach_lt) (measure reach).wf

/-- Calls within calls to a depth above the reach of a call find its answer. -/
theorem runWithin_eq_some {depth : Nat} {call : Call} (deep : call.reach < depth) :
    runWithin depth call = some call.run := by
  induction depth generalizing call with
  | zero => contradiction
  | succ depth inductionHypothesis =>
      have known : ∀ next ∈ call.plan.calls run, runWithin depth next = some next.run := by
        intro next made
        have lower := (ahead_of_mem_calls made).reach_lt
        exact inductionHypothesis (by omega)
      rw [runWithin, Plan.answer?_eq_some known, call.leads_plan.answer_eq]

/-! ## Offsets -/

/-- The text ahead of a call begins at a byte offset of a source text. -/
def StandsAt (call : Call) (source : Text) (offset : Nat) : Prop :=
  ∃ front, source = front ++ call.text ∧ front.byteLength = offset

/-- The byte offset behind what a call takes that is made at `start` and succeeds. -/
def finish? (call : Call) (start : Nat) : Option Nat :=
  (call.spelled? call.run).map fun whole => start + (whole.byteLength - call.before.byteLength)

/-- A call that is ahead of another stands at a larger offset, or at the same one on a lower
stage. -/
theorem Ahead.standsAt {next origin : Call} {source : Text} {start : Nat}
    (ahead : next.Ahead origin) (stands : origin.StandsAt source start) :
    ∃ offset, next.StandsAt source offset ∧
      (start < offset ∨ start = offset ∧ next.stage < origin.stage) := by
  rcases stands with ⟨front, rfl, rfl⟩
  rcases ahead with ⟨⟨passed, isText⟩, further⟩
  refine ⟨(front ++ passed).byteLength, ⟨front ++ passed, ?_, rfl⟩, ?_⟩
  · rw [← isText, List.append_assoc]
  · rw [Text.byteLength_append]
    rcases further with shorter | ⟨samePlace, lower⟩
    · have positive : 0 < Text.byteLength passed := by
        apply byteLength_pos
        rintro rfl
        rw [← isText] at shorter
        exact absurd shorter (Nat.lt_irrefl _)
      exact .inl (by omega)
    · obtain rfl : passed = [] := by simpa [samePlace] using isText
      exact .inr ⟨rfl, lower⟩

/-- A call that succeeds ends at a larger offset within the source text, and where it began
only if it is script at the end of the text. -/
theorem finish?_bounds {call : Call} {source : Text} {start finish : Nat}
    (stands : call.StandsAt source start) (ends : call.finish? start = some finish) :
    start ≤ finish ∧ (start = finish ↔ ∃ state, call = .script .endOfInput state []) ∧
      finish ≤ source.byteLength := by
  rcases stands with ⟨front, rfl, rfl⟩
  rcases Option.map_eq_some_iff.mp ends with ⟨whole, success, rfl⟩
  rcases exists_of_spelled? success with ⟨taken, left, rfl, isText, onlyAtEnd⟩
  have size : (call.before ++ taken).byteLength - call.before.byteLength = taken.byteLength := by
    rw [Text.byteLength_append, Nat.add_sub_cancel_left]
  rw [size]
  refine ⟨Nat.le_add_right _ _, ⟨fun same => ?_, ?_⟩, ?_⟩
  · apply onlyAtEnd
    by_contra nonempty
    have positive := byteLength_pos nonempty
    omega
  · rintro ⟨state, rfl⟩
    obtain ⟨rfl, _⟩ := List.append_eq_nil_iff.mp isText.symm
    rfl
  · rw [isText, Text.byteLength_append, Text.byteLength_append]
    omega

/-- The readers come to an end on every text.  No chain of calls and rounds goes on forever:
each of them is made at a larger offset than the one that makes it, or at the same offset on
a lower stage.  Carried out to a depth that the text bounds, they give the answers of the
readers, and each that succeeds ends at a larger offset within the text, unless it is script
of which nothing is left. -/
theorem readers_terminate {call : Call} {source : Text} {start : Nat}
    (stands : call.StandsAt source start) :
    (WellFounded fun next call : Call => next ∈ call.calls) ∧
      (∀ next ∈ call.calls, ∃ offset, next.StandsAt source offset ∧
        (start < offset ∨ start = offset ∧ next.stage < call.stage)) ∧
      call.plan.answer run = call.run ∧
      runWithin (3 * call.text.length + call.stage + 1) call = some call.run ∧
      ∀ finish, call.finish? start = some finish →
        start ≤ finish ∧ (start = finish ↔ ∃ state, call = .script .endOfInput state []) ∧
          finish ≤ source.byteLength := by
  refine ⟨wellFounded_calls, fun next made => (ahead_of_mem_calls made).standsAt stands,
    call.leads_plan.answer_eq, runWithin_eq_some (Nat.lt_succ_self _), fun finish ends => ?_⟩
  exact finish?_bounds stands ends

/-- An element whose child is a template with script inside.  Its tag stands at the same
offset, its children behind the tag, and it ends with the text. -/
theorem readers_terminate_element :
    let source : Text := "é=<a>\x7b\x60$\x7bb\x7d\x60\x7d</a>".toList
    let call := Call.element (source.drop 3)
    call.StandsAt source 3 ∧ call.finish? 3 = some 18 ∧
      call.calls.map Call.text = [source.drop 2, source.drop 5] ∧
      (∀ next ∈ call.calls, ∃ offset, next.StandsAt source offset ∧
        (3 < offset ∨ 3 = offset ∧ next.stage < call.stage)) ∧
      18 ≤ source.byteLength := by
  intro source call
  have stands : call.StandsAt source 3 := ⟨source.take 2, rfl, rfl⟩
  have ends : call.finish? 3 = some 18 := by decide +kernel
  have made : call.calls.map Call.text = [source.drop 2, source.drop 5] := by decide +kernel
  obtain ⟨_, ahead, _, _, bounds⟩ := readers_terminate stands
  exact ⟨stands, ends, made, ahead, (bounds 18 ends).2.2⟩

end Call

end Deflow.Script
