import Deflow.Path.Basic

/-!
# Components of paths

A path is its anchor and the segments of its text that lead somewhere.  Going on from
a directory along a name adds one component, and the path with another name in place
of that one has the components of the directory again.  So a path below a directory
is determined by the names on it, and any path that ends with a name goes on along it
from the path without it.
-/

namespace Deflow

namespace Text

theorem splitAt_append (mark : Char) (first second : Text) :
    splitAt mark (first ++ mark :: second) = splitAt mark first ++ splitAt mark second := by
  fun_induction splitAt mark first with
  | case1 => simp [splitAt]
  | case2 text inductionHypothesis => simp [splitAt, inductionHypothesis]
  | case3 c text different pieces => exact absurd pieces (splitAt_ne_nil mark text)
  | case4 c text different piece pieces isSplit inductionHypothesis =>
      rw [isSplit] at inductionHypothesis
      simp [splitAt, different, inductionHypothesis]

theorem splitAt_eq_singleton {mark : Char} {text : Text} (without : mark ∉ text) :
    splitAt mark text = [text] := by
  induction text with
  | nil => rfl
  | cons c text inductionHypothesis =>
      rw [List.mem_cons, not_or] at without
      simp [splitAt, Ne.symm without.1, inductionHypothesis without.2]

theorem not_mem_of_mem_splitAt {mark : Char} {text piece : Text}
    (member : piece ∈ splitAt mark text) :
    mark ∉ piece := by
  fun_induction splitAt mark text generalizing piece with
  | case1 => simp_all
  | case2 text inductionHypothesis =>
      rcases List.mem_cons.mp member with rfl | later
      · simp
      · exact inductionHypothesis later
  | case3 c text different pieces => exact absurd pieces (splitAt_ne_nil mark text)
  | case4 c text different first pieces isSplit inductionHypothesis =>
      rw [isSplit] at inductionHypothesis
      rcases List.mem_cons.mp member with rfl | later
      · have clean := inductionHypothesis (List.mem_cons_self ..)
        simp [Ne.symm different, clean]
      · exact inductionHypothesis (List.mem_cons_of_mem _ later)

/-- Joining pieces without marks can be undone, unless there are none. -/
theorem splitAt_joinWith {mark : Char} {pieces : List Text} (nonempty : pieces ≠ [])
    (clean : ∀ piece ∈ pieces, mark ∉ piece) : splitAt mark (joinWith [mark] pieces) = pieces := by
  fun_induction joinWith [mark] pieces with
  | case1 => exact absurd rfl nonempty
  | case2 piece => exact splitAt_eq_singleton (clean piece (List.mem_cons_self ..))
  | case3 piece pieces more inductionHypothesis =>
      rw [List.append_assoc, List.singleton_append, splitAt_append,
        splitAt_eq_singleton (clean piece (List.mem_cons_self ..)),
        inductionHypothesis more fun piece member => clean piece (List.mem_cons_of_mem _ member)]
      rfl

/-- Characters in front of a text, none of them a mark, belong to its first piece. -/
theorem splitAt_append_of_notMem {mark : Char} {front text piece : Text} {pieces : List Text}
    (without : mark ∉ front) (isSplit : splitAt mark text = piece :: pieces) :
    splitAt mark (front ++ text) = (front ++ piece) :: pieces := by
  induction front with
  | nil => exact isSplit
  | cons c front inductionHypothesis =>
      rw [List.mem_cons, not_or] at without
      rw [List.cons_append, splitAt, if_neg (Ne.symm without.1), inductionHypothesis without.2]
      rfl

theorem joinWith_append {mark : Text} {first second : List Text} (nonempty : first ≠ [])
    (alsoNonempty : second ≠ []) :
    joinWith mark (first ++ second) = joinWith mark first ++ mark ++ joinWith mark second := by
  fun_induction joinWith mark first with
  | case1 => exact absurd rfl nonempty
  | case2 piece => rw [List.singleton_append, joinWith.eq_3 _ _ _ alsoNonempty]
  | case3 piece pieces more inductionHypothesis =>
      have longer : pieces ++ second ≠ [] := List.append_ne_nil_of_left_ne_nil more second
      rw [List.cons_append, joinWith.eq_3 _ _ _ longer, inductionHypothesis more]
      simp only [List.append_assoc]

/-- A piece reaches from a mark or the beginning of the text to a mark or its end. -/
theorem mem_splitAt_iff {mark : Char} {piece text : Text} :
    piece ∈ splitAt mark text ↔
      mark ∉ piece ∧ ∃ front back, text = front ++ piece ++ back ∧
        (front = [] ∨ ∃ before, front = before ++ [mark]) ∧
          (back = [] ∨ ∃ behind, back = mark :: behind) := by
  constructor
  · intro member
    refine ⟨not_mem_of_mem_splitAt member, ?_⟩
    rcases List.append_of_mem member with ⟨before, behind, isSplit⟩
    have atFront : ∃ front, joinWith [mark] (before ++ piece :: behind) =
        front ++ joinWith [mark] (piece :: behind) ∧
          (front = [] ∨ ∃ before, front = before ++ [mark]) := by
      by_cases first : before = []
      · exact ⟨[], by rw [first]; rfl, .inl rfl⟩
      · exact ⟨joinWith [mark] before ++ [mark], joinWith_append first (by simp), .inr ⟨_, rfl⟩⟩
    have atBack : ∃ back, joinWith [mark] (piece :: behind) = piece ++ back ∧
        (back = [] ∨ ∃ behind, back = mark :: behind) := by
      by_cases last : behind = []
      · exact ⟨[], by rw [last, joinWith, List.append_nil], .inl rfl⟩
      · refine ⟨mark :: joinWith [mark] behind, ?_, .inr ⟨_, rfl⟩⟩
        rw [joinWith.eq_3 _ _ _ last, List.append_assoc, List.singleton_append]
    rcases atFront with ⟨front, spelledFront, isFront⟩
    rcases atBack with ⟨back, spelledBack, isBack⟩
    refine ⟨front, back, ?_, isFront, isBack⟩
    rw [← joinWith_splitAt mark text, isSplit, spelledFront, spelledBack, List.append_assoc]
  · rintro ⟨without, front, back, rfl, isFront, isBack⟩
    have alone := splitAt_eq_singleton without
    have inFront : piece ∈ splitAt mark (front ++ piece) := by
      rcases isFront with rfl | ⟨before, rfl⟩
      · simp [alone]
      · simp [splitAt_append, alone]
    rcases isBack with rfl | ⟨behind, rfl⟩
    · simpa using inFront
    · rw [splitAt_append]
      exact List.mem_append_left _ inFront

theorem joinWith_isPrefix (mark : Text) (first second : List Text) :
    joinWith mark first <+: joinWith mark (first ++ second) := by
  fun_induction joinWith mark first with
  | case1 => exact List.nil_prefix
  | case2 piece =>
      cases second with
      | nil => exact List.prefix_rfl
      | cons next second => simp [joinWith]
  | case3 piece pieces more inductionHypothesis =>
      rw [List.cons_append, joinWith]
      · exact (List.prefix_append_right_inj _).mpr inductionHypothesis
      · exact fun empty => more (List.append_eq_nil_iff.mp empty).1

end Text

namespace Path

/-- A text that is the name of a file or directory wherever it stands in a path. -/
def IsName (name : Text) : Prop :=
  component? name = some (.name name) ∧ '/' ∉ name

instance (name : Text) : Decidable (IsName name) :=
  inferInstanceAs (Decidable (_ ∧ _))

theorem isName_iff {name : Text} :
    IsName name ↔ name ≠ [] ∧ name ≠ ['.'] ∧ name ≠ ['.', '.'] ∧ '/' ∉ name := by
  unfold IsName component? isIdle
  grind

theorem IsName.not_isIdle {name : Text} (isName : IsName name) : isIdle name = false := by
  have := isName_iff.mp isName
  simp [isIdle, this]

/-! ## Anchors -/

/-- The four ways in which a path can begin. -/
theorem split_cases (path : Path) :
    (∃ rest, path.text = '/' :: rest ∧ path.split = (.root, Text.splitAt '/' rest)) ∨
      (path.text = ['.'] ∧ path.split = (.current, [])) ∨
      (∃ rest, path.text = '.' :: '/' :: rest ∧
        path.split = (.current, [] :: Text.splitAt '/' rest)) ∨
      ((∀ rest, path.text ≠ '/' :: rest) ∧ path.text ≠ ['.'] ∧
        (∀ rest, path.text ≠ '.' :: '/' :: rest) ∧
        path.split = (.none, Text.splitAt '/' path.text)) := by
  unfold split
  split
  · rename_i rest isText
    exact .inl ⟨rest, isText, rfl⟩
  · rename_i isText
    exact .inr (.inl ⟨isText, rfl⟩)
  · rename_i rest isText
    refine .inr (.inr (.inl ⟨rest, isText, ?_⟩))
    simp [Text.splitAt]
  · rename_i notRoot notDot notCurrent
    exact .inr (.inr (.inr ⟨notRoot, notDot, notCurrent, rfl⟩))

theorem filterMap_component?_cons_idle {segment : Text} (idle : isIdle segment = true)
    (segments : List Text) :
    (segment :: segments).filterMap component? = segments.filterMap component? := by
  simp [component?, idle]

theorem components_of_split {path : Path} {anchor : Anchor} {segments : List Text}
    (isSplit : path.split = (anchor, segments)) :
    path.components = anchor.component?.toList ++ segments.filterMap component? := by
  rw [components, isSplit]

theorem splitAt_slash_cons (rest : Text) :
    Text.splitAt '/' ('/' :: rest) = [] :: Text.splitAt '/' rest := by
  simp [Text.splitAt]

theorem splitAt_dot_slash_cons (rest : Text) :
    Text.splitAt '/' ('.' :: '/' :: rest) = ['.'] :: Text.splitAt '/' rest := by
  simp [Text.splitAt]

/-- Idle segments at the front do not matter, so the whole text may be split. -/
theorem components_eq (path : Path) :
    path.components =
      path.split.1.component?.toList ++ (Text.splitAt '/' path.text).filterMap component? := by
  obtain ⟨rest, isText, isSplit⟩ | ⟨isText, isSplit⟩ | ⟨rest, isText, isSplit⟩ |
      ⟨-, -, -, isSplit⟩ :=
    path.split_cases
  · rw [components_of_split isSplit, isSplit, isText, splitAt_slash_cons,
      filterMap_component?_cons_idle (by rfl)]
  · rw [components_of_split isSplit, isSplit, isText]
    rfl
  · rw [components_of_split isSplit, isSplit, isText, splitAt_dot_slash_cons,
      filterMap_component?_cons_idle (by rfl), filterMap_component?_cons_idle (by rfl)]
  · rw [components_of_split isSplit, isSplit]

/-! ## Going on along a name -/

theorem text_join (directory : Path) {name : Text} (isName : IsName name) :
    (directory.join name).text =
      directory.text ++
        (if directory.text.isEmpty || directory.text.getLast? == some '/' then []
          else ['/']) ++ name := by
  have relative : (name.head? == some '/') = false := by
    have noSlash := isName.2
    cases name <;> grind
  unfold join
  rw [if_neg (by simp [relative])]
  split <;> simp

theorem split_fst_join (directory : Path) {name : Text} (isName : IsName name) :
    (directory.join name).split.1 = directory.split.1 := by
  have spelled := directory.text_join isName
  obtain ⟨nonempty, notDot, -, noSlash⟩ := isName_iff.mp isName
  obtain ⟨rest, isText, isSplit⟩ | ⟨isText, isSplit⟩ | ⟨rest, isText, isSplit⟩ |
    ⟨notRoot, notAlone, notCurrent, isSplit⟩ := directory.split_cases
  · rw [isText, List.append_assoc, List.cons_append] at spelled
    rw [isSplit, split, spelled]
    rfl
  · rw [isText] at spelled
    rw [isSplit, split, spelled]
    rfl
  · rw [isText, List.append_assoc, List.cons_append, List.cons_append] at spelled
    rw [isSplit, split, spelled]
    rfl
  · obtain ⟨rest, isJoined, -⟩ | ⟨isJoined, -⟩ | ⟨rest, isJoined, -⟩ | ⟨-, -, -, isJoined⟩ :=
      (directory.join name).split_cases
    · rw [isJoined] at spelled
      cases text : directory.text <;> grind
    · rw [isJoined] at spelled
      cases text : directory.text <;> grind
    · rw [isJoined] at spelled
      cases text : directory.text with
      | nil => grind
      | cons c more => cases more <;> grind
    · rw [isJoined, isSplit]

/-- The segments in front of a name that is put behind a directory, up to a slash at
the end of the directory. -/
theorem exists_splitAt_join (directory : Path) {name : Text} (isName : IsName name) :
    ∃ front, Text.splitAt '/' (directory.join name).text = front ++ [name] ∧
      (Text.splitAt '/' directory.text = front ∨
        Text.splitAt '/' directory.text = front ++ [[]]) := by
  have alone := Text.splitAt_eq_singleton isName.2
  rw [directory.text_join isName]
  split
  · rename_i ends
    rw [List.append_nil]
    rcases List.eq_nil_or_concat directory.text with empty | ⟨front, last, isText⟩
    · refine ⟨[], ?_, ?_⟩ <;> simp [empty, alone, Text.splitAt]
    · rw [List.concat_eq_append] at isText
      obtain rfl : last = '/' := by simpa [isText] using ends
      refine ⟨Text.splitAt '/' front, ?_, .inr ?_⟩
      · rw [isText, List.append_assoc, List.singleton_append, Text.splitAt_append, alone]
      · rw [isText, Text.splitAt_append]
        rfl
  · refine ⟨Text.splitAt '/' directory.text, ?_, .inl rfl⟩
    rw [List.append_assoc, List.singleton_append, Text.splitAt_append, alone]

/-- Going on along a name adds one component. -/
theorem components_join (directory : Path) {name : Text} (isName : IsName name) :
    (directory.join name).components = directory.components ++ [.name name] := by
  obtain ⟨front, isJoined, isFront⟩ := directory.exists_splitAt_join isName
  have same : (Text.splitAt '/' directory.text).filterMap component? =
      front.filterMap component? := by
    rcases isFront with isFront | isFront <;> simp [isFront, component?, isIdle]
  rw [components_eq, components_eq directory, split_fst_join directory isName, isJoined, same]
  simp [isName.1]

theorem fileName?_join (directory : Path) {name : Text} (isName : IsName name) :
    (directory.join name).fileName? = some name := by
  simp [fileName?, directory.components_join isName]

/-! ## Paths below a directory -/

/-- The path that goes on from a directory along names. -/
def below (directory : Path) (names : List Text) : Path :=
  names.foldl join directory

@[simp]
theorem below_nil (directory : Path) : directory.below [] = directory :=
  rfl

@[simp]
theorem below_cons (directory : Path) (name : Text) (names : List Text) :
    directory.below (name :: names) = (directory.join name).below names :=
  rfl

theorem below_snoc (directory : Path) (names : List Text) (name : Text) :
    directory.below (names ++ [name]) = (directory.below names).join name :=
  List.foldl_append

theorem components_below (directory : Path) {names : List Text}
    (areNames : ∀ name ∈ names, IsName name) :
    (directory.below names).components = directory.components ++ names.map .name := by
  induction names generalizing directory with
  | nil => simp
  | cons name names inductionHypothesis =>
      rcases List.forall_mem_cons.mp areNames with ⟨isName, others⟩
      rw [below_cons, inductionHypothesis _ others, components_join _ isName]
      simp

/-- The names on a path below a directory can be read off its components. -/
theorem eq_of_components_below {directory : Path} {first second : List Text}
    (ofFirst : ∀ name ∈ first, IsName name) (ofSecond : ∀ name ∈ second, IsName name)
    (same : (directory.below first).components = (directory.below second).components) :
    first = second := by
  rw [components_below _ ofFirst, components_below _ ofSecond, List.append_cancel_left_eq] at same
  exact (List.map_inj_right fun _ _ => Component.name.inj).mp same

/-! ## Another name in place of the last -/

/-- Segments at the front of a text without an anchor make no anchor. -/
theorem split_ofSplit_none {text : Text} {front : List Text} (notRoot : ∀ rest, text ≠ '/' :: rest)
    (notAlone : text ≠ ['.']) (notCurrent : ∀ rest, text ≠ '.' :: '/' :: rest)
    (isFront : front <+: Text.splitAt '/' text) :
    (ofSplit .none front).split = (.none, Text.splitAt '/' (Text.joinWith ['/'] front)) := by
  obtain ⟨more, isSplit⟩ := isFront
  have spelled : Text.joinWith ['/'] (front ++ more) = text := by
    rw [isSplit, Text.joinWith_splitAt]
  have isText : (ofSplit .none front).text = Text.joinWith ['/'] front := rfl
  have isPrefix : (ofSplit .none front).text <+: text :=
    spelled ▸ Text.joinWith_isPrefix ['/'] front more
  obtain ⟨rest, isJoined, -⟩ | ⟨isJoined, -⟩ | ⟨rest, isJoined, -⟩ | ⟨-, -, -, isJoined⟩ :=
    (ofSplit .none front).split_cases
  · obtain ⟨others, rfl⟩ := isPrefix
    rw [isJoined] at notRoot
    exact absurd rfl (notRoot (rest ++ others))
  · -- The first segment is a dot, so the text is a dot or begins with one and a slash.
    obtain ⟨first, others, rfl⟩ : ∃ first others, front = first :: others := by
      cases front with
      | nil => exact absurd isJoined (by decide)
      | cons first others => exact ⟨first, others, rfl⟩
    cases others with
    | nil =>
        obtain rfl : first = ['.'] := isJoined
        cases more with
        | nil => exact absurd spelled.symm notAlone
        | cons next more => exact absurd spelled.symm (notCurrent _)
    | cons next others =>
        have slash : '/' ∈ (ofSplit .none (first :: next :: others)).text := by
          simp [isText, Text.joinWith]
        rw [isJoined] at slash
        exact absurd slash (by decide)
  · obtain ⟨others, rfl⟩ := isPrefix
    rw [isJoined] at notCurrent
    exact absurd rfl (notCurrent (rest ++ others))
  · rw [isJoined, isText]

/-- Segments at the front of a path make a path with these components. -/
theorem components_ofSplit {path : Path} {front : List Text} (isFront : front <+: path.split.2) :
    (ofSplit path.split.1 front).components =
      path.split.1.component?.toList ++ front.filterMap component? := by
  have clean {text : Text} (isFront : front <+: Text.splitAt '/' text) :
      ∀ segment ∈ front, '/' ∉ segment :=
    fun segment member => Text.not_mem_of_mem_splitAt (isFront.subset member)
  obtain ⟨rest, isText, isSplit⟩ | ⟨isText, isSplit⟩ | ⟨rest, isText, isSplit⟩ |
    ⟨notRoot, notAlone, notCurrent, isSplit⟩ := path.split_cases
  · rw [isSplit] at isFront ⊢
    have again : (ofSplit .root front).split =
        (.root, Text.splitAt '/' (Text.joinWith ['/'] front)) :=
      rfl
    rw [components_of_split again]
    cases front with
    | nil => rfl
    | cons segment front => rw [Text.splitAt_joinWith (by simp) (clean isFront)]
  · rw [isSplit] at isFront ⊢
    obtain rfl := List.prefix_nil.mp isFront
    rfl
  · rw [isSplit] at isFront ⊢
    cases front with
    | nil => rfl
    | cons segment front =>
        obtain ⟨rfl, behind⟩ := List.cons_prefix_cons.mp isFront
        cases front with
        | nil => rfl
        | cons next front =>
            have again : (ofSplit .current ([] :: next :: front)).split = (.current,
                Text.splitAt '/' ([] ++ '/' :: Text.joinWith ['/'] (next :: front))) :=
              rfl
            have clean : ∀ segment ∈ next :: front, '/' ∉ segment :=
              fun segment member => Text.not_mem_of_mem_splitAt (behind.subset member)
            rw [components_of_split again, Text.splitAt_append,
              Text.splitAt_joinWith (by simp) clean]
            rfl
  · rw [isSplit] at isFront ⊢
    rw [components_of_split (split_ofSplit_none notRoot notAlone notCurrent isFront)]
    cases front with
    | nil => rfl
    | cons segment front => rw [Text.splitAt_joinWith (by simp) (clean isFront)]

theorem exists_split_join (directory : Path) {name : Text} (isName : IsName name) :
    ∃ segments, (directory.join name).split = (directory.split.1, segments ++ [name]) := by
  obtain ⟨front, isJoined, -⟩ := directory.exists_splitAt_join isName
  have ends {first : Text} {segments : List Text} (nonempty : segments ≠ [])
      (same : first :: segments = front ++ [name]) : ∃ others, segments = others ++ [name] := by
    cases front with
    | nil => simp_all
    | cons _ others => exact ⟨others, (List.cons.inj same).2⟩
  rw [← split_fst_join directory isName]
  obtain ⟨rest, isText, isSplit⟩ | ⟨isText, isSplit⟩ | ⟨rest, isText, isSplit⟩ |
      ⟨-, -, -, isSplit⟩ :=
    (directory.join name).split_cases
  · rw [isText, splitAt_slash_cons] at isJoined
    obtain ⟨others, isOthers⟩ := ends (Text.splitAt_ne_nil '/' rest) isJoined
    exact ⟨others, by rw [isSplit, isOthers]⟩
  · rw [isText] at isJoined
    have alone : [['.']] = front ++ [name] := isJoined
    cases front with
    | nil => exact absurd (List.cons.inj alone).1.symm (isName_iff.mp isName).2.1
    | cons _ others => simp at alone
  · rw [isText, splitAt_dot_slash_cons] at isJoined
    obtain ⟨others, isOthers⟩ := ends (Text.splitAt_ne_nil '/' rest) isJoined
    exact ⟨[] :: others, by rw [isSplit, isOthers, List.cons_append]⟩
  · exact ⟨front, by rw [isSplit, isJoined]⟩

theorem trimEnd_isPrefix (segments : List Text) : trimEnd segments <+: segments := by
  have isSuffix := List.reverse_prefix.mpr (List.dropWhile_suffix (l := segments.reverse) isIdle)
  rwa [List.reverse_reverse] at isSuffix

theorem filterMap_component?_trimEnd (segments : List Text) :
    (trimEnd segments).filterMap component? = segments.filterMap component? := by
  have dropped (others : List Text) :
      (others.dropWhile isIdle).filterMap component? = others.filterMap component? := by
    induction others with
    | nil => rfl
    | cons segment others inductionHypothesis =>
        rw [List.dropWhile_cons]
        split
        · rename_i idle
          rw [inductionHypothesis, filterMap_component?_cons_idle idle]
        · rfl
  rw [trimEnd, List.filterMap_reverse, dropped, ← List.filterMap_reverse, List.reverse_reverse]

/-- A name that is put behind a directory can be taken away again. -/
theorem components_dropName_join (directory : Path) {name : Text} (isName : IsName name) :
    (directory.join name).dropName.components = directory.components := by
  obtain ⟨segments, isSplit⟩ := directory.exists_split_join isName
  have whole := components_of_split isSplit
  have last : [name].filterMap component? = [.name name] := by
    simp [isName.1]
  rw [components_join _ isName, List.filterMap_append, last, ← List.append_assoc,
    List.append_cancel_right_eq] at whole
  have isDropped : (directory.join name).dropName =
      ofSplit (directory.join name).split.1 (trimEnd segments) := by
    simp [dropName, isSplit, trimEnd, isName.not_isIdle]
  have isFront : trimEnd segments <+: (directory.join name).split.2 := by
    rw [isSplit]
    exact (trimEnd_isPrefix segments).trans (List.prefix_append ..)
  rw [isDropped, components_ofSplit isFront, filterMap_component?_trimEnd, isSplit, whole]

/-! ## Paths that end with a name -/

variable {path : Path} {name : Text}

theorem getLast?_components (isFileName : path.fileName? = some name) :
    path.components.getLast? = some (.name name) := by
  unfold fileName? at isFileName
  split at isFileName
  · rename_i isLast
    rw [isLast, Option.some.inj isFileName]
  · cases isFileName

theorem eq_of_component? {segment : Text} (isComponent : component? segment = some (.name name)) :
    segment = name := by
  unfold component? at isComponent
  grind

theorem isName_of_fileName? (isFileName : path.fileName? = some name) : IsName name := by
  have member := List.mem_of_getLast? (getLast?_components isFileName)
  rw [components_eq, List.mem_append, List.mem_filterMap] at member
  rcases member with isAnchor | ⟨segment, isSegment, isComponent⟩
  · cases anchor : path.split.1 <;> simp [anchor, Anchor.component?] at isAnchor
  · obtain rfl := eq_of_component? isComponent
    exact ⟨isComponent, Text.not_mem_of_mem_splitAt isSegment⟩

/-- The last segment that is left leads somewhere. -/
theorem exists_component?_of_trimEnd {segments front : List Text} {last : Text}
    (isTrimmed : trimEnd segments = front ++ [last]) :
    ∃ component, component? last = some component := by
  have isHead := List.head?_dropWhile_not isIdle segments.reverse
  have isReversed : segments.reverse.dropWhile isIdle = last :: front.reverse := by
    simpa [trimEnd] using congrArg List.reverse isTrimmed
  rw [isReversed] at isHead
  have leads : isIdle last = false := isHead
  by_cases isParent : last = ['.', '.']
  · exact ⟨.parent, by rw [component?, leads, if_neg Bool.false_ne_true, if_pos isParent]⟩
  · exact ⟨.name last, by rw [component?, leads, if_neg Bool.false_ne_true, if_neg isParent]⟩

/-- A path that ends with a name is that name behind the path without it. -/
theorem components_dropName (isFileName : path.fileName? = some name) :
    path.components = path.dropName.components ++ [.name name] := by
  have isLast := getLast?_components isFileName
  have isFront : trimEnd (trimEnd path.split.2).dropLast <+: path.split.2 :=
    ((trimEnd_isPrefix _).trans (List.dropLast_prefix _)).trans (trimEnd_isPrefix _)
  have dropped : path.dropName.components = path.split.1.component?.toList ++
      (trimEnd path.split.2).dropLast.filterMap component? := by
    rw [← filterMap_component?_trimEnd, ← components_ofSplit isFront]
    rfl
  have whole : path.components = path.split.1.component?.toList ++
      (trimEnd path.split.2).filterMap component? := by
    rw [filterMap_component?_trimEnd]
    rfl
  rcases List.eq_nil_or_concat (trimEnd path.split.2) with none | ⟨front, last, isTrimmed⟩
  · rw [whole, none] at isLast
    cases anchor : path.split.1 <;> simp [anchor, Anchor.component?] at isLast
  · rw [List.concat_eq_append] at isTrimmed
    rcases exists_component?_of_trimEnd isTrimmed with ⟨component, isComponent⟩
    have alone : [last].filterMap component? = [component] := by simp [isComponent]
    rw [isTrimmed, List.filterMap_append, alone, ← List.append_assoc] at whole
    rw [isTrimmed, List.dropLast_concat] at dropped
    rw [whole, List.getLast?_concat] at isLast
    rw [whole, dropped, Option.some.inj isLast]

end Path

end Deflow
