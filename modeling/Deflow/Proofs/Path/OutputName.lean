import Deflow.CommandLine.Options
import Deflow.Proofs.Path.Components
import Deflow.Selection.Selector

/-!
# Names of results

A name with an extension is its stem, a dot and the extension.  The result beside a file
has the name with a suffix between stem and dot.  Different names have different results,
and the name of a result is recognized as one.  So the result of any path with an extension
stands beside it, in the same directory, and no two paths share a result.
-/

namespace Deflow

namespace Path

variable {name stem extension : Text}

/-! ## Names cut at the last dot -/

theorem splitName_append_dot (stem : Text) (noDot : '.' ∉ extension) :
    splitName (stem ++ '.' :: extension) =
      if stem = [] then ('.' :: extension, none) else (stem, some extension) := by
  have isExtension :
      ((stem ++ '.' :: extension).reverse.takeWhile (· != '.')).reverse = extension := by
    have dotless : ∀ c ∈ extension.reverse, (c != '.') = true := by
      intro c member
      simpa using ne_of_mem_of_not_mem (List.mem_reverse.mp member) noDot
    rw [List.reverse_append, List.reverse_cons, List.append_assoc,
      List.takeWhile_append_of_pos dotless]
    simp
  have isStem : (stem ++ '.' :: extension).take
      ((stem ++ '.' :: extension).length - extension.length - 1) = stem := by
    rw [List.take_append_of_le_length (by simp; omega), List.take_of_length_le (by simp; omega)]
  rw [splitName, isExtension, isStem]
  by_cases empty : stem = [] <;> simp [empty]

/-- A name with an extension is its stem, a dot and the extension. -/
theorem splitName_eq_some_iff :
    splitName name = (stem, some extension) ↔
      name = stem ++ '.' :: extension ∧ stem ≠ [] ∧ '.' ∉ extension := by
  constructor
  · intro isSplit
    by_cases dotted : '.' ∈ name
    · obtain ⟨back, front, isReversed, noDot⟩ :=
        List.eq_append_cons_of_mem (List.mem_reverse.mpr dotted)
      obtain rfl : name = front.reverse ++ '.' :: back.reverse := by
        simpa using congrArg List.reverse isReversed
      have noDot : '.' ∉ back.reverse := by simpa using noDot
      rw [splitName_append_dot _ noDot] at isSplit
      split at isSplit
      · cases isSplit
      · rename_i nonempty
        obtain ⟨rfl, rfl⟩ : front.reverse = stem ∧ back.reverse = extension := by
          simpa using isSplit
        exact ⟨rfl, nonempty, noDot⟩
    · simp [splitName, dotted] at isSplit
  · rintro ⟨rfl, nonempty, noDot⟩
    rw [splitName_append_dot stem noDot, if_neg nonempty]

end Path

/-! ## Results beside their sources -/

/-- The name of the result for a file of a name. -/
def OutputMode.outputName : OutputMode → Text → Text
  | .sibling suffix, name =>
    let (stem, extension) := Path.splitName name
    stem ++ suffix ++ (extension.map ('.' :: ·)).getD []
  | .inPlace, name => name

/-- If results go beside their inputs, they do so with a suffix that may be given. -/
def OutputMode.IsProper (mode : OutputMode) : Prop :=
  ∀ suffix, mode = .sibling suffix → CommandLine.isSuffix suffix = true

namespace OutputMode

open Deflow.Path

variable {mode : OutputMode} {directory : Path} {suffix name other stem extension : Text}

theorem ne_nil_of_isSuffix (isSuffix : CommandLine.isSuffix suffix = true) : suffix ≠ [] := by
  rintro rfl
  cases isSuffix

theorem isProper_sibling (isSuffix : CommandLine.isSuffix suffix = true) :
    (sibling suffix).IsProper := by
  intro other same
  cases same
  exact isSuffix

theorem outputName_of_splitName (isSplit : splitName name = (stem, some extension)) :
    (sibling suffix).outputName name = (stem ++ suffix) ++ '.' :: extension := by
  simp [outputName, isSplit]

/-- The result beside a file goes along its own name from the path without the file's. -/
theorem withSuffix_eq_join {path : Path} (isFileName : path.fileName? = some name) :
    path.withSuffix suffix = path.dropName.join ((sibling suffix).outputName name) := by
  simp only [withSuffix, withFileName, fileStem?, extension?, isFileName, outputName]
  cases isSplit : splitName name with
  | mk stem extension => cases extension <;> simp [isSplit]

/-- The result for a file goes along its own name from a path to the same directory. -/
theorem exists_outputPath_join (mode : OutputMode) (directory : Path) (isName : IsName name) :
    ∃ front : Path, front.components = directory.components ∧
      mode.outputPath (directory.join name) = front.join (mode.outputName name) := by
  cases mode with
  | inPlace => exact ⟨directory, rfl, rfl⟩
  | sibling suffix =>
      exact ⟨_, directory.components_dropName_join isName,
        withSuffix_eq_join (directory.fileName?_join isName)⟩

theorem isName_outputName (isProper : mode.IsProper) (isName : IsName name)
    (isSplit : splitName name = (stem, some extension)) : IsName (mode.outputName name) := by
  cases mode with
  | inPlace => exact isName
  | sibling suffix =>
      obtain ⟨rfl, nonempty, -⟩ := splitName_eq_some_iff.mp isSplit
      have proper := isProper suffix rfl
      simp only [CommandLine.isSuffix, Bool.and_eq_true, Bool.not_eq_true',
        List.isEmpty_eq_false_iff, List.contains_eq_mem, decide_eq_false_iff_not] at proper
      have noSlash := (isName_iff.mp isName).2.2.2
      have long : 3 ≤ ((stem ++ suffix) ++ '.' :: extension).length := by
        have := List.length_pos_iff.mpr nonempty
        have := List.length_pos_iff.mpr proper.1.1
        simp only [List.length_append, List.length_cons]
        omega
      rw [outputName_of_splitName isSplit, isName_iff]
      refine ⟨?_, ?_, ?_, ?_⟩
      · intro empty
        simp [empty] at long
      · intro dot
        simp [dot] at long
      · intro dots
        simp [dots] at long
      · simp_all

/-- The name of a result is cut into the stem with the suffix and the extension. -/
theorem splitName_outputName (isSplit : splitName name = (stem, some extension)) :
    splitName ((sibling suffix).outputName name) = (stem ++ suffix, some extension) := by
  obtain ⟨_, nonempty, noDot⟩ := splitName_eq_some_iff.mp isSplit
  rw [outputName_of_splitName isSplit, splitName_append_dot _ noDot, if_neg (by simp [nonempty])]

/-- No file is its own result. -/
theorem outputName_ne (isSuffix : CommandLine.isSuffix suffix = true)
    (isSplit : splitName name = (stem, some extension)) :
    (sibling suffix).outputName name ≠ name := by
  intro same
  have cut : splitName ((sibling suffix).outputName name) = (stem ++ suffix, some extension) :=
    splitName_outputName isSplit
  rw [same, isSplit, Prod.mk.injEq, List.self_eq_append_right] at cut
  exact ne_nil_of_isSuffix isSuffix cut.1

/-- Different names have different results. -/
theorem outputName_inj {otherStem otherExtension : Text}
    (isSplit : splitName name = (stem, some extension))
    (alsoSplit : splitName other = (otherStem, some otherExtension))
    (same : mode.outputName name = mode.outputName other) : name = other := by
  cases mode with
  | inPlace => exact same
  | sibling suffix =>
      have cut := congrArg splitName same
      rw [splitName_outputName isSplit, splitName_outputName alsoSplit, Prod.mk.injEq,
        List.append_cancel_right_eq, Option.some.injEq] at cut
      rw [(splitName_eq_some_iff.mp isSplit).1, (splitName_eq_some_iff.mp alsoSplit).1,
        cut.1, cut.2]

end OutputMode

namespace Selector

open Deflow.Path OutputMode

variable {selector : Selector} {directory : Path} {suffix name stem extension : Text}

/-- A file that is processed has an extension. -/
theorem exists_splitName (isName : IsName name)
    (isProcess : selector.fileFate (directory.join name) name = .process) :
    ∃ stem extension, splitName name = (stem, some extension) := by
  have eligible : selector.isEligible (directory.join name) = true := by
    unfold fileFate at isProcess
    grind
  simp only [isEligible, extension?, directory.fileName?_join isName, Option.bind_some,
    Option.any_eq_true] at eligible
  obtain ⟨extension, isExtension, -⟩ := eligible
  exact ⟨_, extension, Prod.ext rfl isExtension⟩

/-- A result is recognized by its name. -/
theorem isDerived_of_splitName {path : Path} (isSuffix : selector.suffix = some suffix)
    (isProper : CommandLine.isSuffix suffix = true) (isFileName : path.fileName? = some name)
    (isSplit : splitName name = (stem ++ suffix, some extension)) :
    selector.isDerived path = true := by
  simp [isDerived, isSuffix, fileStem?, isFileName, isSplit, ne_nil_of_isSuffix isProper]

/-- A result is never processed. -/
theorem fileFate_outputName (isSuffix : selector.suffix = some suffix)
    (isProper : CommandLine.isSuffix suffix = true) (isName : IsName name)
    (isSplit : splitName name = (stem, some extension)) (directory : Path) :
    let output := (sibling suffix).outputName name
    selector.fileFate (directory.join output) output ≠ .process := by
  intro output
  have nameOutput : IsName output :=
    isName_outputName (isProper_sibling isProper) isName isSplit
  have derived : selector.isDerived (directory.join output) = true :=
    isDerived_of_splitName isSuffix isProper (directory.fileName?_join nameOutput)
      (splitName_outputName isSplit)
  unfold fileFate
  grind

theorem suffix_of_ofSettings {settings : Settings} {workingDirectory : Path}
    (isSelector : ofSettings settings workingDirectory = .ok selector) :
    selector.suffix = settings.output.suffix? := by
  unfold ofSettings at isSelector
  cases isRead : readIgnoreNames settings.skip.ignoreNames with
  | error invalid =>
      rw [isRead] at isSelector
      cases isSelector
  | ok ignoreNames =>
      rw [isRead] at isSelector
      exact congrArg Selector.suffix (Except.ok.inj isSelector).symm

end Selector

/-! ## Paths of results -/

namespace Path

variable {path other : Path} {suffix name stem extension : Text}

theorem exists_splitName_of_extension? (hasExtension : path.extension?.isSome = true) :
    ∃ name stem extension, path.fileName? = some name ∧
      splitName name = (stem, some extension) := by
  rcases Option.isSome_iff_exists.mp hasExtension with ⟨extension, isExtension⟩
  rcases Option.bind_eq_some_iff.mp isExtension with ⟨name, isFileName, isCut⟩
  exact ⟨name, (splitName name).1, extension, isFileName, Prod.ext rfl isCut⟩

theorem fileStem?_of_splitName (isFileName : path.fileName? = some name)
    (isSplit : splitName name = (stem, some extension)) : path.fileStem? = some stem := by
  rw [fileStem?, isFileName, Option.map_some, isSplit]

theorem extension?_of_splitName (isFileName : path.fileName? = some name)
    (isSplit : splitName name = (stem, some extension)) : path.extension? = some extension := by
  rw [extension?, isFileName, Option.bind_some, isSplit]

/-- A path beside another: in the same directory, with the same extension and with a
suffix behind the stem.  It leads elsewhere, and is taken for a result by every run
that puts results there. -/
structure IsBeside (suffix : Text) (path output : Path) : Prop where
  sameDirectory : output.dropName.same path.dropName = true
  sameExtension : output.extension? = path.extension?
  suffixed : ∃ stem, path.fileStem? = some stem ∧ output.fileStem? = some (stem ++ suffix)
  elsewhere : output.same path = false
  asEligible : ∀ selector : Selector, selector.isEligible output = selector.isEligible path
  recognized : ∀ (settings : Settings) (workingDirectory : Path) (selector : Selector),
    settings.output = .sibling suffix →
      Selector.ofSettings settings workingDirectory = .ok selector →
      selector.isDerived output = true

theorem same_iff {first second : Path} :
    first.same second = true ↔ first.components = second.components :=
  beq_iff_eq

theorem isName_outputName_of_fileName? (isSuffix : CommandLine.isSuffix suffix = true)
    (isFileName : path.fileName? = some name) (isSplit : splitName name = (stem, some extension)) :
    IsName ((OutputMode.sibling suffix).outputName name) :=
  OutputMode.isName_outputName (OutputMode.isProper_sibling isSuffix)
    (isName_of_fileName? isFileName) isSplit

/-- The result of a file stands in the directory of the file, under the name of a result. -/
theorem components_withSuffix (isSuffix : CommandLine.isSuffix suffix = true)
    (isFileName : path.fileName? = some name) (isSplit : splitName name = (stem, some extension)) :
    (path.withSuffix suffix).components =
      path.dropName.components ++ [.name ((OutputMode.sibling suffix).outputName name)] := by
  have isName := isName_outputName_of_fileName? isSuffix isFileName isSplit
  rw [OutputMode.withSuffix_eq_join isFileName, components_join _ isName]

theorem isBeside_withSuffix (isSuffix : CommandLine.isSuffix suffix = true)
    (hasExtension : path.extension?.isSome = true) :
    IsBeside suffix path (path.withSuffix suffix) := by
  rcases exists_splitName_of_extension? hasExtension with
    ⟨name, stem, extension, isFileName, isSplit⟩
  have isName := isName_outputName_of_fileName? isSuffix isFileName isSplit
  have outputName : (path.withSuffix suffix).fileName? =
      some ((OutputMode.sibling suffix).outputName name) := by
    rw [OutputMode.withSuffix_eq_join isFileName, fileName?_join _ isName]
  have outputSplit :
      splitName ((OutputMode.sibling suffix).outputName name) = (stem ++ suffix, some extension) :=
    OutputMode.splitName_outputName isSplit
  have sameExtension : (path.withSuffix suffix).extension? = path.extension? := by
    rw [extension?_of_splitName outputName outputSplit, extension?_of_splitName isFileName isSplit]
  refine ⟨?_, sameExtension, ?_, ?_, ?_, ?_⟩
  · rw [same_iff, OutputMode.withSuffix_eq_join isFileName, components_dropName_join _ isName]
  · exact ⟨stem, fileStem?_of_splitName isFileName isSplit,
      fileStem?_of_splitName outputName outputSplit⟩
  · rw [Bool.eq_false_iff, ne_eq, same_iff, components_withSuffix isSuffix isFileName isSplit,
      components_dropName isFileName]
    intro same
    have sameName := (List.append_inj' same rfl).2
    exact OutputMode.outputName_ne isSuffix isSplit (by simpa using sameName)
  · intro selector
    rw [Selector.isEligible, Selector.isEligible, sameExtension]
  · intro settings workingDirectory selector isMode isSelector
    have ofSettings := Selector.suffix_of_ofSettings isSelector
    rw [isMode] at ofSettings
    exact Selector.isDerived_of_splitName ofSettings isSuffix outputName outputSplit

theorem same_of_withSuffix (isSuffix : CommandLine.isSuffix suffix = true)
    (hasExtension : path.extension?.isSome = true) (alsoExtension : other.extension?.isSome = true)
    (same : (path.withSuffix suffix).same (other.withSuffix suffix) = true) :
    path.same other = true := by
  rcases exists_splitName_of_extension? hasExtension with ⟨name, _, _, isFileName, isSplit⟩
  rcases exists_splitName_of_extension? alsoExtension with
    ⟨otherName, _, _, alsoFileName, alsoSplit⟩
  rw [same_iff, components_withSuffix isSuffix isFileName isSplit,
    components_withSuffix isSuffix alsoFileName alsoSplit] at same
  rcases List.append_inj' same rfl with ⟨sameDirectory, sameName⟩
  have sameName : name = otherName :=
    OutputMode.outputName_inj isSplit alsoSplit (by simpa using sameName)
  rw [same_iff, components_dropName isFileName, components_dropName alsoFileName,
    sameDirectory, sameName]

/-- The result of a file with an extension stands beside it, and different files have
different results.  Paths are the same if they have the same components. -/
theorem withSuffix_beside {suffix : Text} (isSuffix : CommandLine.isSuffix suffix = true) :
    (∀ path : Path, path.extension?.isSome = true → path.IsBeside suffix (path.withSuffix suffix)) ∧
      ∀ first second : Path, first.extension?.isSome = true → second.extension?.isSome = true →
        (first.withSuffix suffix).same (second.withSuffix suffix) = true →
          first.same second = true := by
  constructor
  · intro path hasExtension
    exact isBeside_withSuffix isSuffix hasExtension
  · intro first second hasExtension alsoExtension same
    exact same_of_withSuffix isSuffix hasExtension alsoExtension same

/-- A suffix that ends with a dot, behind stems that end with dots, in front of an empty
extension. -/
theorem withSuffix_beside_dots :
    let suffix := ".x.".toList
    let first := Path.mk "./d//..a..".toList
    let second := Path.mk "./d/./..a../".toList
    CommandLine.isSuffix suffix = true ∧ first.extension? = some [] ∧
      first.withSuffix suffix = Path.mk "./d/..a..x..".toList ∧
      first.IsBeside suffix (first.withSuffix suffix) ∧ first.same second = true := by
  intro suffix first second
  have isSuffix : CommandLine.isSuffix suffix = true := by decide
  obtain ⟨beside, unique⟩ := withSuffix_beside isSuffix
  exact ⟨isSuffix, by decide, by decide, beside first (by decide),
    unique first second (by decide) (by decide) (by decide)⟩

end Path

end Deflow
