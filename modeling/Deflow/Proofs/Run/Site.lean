import Deflow.Proofs.Run.Processing
import Deflow.Proofs.Run.TreeSurvey

/-!
# Sites

A site is a directory in a tree of files and directories, together with how files there are
chosen and processed.  While the files of a site are processed one after the other, every
file still holds what it held at the beginning when its turn comes, and every directory
lists what it listed at the beginning: results have names of their own, and they go into
directories that were listed already.
-/

namespace Deflow

open Deflow.Path

/-! ## Listings in trees of the same frame -/

/-- A directory lists the same if the same stands directly below it. -/
theorem FileTree.SameFrame.list_below {tree other : FileTree} (isTree : tree.IsTree)
    (frame : tree.SameFrame other) {root : Path} {base : Place} {readable : Bool}
    (located : tree.locate .look root = .ok (.found base (.directory readable))) {names : List Text}
    (holds : (tree.survey root).Holds names)
    (same : other.entriesAt (base ++ names) = tree.entriesAt (base ++ names)) :
    other.list (root.below names) = tree.list (root.below names) := by
  have sameTarget (place : Place) (readable : Bool)
      (same : other.entriesAt place = tree.entriesAt place) :
      other.listTarget (.found place (.directory readable)) =
        tree.listTarget (.found place (.directory readable)) := by
    cases readable <;> simp [listTarget, same]
  cases holds with
  | root =>
      rw [List.append_nil] at same
      rw [below_nil, list_eq, list_eq, frame.locate located, located]
      exact sameTarget base readable same
  | @child names entries name holds listing member =>
      obtain ⟨start, opens, opensBelow⟩ := isTree.exists_opens holds listing
      obtain rfl : base = start :=
        (Target.found.inj (Except.ok.inj (located.symm.trans opens))).1
      obtain rfl := Except.ok.inj (listing.symm.trans opensBelow.list)
      obtain ⟨node, stands, -, isDirectory⟩ := isTree.mem_entriesAt_iff.mp member
      cases node with
      | directory inner =>
          have leads := leadsTo_of_locate opensBelow
          have isName := (isTree.of_snoc stands).1
          have alsoStands := frame.get?_directory stands
          have located := leads.locate_join .look isName fun target isLink => by
            cases stands.symm.trans isLink
          have alsoLocated :=
            LeadsTo.locate_join (frame.leads leads) .look isName fun target isLink => by
            cases alsoStands.symm.trans isLink
          rw [← List.append_assoc] at same
          rw [below_snoc, list_eq, list_eq, located, alsoLocated]
          cases refusal? ((root.below names).join name) name with
          | some error => rfl
          | none =>
              simp only [targetAt, stands, alsoStands]
              exact sameTarget _ inner same
      | _ => cases isDirectory

/-! ## Sites and their files -/

/-- A directory in a tree of files and directories, and how a run goes over it. -/
structure Site where
  settings : Settings
  workingDirectory : Path
  input : Path
  selector : Selector
  isSelector : Selector.ofSettings settings workingDirectory = .ok selector
  isProper : settings.output.IsProper
  tree : FileTree
  isTree : tree.IsTree
  isPlain : tree.IsPlain
  /-- Where the directory is. -/
  base : Place
  located : ∃ readable,
    tree.locate .look (workingDirectory.join input.text) = .ok (.found base (.directory readable))

namespace Site

variable {site : Site} {names file other : List Text} {name : Text} {entries : List DirectoryEntry}
  {tree : FileTree}

/-- The path of the directory. -/
def root (site : Site) : Path :=
  site.workingDirectory.join site.input.text

def processor (site : Site) : Processor :=
  .ofSettings site.settings

def walker (site : Site) : Walker (StateM FileTree) :=
  .onTrees site.settings site.selector

theorem suffix_eq (site : Site) : site.selector.suffix = site.settings.output.suffix? :=
  Selector.suffix_of_ofSettings site.isSelector

/-- A file of a site that is to be processed. -/
inductive IsTask (site : Site) : List Text → Prop where
  | mk {names : List Text} {name : Text} {content : Content}
      (opens : site.tree.Opens (site.root.below names) (site.base ++ names))
      (areNames : ∀ part ∈ names, IsName part) (isName : IsName name)
      (stands : site.tree.get? (site.base ++ names ++ [name]) = some (.file content))
      (isProcess : site.selector.fileFate ((site.root.below names).join name) name = .process) :
      IsTask site (names ++ [name])

theorem base_eq {start : Place} (site : Site) (opens : site.tree.Opens site.root start) :
    site.base = start := by
  obtain ⟨readable, located⟩ := site.located
  exact (FileTree.Target.found.inj (Except.ok.inj (located.symm.trans opens))).1

theorem isTask_of_holds (holds : (site.tree.survey site.root).Holds names)
    (listing : site.tree.survey site.root names = .ok entries)
    (chosen : name ∈ site.selector.files .process (site.root.below names) entries) :
    site.IsTask (names ++ [name]) := by
  obtain ⟨member, isProcess⟩ := Selector.mem_files_iff.mp chosen
  obtain ⟨start, opens, opensBelow⟩ := site.isTree.exists_opens holds listing
  obtain rfl := site.base_eq opens
  obtain rfl := Except.ok.inj (listing.symm.trans opensBelow.list)
  obtain ⟨node, stands, isPlain, isFile⟩ := site.isTree.mem_entriesAt_iff.mp member
  cases node with
  | file content =>
      exact .mk opensBelow (holds.isName (site.isTree.orderly site.root))
        (site.isTree.of_snoc stands).1 stands isProcess
  | directory readable => cases isFile
  | link target | special => cases isPlain

theorem isTask_of_meets (holds : (site.tree.survey site.root).Holds names)
    (meets : (site.tree.survey site.root).Meets site.selector site.root .process names file) :
    site.IsTask file := by
  induction meets with
  | here listing chosen => exact isTask_of_holds holds listing chosen
  | child listing chosen _ inductionHypothesis =>
      exact inductionHypothesis
        (.child holds listing (Selector.mem_subdirectories_iff.mp chosen).1)

/-! ## Results -/

/-- The result for a file, by the names that lead to it. -/
def outputFile (site : Site) (file : List Text) : List Text :=
  file.dropLast ++ (file.getLast?.map site.settings.output.outputName).toList

@[simp]
theorem outputFile_snoc (site : Site) (names : List Text) (name : Text) :
    site.outputFile (names ++ [name]) = names ++ [site.settings.output.outputName name] := by
  simp [outputFile]

theorem base_append_outputFile_ne_nil (isTask : site.IsTask file) :
    site.base ++ site.outputFile file ≠ [] := by
  cases isTask
  simp

/-- Different files have different results. -/
theorem outputFile_inj (isTask : site.IsTask file) (alsoTask : site.IsTask other)
    (same : site.outputFile file = site.outputFile other) : file = other := by
  obtain ⟨_, _, isName, _, isProcess⟩ := isTask
  obtain ⟨_, _, alsoName, _, alsoProcess⟩ := alsoTask
  obtain ⟨stem, extension, isSplit⟩ := Selector.exists_splitName isName isProcess
  obtain ⟨otherStem, otherExtension, alsoSplit⟩ := Selector.exists_splitName alsoName alsoProcess
  rw [outputFile_snoc, outputFile_snoc] at same
  obtain ⟨rfl, sameName⟩ := List.append_inj' same rfl
  rw [OutputMode.outputName_inj isSplit alsoSplit (List.cons.inj sameName).1]

/-- A result would be processed only if it is written in place. -/
theorem eq_of_outputFile_eq (isTask : site.IsTask file)
    (isProcess : site.selector.fileFate ((site.root.below names).join name) name = .process)
    (same : site.outputFile file = names ++ [name]) :
    site.settings.output = .inPlace ∧ file = names ++ [name] := by
  obtain ⟨_, _, isName, _, ofFile⟩ := isTask
  rw [outputFile_snoc] at same
  obtain ⟨rfl, sameName⟩ := List.append_inj' same rfl
  obtain rfl := (List.cons.inj sameName).1
  cases isMode : site.settings.output with
  | inPlace => exact ⟨rfl, rfl⟩
  | sibling suffix =>
      obtain ⟨stem, extension, isSplit⟩ := Selector.exists_splitName isName ofFile
      have isSuffix : site.selector.suffix = some suffix := by
        rw [site.suffix_eq, isMode, OutputMode.suffix?]
      rw [isMode] at isProcess
      exact absurd isProcess
        (Selector.fileFate_outputName isSuffix (site.isProper suffix isMode) isName isSplit _)

theorem isName_outputName (site : Site) (isName : IsName name)
    (isProcess : site.selector.fileFate ((site.root.below names).join name) name = .process) :
    IsName (site.settings.output.outputName name) := by
  obtain ⟨stem, extension, isSplit⟩ := Selector.exists_splitName isName isProcess
  exact OutputMode.isName_outputName site.isProper isName isSplit

/-- A tree of files and directories that differs from the one of the site in files only. -/
structure IsVersion (site : Site) (tree : FileTree) : Prop where
  isTree : tree.IsTree
  isPlain : tree.IsPlain
  frame : site.tree.SameFrame tree

theorem isVersion (site : Site) : site.IsVersion site.tree where
  isTree := site.isTree
  isPlain := site.isPlain
  frame := .refl site.tree

/-- Behind processing a file there is another version of the tree, where only the directory
of the file may list more than before. -/
theorem IsVersion.process (version : site.IsVersion tree) (isTask : site.IsTask file) :
    site.IsVersion (site.processor.processOn (site.root.below file) tree).2 ∧
      ∀ place, place ≠ site.base ++ file.dropLast →
        (site.processor.processOn (site.root.below file) tree).2.entriesAt place =
          tree.entriesAt place := by
  obtain ⟨opens, -, isName, stands, isProcess⟩ := isTask
  have leads := version.frame.leads (FileTree.leadsTo_of_locate opens)
  rw [below_snoc, List.dropLast_concat]
  rcases site.processor.processOn_cases version.isPlain leads isName
      (site.isName_outputName isName isProcess) with
      ⟨kept, -⟩ | ⟨_, _, _, -, -, -, takes, -, written⟩
  · rw [kept]
    exact ⟨version, fun _ _ => rfl⟩
  · rw [written]
    refine ⟨⟨takes.isTree_put version.isTree, FileTree.Takes.isPlain_put version.isPlain,
      version.frame.trans takes.sameFrame⟩, fun place elsewhere => ?_⟩
    rw [takes.entriesAt_put version.isTree, if_neg fun ⟨here, _⟩ => elsewhere here]

/-! ## Listings on the way -/

/-- The directories that were not listed yet are as at the beginning. -/
structure Keeps (site : Site) (listed : List (List Text)) (tree : FileTree) : Prop
    extends site.IsVersion tree where
  unlisted : ∀ names, (site.tree.survey site.root).Holds names → names ∉ listed →
    tree.entriesAt (site.base ++ names) = site.tree.entriesAt (site.base ++ names)

theorem sheltered (site : Site) :
    Sheltered site.walker site.root (site.tree.survey site.root) site.Keeps where
  look keeps holds fresh := by
    obtain ⟨readable, located⟩ := site.located
    exact keeps.frame.list_below site.isTree located holds (keeps.unlisted _ holds fresh)
  list keeps _ :=
    { keeps with
      unlisted := fun names holds fresh =>
        keeps.unlisted names holds fun earlier => fresh (List.mem_cons_of_mem _ earlier) }
  process {listed tree names entries name} keeps here holds listing chosen := by
    obtain ⟨version, elsewhere⟩ := keeps.toIsVersion.process (isTask_of_holds holds listing chosen)
    refine { version with unlisted := fun others alsoHolds fresh => ?_ }
    have different : site.base ++ others ≠ site.base ++ (names ++ [name]).dropLast := by
      rw [List.dropLast_concat]
      intro same
      exact fresh (List.append_cancel_left same ▸ here)
    exact (elsewhere _ different).trans (keeps.unlisted others alsoHolds fresh)

end Site

end Deflow
