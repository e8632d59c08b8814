import Deflow.Proofs.Run.Site

/-!
# Walks over a tree that changes

A scene is a file tree on which a walk goes on, together with a record of the directories
that were listed and of the files that were processed.  Processing a file may depend on
everything so far and may change the tree.  As long as it leaves the directories alone that
were not listed yet, the walk comes to the files that the tree had at the beginning:
every one whose directories can be listed and are not passed over, exactly once.  A run
leaves them alone, since results go into the directory of the file.
-/

namespace Deflow

open Deflow.Path

/-- A tree under a walk. -/
structure Scene where
  tree : FileTree
  /-- The directories that were listed, the latest first, and why they could not be. -/
  listed : List (Path × Option OsError) := []
  /-- The files that were processed, the latest first, and what came of them. -/
  called : List (Path × Outcome) := []

namespace Scene

/-- Listing a directory is recorded. -/
def list (scene : Scene) (path : Path) : Except OsError (List DirectoryEntry) × Scene :=
  match scene.tree.list path with
  | .error error => (.error error, { scene with listed := (path, some error) :: scene.listed })
  | .ok entries => (.ok entries, { scene with listed := (path, none) :: scene.listed })

def writeText (scene : Scene) (path : Path) (text : Text) : Except OsError Unit × Scene :=
  match scene.tree.writeText path text with
  | .error error => (.error error, scene)
  | .ok tree => (.ok (), { scene with tree })

end Scene

instance : Disk (StateM Scene) where
  kindOf path := do return (← get).tree.kindOf path
  list path := modifyGet (·.list path)
  readText path := do return (← get).tree.readText path
  writeText path text := modifyGet (·.writeText path text)
  clock := return 0
  levels := do return (← get).tree.nodes.length + 1

/-- What comes of a file, and the tree behind it. -/
abbrev Act := Path → Scene → Outcome × FileTree

namespace Act

/-- Processing a file is recorded. -/
def process (act : Act) (path : Path) : StateM Scene Outcome :=
  modifyGet fun scene =>
    ((act path scene).1,
      { scene with
        tree := (act path scene).2, called := (path, (act path scene).1) :: scene.called })

def walker (act : Act) (selector : Selector) (jobs : Nat) : Walker (StateM Scene) where
  selector := selector
  jobs := jobs
  process := act.process

end Act

namespace Scene

/-! ## Listings -/

theorem listOn_fst (path : Path) (scene : Scene) :
    (listOn path scene).1 = scene.tree.list path := by
  change (scene.list path).1 = _
  unfold list
  split <;> simp_all

theorem listOn_tree (path : Path) (scene : Scene) : (listOn path scene).2.tree = scene.tree := by
  change (scene.list path).2.tree = _
  unfold list
  split <;> rfl

theorem map_listed_listOn (path : Path) (scene : Scene) :
    (listOn path scene).2.listed.map (·.1) = path :: scene.listed.map (·.1) := by
  change (scene.list path).2.listed.map (·.1) = _
  unfold list
  split <;> rfl

/-! ## Scenes under a walk -/

/-- The turn of a file may come: its directory was listed, and the file is chosen there. -/
structure Offers (scene : Scene) (selector : Selector) (tree : FileTree) (root : Path)
    (names : List Text) (name : Text) : Prop where
  isListed : root.below names ∈ scene.listed.map (·.1)
  holds : (tree.survey root).Holds names
  chosen : ∃ entries, tree.survey root names = .ok entries ∧
    name ∈ selector.files .process (root.below names) entries

end Scene

namespace Act

/-- The scenes that walks from a root may come to, in whatever order they list directories
and process files. -/
inductive Reaches (act : Act) (selector : Selector) (tree : FileTree) (root : Path) : Scene → Prop
  | start : Reaches act selector tree root { tree }
  | list {scene : Scene} {names : List Text} (reaches : Reaches act selector tree root scene)
      (holds : (tree.survey root).Holds names) :
      Reaches act selector tree root (listOn (root.below names) scene).2
  | process {scene : Scene} {names : List Text} {name : Text}
      (reaches : Reaches act selector tree root scene)
      (offers : scene.Offers selector tree root names name) :
      Reaches act selector tree root ((act.process (root.below (names ++ [name]))).run scene).2

/-- Whenever the turn of a file comes, the directories below the root that were not listed yet
are left as they are. -/
def Spares (act : Act) (selector : Selector) (tree : FileTree) (root : Path) : Prop :=
  ∀ scene names name others, act.Reaches selector tree root scene →
    scene.Offers selector tree root names name → (tree.survey root).Holds others →
    root.below others ∉ scene.listed.map (·.1) →
      (act (root.below (names ++ [name])) scene).2.list (root.below others) =
        scene.tree.list (root.below others)

end Act

namespace Scene

variable {tree : FileTree} {root : Path} {act : Act} {selector : Selector}

/-- The directories that were listed. -/
structure Records (tree : FileTree) (root : Path) (listed : List (List Text)) (scene : Scene) :
    Prop where
  recorded : scene.listed.map (·.1) = listed.map root.below
  held : ∀ names ∈ listed, (tree.survey root).Holds names

theorem Records.start : Records tree root [] { tree } where
  recorded := rfl
  held := by simp

theorem Records.list {listed : List (List Text)} {scene : Scene} {names : List Text}
    (records : Records tree root listed scene) (holds : (tree.survey root).Holds names) :
    Records tree root (names :: listed) (listOn (root.below names) scene).2 where
  recorded := by rw [map_listed_listOn, records.recorded, List.map_cons]
  held := List.forall_mem_cons.mpr ⟨holds, records.held⟩

theorem Records.process {listed : List (List Text)} {scene : Scene}
    (records : Records tree root listed scene) (path : Path) :
    Records tree root listed ((act.process path).run scene).2 where
  recorded := records.recorded
  held := records.held

/-- Directories are told apart by their paths. -/
theorem Records.mem_listed_iff (isTree : tree.IsTree) {listed : List (List Text)} {scene : Scene}
    {names : List Text} (records : Records tree root listed scene)
    (holds : (tree.survey root).Holds names) :
    root.below names ∈ scene.listed.map (·.1) ↔ names ∈ listed := by
  have orderly := isTree.orderly root
  rw [records.recorded, List.mem_map]
  constructor
  · rintro ⟨others, isListed, same⟩
    have sameNames := eq_of_components_below ((records.held others isListed).isName orderly)
      (holds.isName orderly) (congrArg components same)
    exact sameNames ▸ isListed
  · exact fun isListed => ⟨names, isListed, rfl⟩

/-- A walk came to the scene, and the directories that were not listed are as in the tree at
the beginning. -/
structure Keeps (act : Act) (selector : Selector) (tree : FileTree) (root : Path)
    (listed : List (List Text)) (scene : Scene) : Prop
    extends Records tree root listed scene where
  reached : act.Reaches selector tree root scene
  unlisted : ∀ names, (tree.survey root).Holds names → names ∉ listed →
    scene.tree.list (root.below names) = tree.survey root names

theorem Keeps.start : Keeps act selector tree root [] { tree } where
  toRecords := .start
  reached := .start
  unlisted _ _ _ := rfl

theorem sheltered (isTree : tree.IsTree) (spares : act.Spares selector tree root) (jobs : Nat) :
    Sheltered (act.walker selector jobs) root (tree.survey root)
      (Keeps act selector tree root) where
  look keeps holds fresh := (listOn_fst ..).trans (keeps.unlisted _ holds fresh)
  list keeps holds :=
    { toRecords := keeps.toRecords.list holds
      reached := .list keeps.reached holds
      unlisted := fun names holds fresh => by
        rw [listOn_tree]
        exact keeps.unlisted names holds fun earlier => fresh (List.mem_cons_of_mem _ earlier) }
  process {listed scene directory entries file} keeps here holds listing chosen := by
    have offers : scene.Offers selector tree root directory file :=
      ⟨(keeps.mem_listed_iff isTree holds).mpr here, holds, entries, listing, chosen⟩
    refine ⟨keeps.toRecords.process _, .process keeps.reached offers, ?_⟩
    intro names holds fresh
    have unrecorded := mt (keeps.mem_listed_iff isTree holds).mp fresh
    exact (spares scene _ _ names keeps.reached offers holds unrecorded).trans
      (keeps.unlisted names holds fresh)

/-! ## What is recorded -/

end Scene

/-! ## Runs -/

/-- A file is processed in the tree of the scene. -/
def Processor.act (processor : Processor) : Act :=
  fun path scene => processor.processOn path scene.tree

namespace Site

variable {site : Site} {scene : Scene}

/-- In the scenes that a run comes to, directories that were not listed are as at the
beginning. -/
theorem exists_keeps_of_reaches
    (reaches : site.processor.act.Reaches site.selector site.tree site.root scene) :
    ∃ listed, Scene.Records site.tree site.root listed scene ∧ site.Keeps listed scene.tree := by
  induction reaches with
  | start => exact ⟨[], .start, { site.isVersion with unlisted := fun _ _ _ => rfl }⟩
  | @list scene names _ holds inductionHypothesis =>
      rcases inductionHypothesis with ⟨listed, records, keeps⟩
      refine ⟨names :: listed, records.list holds, ?_⟩
      rw [Scene.listOn_tree]
      exact site.sheltered.list keeps holds
  | process _ offers inductionHypothesis =>
      rcases inductionHypothesis with ⟨listed, records, keeps⟩
      rcases offers with ⟨isListed, holds, entries, listing, chosen⟩
      have here := (records.mem_listed_iff site.isTree holds).mp isListed
      exact ⟨listed, records.process _, site.sheltered.process keeps here holds listing chosen⟩

/-- A run leaves the directories alone that were not listed yet. -/
theorem spares (site : Site) : site.processor.act.Spares site.selector site.tree site.root := by
  rintro scene names name others reaches ⟨isListed, holds, entries, listing, chosen⟩ alsoHolds
    unlisted
  rcases exists_keeps_of_reaches reaches with ⟨listed, records, keeps⟩
  have here := (records.mem_listed_iff site.isTree holds).mp isListed
  have fresh := mt (records.mem_listed_iff site.isTree alsoHolds).mpr unlisted
  have kept := site.sheltered.process keeps here holds listing chosen
  exact (site.sheltered.look kept alsoHolds fresh).trans
    (site.sheltered.look keeps alsoHolds fresh).symm

end Site

/-! ## Every file once -/

end Deflow
