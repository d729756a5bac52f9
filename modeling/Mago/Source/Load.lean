import Mago.Source.Exclusion
import Mago.Source.Walk
import Mathlib.Data.String.Basic

/-!
# Loading sources into the manager

`load` gathers its starting paths: the configured paths, or the root when there are none, as
user-defined sources, and the includes as external ones when externals are wanted. Each goes
through `add_path_to_manager`, which hands files to `add_file_to_manager`. That function skips a
user-defined file under an include, an excluded file and a regular file without an accepted
extension, and registers every other file under its path relative to the root. The stubs come
last, as built-in sources.

The manager itself is not part of the files modelled here: a run is described by the calls it
makes to `insert_path` and `insert_content`, in order. The file system is a parameter giving
what exists at each starting path.
-/

namespace Mago

/-- `SourceCategory`. -/
inductive SourceCategory where
  | builtIn
  | userDefined
  | external
  deriving Repr, DecidableEq

/-- A call the loader makes on the `SourceManager`: `insert_path` or `insert_content`. -/
inductive Insertion where
  | path (name : String) (path : PathBuf) (category : SourceCategory)
  | content (name : String) (content : String) (category : SourceCategory)
  deriving Repr, DecidableEq

/-- `SourceConfiguration`, with the fields `load` destructures. -/
structure SourceConfiguration where
  root : PathBuf
  paths : List PathBuf
  includes : List PathBuf
  excludes : List String
  extensions : List String

/-- `is_accepted_file`: with no configured extensions, `php` in any letter case. -/
def isAcceptedFile (path : PathBuf) (extensions : List String) : Bool :=
  if extensions.isEmpty then (path.extension.map fun ext => ext.toLower == "php").getD false
  else (path.extension.map fun ext => extensions.contains ext).getD false

example : isAcceptedFile (PathBuf.new "src/a.PHP") [] = true ∧
    isAcceptedFile (PathBuf.new "src/a.PHP") ["php"] = false := by
  simp only [isAcceptedFile, String.toLower, String.map_eq]
  decide

section Loading

variable (globMatch : String → String → Bool)

/-- `add_file_to_manager`: the insertion it makes, if any; `isFile` is `path.is_file()`. -/
def addFileToManager (path root : PathBuf) (includes : List PathBuf)
    (excludesSet : List Exclusion) (extensions : List String) (userDefined isFile : Bool) :
    Option Insertion :=
  if userDefined && includes.any fun includePath => path.startsWith includePath then none
  else if isExcluded globMatch path excludesSet then none
  else if isFile && !isAcceptedFile path extensions then none
  else
    let name :=
      match path.stripPrefix root with
      | some relPath => relPath.toStringLossy
      | none => path.toStringLossy
    some (.path name path (if userDefined then .userDefined else .external))

/-- `add_path_to_manager`: the insertions its calls to `add_file_to_manager` make, in order,
given what the file system holds at `path`. -/
def addPathToManager (path root : PathBuf) (includes : List PathBuf)
    (excludesSet : List Exclusion) (extensions : List String) (userDefined : Bool)
    (target : Option FsEntry) : List Insertion :=
  (addPathToManagerFiles path target).filterMap fun (file, entry) =>
    addFileToManager globMatch file root includes excludesSet extensions userDefined entry.isFile

variable (fileSystem : PathBuf → Option FsEntry) (phpStubs : List (String × String))

/-- The insertions of `PHP_STUBS`, when stubs are included. -/
def stubInsertions (includeStubs : Bool) : List Insertion :=
  if includeStubs then phpStubs.map fun (stub, content) => .content stub content .builtIn else []

/-- The starting paths of `load`, each with whether its sources are user-defined. -/
def startingPaths (configuration : SourceConfiguration) (includeExternals : Bool) :
    List (PathBuf × Bool) :=
  (if configuration.paths.isEmpty then [(configuration.root, true)]
    else configuration.paths.map fun source => (source, true)) ++
  if includeExternals then configuration.includes.map fun includePath => (includePath, false) else []

/-- `load`. -/
def load (configuration : SourceConfiguration) (includeExternals includeStubs : Bool) :
    List Insertion :=
  let excludesSet := createExcludesSet configuration.excludes configuration.root
  ((startingPaths configuration includeExternals).flatMap fun (path, userDefined) =>
      addPathToManager globMatch path configuration.root configuration.includes excludesSet
        configuration.extensions userDefined (fileSystem path)) ++
    stubInsertions phpStubs includeStubs

/-- `from_paths`: the given paths as user-defined sources, with no includes and no excludes. -/
def fromPaths (configuration : SourceConfiguration) (paths : List PathBuf) (includeStubs : Bool) :
    List Insertion :=
  (paths.flatMap fun path =>
      addPathToManager globMatch path configuration.root [] [] configuration.extensions true
        (fileSystem path)) ++
    stubInsertions phpStubs includeStubs

/-- `from_modified_files`, given the paths `git diff --name-only` lists: nothing at all when
there are none, and otherwise `load` with those paths in place of the configured ones. -/
def fromModifiedFiles (configuration : SourceConfiguration) (modified : List PathBuf)
    (includeExternals includeStubs : Bool) : List Insertion :=
  if modified.isEmpty then []
  else load globMatch fileSystem phpStubs { configuration with paths := modified }
    includeExternals includeStubs

/-- What `add_file_to_manager` registers passed all three of its checks, and is registered
under its own path, as user-defined exactly when it was asked to be. -/
theorem addFileToManager_eq_some {path root : PathBuf} {includes : List PathBuf}
    {excludesSet : List Exclusion} {extensions : List String} {userDefined isFile : Bool}
    {insertion : Insertion}
    (added : addFileToManager globMatch path root includes excludesSet extensions userDefined
      isFile = some insertion) :
    (userDefined = true → (includes.any fun includePath => path.startsWith includePath) = false) ∧
      isExcluded globMatch path excludesSet = false ∧
      (isFile = true → isAcceptedFile path extensions = true) ∧
      ∃ name, insertion = .path name path (if userDefined then .userDefined else .external) := by
  unfold addFileToManager at added
  split_ifs at added with underInclude excluded rejected <;>
    obtain rfl := Option.some.inj added <;> simp_all

/-- Every insertion `load` makes is a stub, when stubs are included, or a path that no
exclusion matches, registered as user-defined or external, and, when user-defined, under no
include. -/
theorem load_insertions_pass_filters (configuration : SourceConfiguration)
    (includeExternals includeStubs : Bool) :
    ∀ insertion ∈ load globMatch fileSystem phpStubs configuration includeExternals includeStubs,
      (∃ name path category, insertion = .path name path category ∧
        isExcluded globMatch path
          (createExcludesSet configuration.excludes configuration.root) = false ∧
        category ≠ .builtIn ∧
        (category = .userDefined →
          (configuration.includes.any fun includePath => path.startsWith includePath) = false)) ∨
      (includeStubs = true ∧
        ∃ stub content, (stub, content) ∈ phpStubs ∧ insertion = .content stub content .builtIn) := by
  intro insertion member
  simp only [load, List.mem_append, List.mem_flatMap, addPathToManager, List.mem_filterMap,
    stubInsertions] at member
  rcases member with ⟨⟨path, userDefined⟩, -, ⟨file, entry⟩, -, added⟩ | stub
  · obtain ⟨underInclude, notExcluded, -, name, rfl⟩ := addFileToManager_eq_some globMatch added
    refine .inl ⟨name, file, _, rfl, notExcluded, ?_, fun userCategory => underInclude ?_⟩ <;>
      cases userDefined <;> simp_all
  · split at stub
    · simp only [List.mem_map, Prod.exists] at stub
      obtain ⟨stub, content, stubMember, rfl⟩ := stub
      exact .inr ⟨‹_›, stub, content, stubMember, rfl⟩
    · exact absurd stub (List.not_mem_nil _)

/-- With paths given, `from_paths` is `load` over those paths with no includes, no excludes
and no externals. -/
theorem fromPaths_eq_load (configuration : SourceConfiguration) {paths : List PathBuf}
    (nonEmpty : paths ≠ []) (includeStubs : Bool) :
    fromPaths globMatch fileSystem phpStubs configuration paths includeStubs =
      load globMatch fileSystem phpStubs
        { configuration with paths := paths, includes := [], excludes := [] } false includeStubs := by
  cases paths with
  | nil => contradiction
  | cons first rest =>
      simp [fromPaths, load, startingPaths, createExcludesSet, List.flatMap_map]

/-- A user-defined starting path that is a regular file, or that does not exist, is registered
by itself, under its path relative to the root, when it exists and passes the three checks of
`add_file_to_manager`; nothing is walked. -/
theorem addPathToManager_file_or_gone (path root : PathBuf) (includes : List PathBuf)
    (excludesSet : List Exclusion) (extensions : List String) {target : Option FsEntry}
    (fileOrGone : target = none ∨ ∃ name, target = some (.file name)) :
    addPathToManager globMatch path root includes excludesSet extensions true target =
      if target.isSome && !(includes.any path.startsWith) &&
          !isExcluded globMatch path excludesSet && isAcceptedFile path extensions then
        [.path ((path.stripPrefix root).getD path).toStringLossy path .userDefined]
      else [] := by
  rcases fileOrGone with rfl | ⟨name, rfl⟩
  · rfl
  · simp only [addPathToManager, addPathToManagerFiles, List.filterMap_cons, List.filterMap_nil,
      FsEntry.isFile, addFileToManager]
    cases path.stripPrefix root <;>
      by_cases underInclude : includes.any path.startsWith <;>
      by_cases excluded : isExcluded globMatch path excludesSet <;>
      by_cases accepted : isAcceptedFile path extensions <;>
      simp [underInclude, excluded, accepted]

/-- Given modified paths that are regular files or no longer exist, as `git diff --name-only`
lists them, `from_modified_files` without externals registers, in order, exactly the modified
paths that still exist, lie under no include, match no exclusion and have an accepted
extension, each by itself and under its path relative to the root, then the stubs. The walk's
filter on paths starting with `.` does not apply to them. -/
theorem fromModifiedFiles_registers_modified (configuration : SourceConfiguration)
    {modified : List PathBuf} (nonEmpty : modified ≠ [])
    (filesOrGone : ∀ path ∈ modified,
      fileSystem path = none ∨ ∃ name, fileSystem path = some (.file name))
    (includeStubs : Bool) :
    fromModifiedFiles globMatch fileSystem phpStubs configuration modified false includeStubs =
      (modified.filter fun path => (fileSystem path).isSome &&
          !(configuration.includes.any path.startsWith) &&
          !isExcluded globMatch path (createExcludesSet configuration.excludes configuration.root) &&
          isAcceptedFile path configuration.extensions).map (fun path =>
        .path ((path.stripPrefix configuration.root).getD path).toStringLossy path .userDefined) ++
      stubInsertions phpStubs includeStubs := by
  have notEmpty : modified.isEmpty = false := List.isEmpty_eq_false.mpr nonEmpty
  simp only [fromModifiedFiles, notEmpty, Bool.false_eq_true, ↓reduceIte, load, startingPaths,
    List.append_nil, List.flatMap_map]
  congr 1
  clear nonEmpty notEmpty
  induction modified with
  | nil => rfl
  | cons path rest ih =>
      rw [List.flatMap_cons, addPathToManager_file_or_gone globMatch _ _ _ _ _
        (filesOrGone path (List.mem_cons_self _ _)), List.filter_cons,
        ih fun other member => filesOrGone other (List.mem_cons_of_mem _ member)]
      split <;> rfl

/-- `load` with no paths configured walks the root. When the root's path does not start with
`.`, it registers, in order, every file below the root that `add_file_to_manager` accepts, then
the stubs. -/
theorem load_root_directory (configuration : SourceConfiguration)
    (noPaths : configuration.paths = []) {name : FileName} {entries : List FsEntry}
    (rootDirectory : fileSystem configuration.root = some (.dir name entries))
    (visible : configuration.root.startsWith (PathBuf.new ".") = false) (includeStubs : Bool) :
    load globMatch fileSystem phpStubs configuration false includeStubs =
      (filesBelow configuration.root entries).filterMap (fun (file, entry) =>
          addFileToManager globMatch file configuration.root configuration.includes
            (createExcludesSet configuration.excludes configuration.root) configuration.extensions
            true entry.isFile) ++
        stubInsertions phpStubs includeStubs := by
  simp [load, startingPaths, noPaths, addPathToManager, rootDirectory, addPathToManagerFiles,
    handedOver_walkEntries, visible]

/-- Whether an insertion registers a path that one of `exclusions` matches. -/
def Insertion.excludedBy (exclusions : List Exclusion) : Insertion → Bool
  | .path _ file _ => isExcluded globMatch file exclusions
  | .content _ _ _ => false

/-- The exclusions of appended excludes are their exclusions appended. -/
theorem createExcludesSet_append (excludes more : List String) (root : PathBuf) :
    createExcludesSet (excludes ++ more) root =
      createExcludesSet excludes root ++ createExcludesSet more root :=
  List.map_append _ _ _

/-- With more exclusions, `add_file_to_manager` registers what it registered before, unless one
of the new exclusions matches the path. -/
theorem addFileToManager_append_excludes (path root : PathBuf) (includes : List PathBuf)
    (excludesSet more : List Exclusion) (extensions : List String) (userDefined isFile : Bool) :
    addFileToManager globMatch path root includes (excludesSet ++ more) extensions userDefined
        isFile =
      (addFileToManager globMatch path root includes excludesSet extensions userDefined
        isFile).filter fun insertion => !insertion.excludedBy globMatch more := by
  have either : isExcluded globMatch path (excludesSet ++ more) =
      (isExcluded globMatch path excludesSet || isExcluded globMatch path more) := by
    simp [isExcluded_eq_any]
  unfold addFileToManager
  rw [either]
  cases excludedMore : isExcluded globMatch path more <;> split_ifs <;>
    simp_all [Insertion.excludedBy, Option.filter]

/-- Appending excludes to the configuration removes from a run of `load` exactly the sources they
match: every other source keeps its name, category and place, and the stubs stay. -/
theorem load_append_excludes (configuration : SourceConfiguration) (more : List String)
    (includeExternals includeStubs : Bool) :
    load globMatch fileSystem phpStubs { configuration with excludes := configuration.excludes ++ more }
        includeExternals includeStubs =
      (load globMatch fileSystem phpStubs configuration includeExternals includeStubs).filter
        fun insertion => !insertion.excludedBy globMatch (createExcludesSet more configuration.root) := by
  have stubsKept : (stubInsertions phpStubs includeStubs).filter
      (fun insertion => !insertion.excludedBy globMatch (createExcludesSet more configuration.root)) =
        stubInsertions phpStubs includeStubs := by
    rw [List.filter_eq_self]
    intro insertion member
    unfold stubInsertions at member
    split at member
    · obtain ⟨_, -, rfl⟩ := List.mem_map.mp member
      rfl
    · exact absurd member (List.not_mem_nil _)
  have sameStart : startingPaths { configuration with excludes := configuration.excludes ++ more }
      includeExternals = startingPaths configuration includeExternals := rfl
  simp only [load, sameStart, createExcludesSet_append, List.filter_append, List.filter_flatMap,
    addPathToManager, List.filter_filterMap, addFileToManager_append_excludes, stubsKept]

end Loading

section SingleFile

/-- The directory name `src`. -/
def srcName : FileName := ⟨"src", by decide⟩

/-- The entries of a directory holding `a.php`. -/
def singleFileEntries : List FsEntry := [.file ⟨"a.php", by decide⟩]

/-- A file system whose every starting path is a directory `src` holding `a.php`. -/
def singleFileSystem (_ : PathBuf) : Option FsEntry :=
  some (.dir srcName singleFileEntries)

/-- The root `src`, with the extension `php` and no paths, includes or excludes configured. -/
def singleFileConfiguration : SourceConfiguration :=
  ⟨PathBuf.new "src", [], [], [], ["php"]⟩

/-- Loading `src` registers `src/a.php` as the user-defined source `a.php`, which passes the
filters. -/
theorem load_singleFile :
    Insertion.path "a.php" (PathBuf.new "src/a.php") .userDefined ∈
        load (fun _ _ => false) singleFileSystem [] singleFileConfiguration false false ∧
      ((∃ name path category,
          Insertion.path "a.php" (PathBuf.new "src/a.php") .userDefined =
            .path name path category ∧
          isExcluded (fun _ _ => false) path
            (createExcludesSet singleFileConfiguration.excludes singleFileConfiguration.root) =
              false ∧
          category ≠ .builtIn ∧
          (category = .userDefined →
            (singleFileConfiguration.includes.any fun includePath =>
              path.startsWith includePath) = false)) ∨
        (false = true ∧ ∃ stub content, (stub, content) ∈ ([] : List (String × String)) ∧
          Insertion.path "a.php" (PathBuf.new "src/a.php") .userDefined =
            .content stub content .builtIn)) :=
  have loaded : Insertion.path "a.php" (PathBuf.new "src/a.php") .userDefined ∈
      load (fun _ _ => false) singleFileSystem [] singleFileConfiguration false false := by
    decide
  ⟨loaded, load_insertions_pass_filters _ _ _ _ _ _ _ loaded⟩

/-- Loading the path `src` with `from_paths` is loading it with `load`. -/
theorem fromPaths_singleFile :
    [PathBuf.new "src"] ≠ [] ∧
      fromPaths (fun _ _ => false) singleFileSystem [] singleFileConfiguration
          [PathBuf.new "src"] false =
        load (fun _ _ => false) singleFileSystem []
          { singleFileConfiguration with
            paths := [PathBuf.new "src"], includes := [], excludes := [] } false false :=
  ⟨List.cons_ne_nil _ _, fromPaths_eq_load _ _ _ _ (List.cons_ne_nil _ _) _⟩

/-- Loading the root `src` registers what `add_file_to_manager` accepts below it. -/
theorem load_singleFile_root :
    singleFileConfiguration.paths = [] ∧
      singleFileSystem singleFileConfiguration.root = some (.dir srcName singleFileEntries) ∧
      singleFileConfiguration.root.startsWith (PathBuf.new ".") = false ∧
      load (fun _ _ => false) singleFileSystem [] singleFileConfiguration false false =
        (filesBelow singleFileConfiguration.root singleFileEntries).filterMap (fun (file, entry) =>
            addFileToManager (fun _ _ => false) file singleFileConfiguration.root
              singleFileConfiguration.includes
              (createExcludesSet singleFileConfiguration.excludes singleFileConfiguration.root)
              singleFileConfiguration.extensions true entry.isFile) ++
          stubInsertions [] false :=
  ⟨rfl, rfl, by decide, load_root_directory _ _ _ _ rfl rfl (by decide) _⟩

/-- The paths `git diff` lists after `src/a.php` was changed and `src/b.php` deleted. -/
def modifiedPaths : List PathBuf := [PathBuf.new "src/a.php", PathBuf.new "src/b.php"]

/-- A file system holding the file `src/a.php` and nothing else. -/
def modifiedFileSystem (path : PathBuf) : Option FsEntry :=
  if path = PathBuf.new "src/a.php" then some (.file ⟨"a.php", by decide⟩) else none

/-- Of the changed `src/a.php` and the deleted `src/b.php`, `from_modified_files` registers the
first by itself. -/
theorem fromModifiedFiles_registers_modified_src :
    modifiedPaths ≠ [] ∧
      (∀ path ∈ modifiedPaths,
        modifiedFileSystem path = none ∨ ∃ name, modifiedFileSystem path = some (.file name)) ∧
      fromModifiedFiles (fun _ _ => false) modifiedFileSystem [] singleFileConfiguration
          modifiedPaths false false =
        (modifiedPaths.filter fun path => (modifiedFileSystem path).isSome &&
            !(singleFileConfiguration.includes.any path.startsWith) &&
            !isExcluded (fun _ _ => false) path
              (createExcludesSet singleFileConfiguration.excludes singleFileConfiguration.root) &&
            isAcceptedFile path singleFileConfiguration.extensions).map (fun path =>
          .path ((path.stripPrefix singleFileConfiguration.root).getD path).toStringLossy path
            .userDefined) ++
          stubInsertions [] false :=
  have filesOrGone : ∀ path ∈ modifiedPaths,
      modifiedFileSystem path = none ∨ ∃ name, modifiedFileSystem path = some (.file name) := by
    simp only [modifiedPaths, List.mem_cons, List.mem_singleton, forall_eq_or_imp, forall_eq,
      List.not_mem_nil, false_implies, implies_true, and_true]
    exact ⟨.inr ⟨_, rfl⟩, .inl rfl⟩
  ⟨List.cons_ne_nil _ _, filesOrGone,
    fromModifiedFiles_registers_modified _ _ _ _ (List.cons_ne_nil _ _) filesOrGone _⟩

end SingleFile

end Mago
