import Mago.Source.Names

/-!
# The stub table

The build script walks the `stubs` directory and writes `PHP_STUBS`, the table of built-in
sources that `load` and `from_paths` insert when stubs are wanted. `collect_files` recurses into
every directory and keeps every other entry whose extension is exactly `php`. It names the file
`stubs/` followed by its components below the stubs directory, each lowercased with spaces turned
into dashes, joined by `/`; `main` writes each name with `@` before it.

Every path the recursion meets is the stubs directory with entry names pushed onto it, so the
`strip_prefix(root).unwrap()` of `collect_files` never panics, and the table lists the PHP files of
the tree, depth first. A built-in name starts with `@stubs/`, while a user-defined source is named
by its path below the root: the two meet only for files under a directory `@stubs` of the root.

The model is Unix's: the separator is `/`. A symbolic link to a directory is followed, as
`is_dir` follows it; a link that leads back to a directory above it, which would make the walk
loop, cannot be built in the model's finite trees.
Rust's `to_lowercase` and the canonical path of a file are parameters.
-/

namespace Mago

/-- The extension of a file name, as `Path::extension` reads it. -/
def FileName.extension (name : FileName) : Option String :=
  (PathBuf.rsplitFileAtDot name.text.toList).map fun (_, after) => String.mk after

section CollectFiles

variable (toLowercase : String → String) (canonicalize : PathBuf → PathBuf)

/-- A component of a stub's path as `collect_files` writes it into the stub's name: its text
lowercased, then `replace(" ", "-")`, which turns every space into a dash. -/
def simplifyComponent (component : Component) : String :=
  ⟨(toLowercase component.text).toList.map fun c => if c = ' ' then '-' else c⟩

/-- `fs::canonicalize(&path)?.to_string_lossy().replace("\\", "/")`. -/
def includePath (path : PathBuf) : String :=
  ⟨(canonicalize path).chars.map fun c => if c = '\\' then '/' else c⟩

mutual

/-- The body of the loop of `collect_files` at one entry of the directory at `dir`: a directory,
or a symbolic link to one (`is_dir` follows it), is collected recursively, and any other entry whose extension is `php` gets its entry in the
stub map. `none` is the panic of `strip_prefix(root).unwrap()`. -/
def collectFilesAt (root dir : PathBuf) (stubsMap : List (String × String)) :
    FsEntry → Option (List (String × String))
  | .dir name entries | .linkedDir name entries =>
      collectFiles root (name.pathIn dir) entries stubsMap
  | entry =>
      let path := entry.name.pathIn dir
      if path.extension = some "php" then do
        let relativePath ← path.stripPrefix root
        let simplifiedPath :=
          "/".intercalate (relativePath.components.map (simplifyComponent toLowercase))
        pure (stubsMap ++ [("stubs/" ++ simplifiedPath, includePath canonicalize path)])
      else some stubsMap

/-- `collect_files(root, dir, stubs_map)`, over the entries `read_dir(dir)` lists, in order. -/
def collectFiles (root dir : PathBuf) :
    List FsEntry → List (String × String) → Option (List (String × String))
  | [], stubsMap => some stubsMap
  | entry :: rest, stubsMap => do
      let stubsMap ← collectFilesAt root dir stubsMap entry
      collectFiles root dir rest stubsMap

end

/-- `Path::new("stubs")`. -/
def stubsDir : PathBuf := PathBuf.new "stubs"

/-- `main` of the build script, up to the table it writes: the entries of `PHP_STUBS`, each the
stub's name, `@` before the name `collect_files` gives it, and the path its `include_str!`
reads. `stubs` is what the file system holds at `stubs`; `none` is the panic on a missing
directory or the panic of `collect_files` (and an error of `read_dir` on anything else). -/
def phpStubsTable (stubs : Option FsEntry) : Option (List (String × String)) :=
  match stubs with
  | some (.dir _ entries) | some (.linkedDir _ entries) =>
      (collectFiles toLowercase canonicalize stubsDir stubsDir entries []).map fun stubsMap =>
        stubsMap.map fun (simplifiedPath, includePath) => ("@" ++ simplifiedPath, includePath)
  | _ => none

/-- `PHP_STUBS` as the generated file declares it: each stub's name with the text of the file
its `include_str!` reads. -/
def phpStubs (readFile : String → String) (table : List (String × String)) :
    List (String × String) :=
  table.map fun (stub, path) => (stub, readFile path)

mutual

/-- The PHP files at and below an entry, depth first, each given by the names leading to it
from the entry's directory, through symbolic links to directories too: every entry that is no
directory and whose name has the extension `php`. -/
def FsEntry.phpFiles : FsEntry → List (List FileName)
  | .dir name entries | .linkedDir name entries => (phpFilesBelow entries).map (name :: ·)
  | entry => if entry.name.extension = some "php" then [[entry.name]] else []

/-- The PHP files below a directory holding `entries`, depth first. -/
def phpFilesBelow : List FsEntry → List (List FileName)
  | [] => []
  | entry :: rest => entry.phpFiles ++ phpFilesBelow rest

end

/-- The entry of the stub map for the file reached from `root` through `names`, as the module
header describes it. -/
def stubMapEntry (root : PathBuf) (names : List FileName) : String × String :=
  ("stubs/" ++ "/".intercalate (names.map fun name => simplifyComponent toLowercase (.normal name.text)),
    includePath canonicalize (pathThrough root names))

/-- The path through two runs of names is the path through the second from the end of the first. -/
theorem pathThrough_append (parent : PathBuf) (above below : List FileName) :
    pathThrough parent (above ++ below) = pathThrough (pathThrough parent above) below :=
  List.foldl_append _ _ _ _

/-- The extension of an entry's path is that of its name. -/
theorem extension_pathIn (name : FileName) (parent : PathBuf) :
    (name.pathIn parent).extension = name.extension := by
  simp [PathBuf.extension, PathBuf.fileName, components_pathIn, FileName.extension]

/-- An entry's path below a path through names is the path through them and its name. -/
theorem pathIn_pathThrough (name : FileName) (parent : PathBuf) (above : List FileName) :
    name.pathIn (pathThrough parent above) = pathThrough parent (above ++ [name]) := by
  rw [pathThrough_append]
  rfl

/-- The names below a path are the components of the path through them from an empty one. -/
theorem components_pathThrough_empty (names : List FileName) :
    (pathThrough ⟨[]⟩ names).components = names.map fun name => .normal name.text := by
  rw [components_pathThrough]
  rfl

/-- `collect_files` at an entry that is not a directory: its entry in the stub map when its
extension is `php`. -/
theorem collectFilesAt_of_isDir_false (root dir : PathBuf) (stubsMap : List (String × String))
    {entry : FsEntry} (notDir : entry.isDir = false) :
    collectFilesAt toLowercase canonicalize root dir stubsMap entry =
      if (entry.name.pathIn dir).extension = some "php" then do
        let relativePath ← (entry.name.pathIn dir).stripPrefix root
        pure (stubsMap ++ [("stubs/" ++ "/".intercalate
          (relativePath.components.map (simplifyComponent toLowercase)),
          includePath canonicalize (entry.name.pathIn dir))])
      else some stubsMap := by
  cases entry <;> first | rfl | cases notDir

mutual

/-- At one entry below the stubs directory, `collect_files` appends the entries of the PHP files
at and below it, and never panics. -/
theorem collectFilesAt_eq (root : PathBuf) (above : List FileName)
    (stubsMap : List (String × String)) :
    ∀ entry, collectFilesAt toLowercase canonicalize root (pathThrough root above) stubsMap entry =
      some (stubsMap ++ entry.phpFiles.map fun names =>
        stubMapEntry toLowercase canonicalize root (above ++ names))
  | .dir name entries | .linkedDir name entries => by
      have below := collectFiles_eq root (above ++ [name]) entries stubsMap
      rw [pathThrough_append, pathThrough_cons, pathThrough_nil] at below
      show collectFiles toLowercase canonicalize root (name.pathIn (pathThrough root above)) entries
        stubsMap = _
      rw [below]
      simp [FsEntry.phpFiles, Function.comp_def]
  | .file name | .special name | .symlink name => by
      by_cases php : name.extension = some "php" <;>
        simp only [collectFilesAt_of_isDir_false toLowercase canonicalize, FsEntry.isDir,
          FsEntry.name, extension_pathIn, php] <;>
        simp [FsEntry.phpFiles, FsEntry.name, php, pathIn_pathThrough, stripPrefix_pathThrough,
          components_pathThrough_empty, stubMapEntry, Function.comp_def]

/-- Below the stubs directory, `collect_files` appends the entries of the PHP files below, depth
first, and never panics. -/
theorem collectFiles_eq (root : PathBuf) (above : List FileName) :
    ∀ entries (stubsMap : List (String × String)),
      collectFiles toLowercase canonicalize root (pathThrough root above) entries stubsMap =
        some (stubsMap ++ (phpFilesBelow entries).map fun names =>
          stubMapEntry toLowercase canonicalize root (above ++ names))
  | [], stubsMap => by simp [collectFiles, phpFilesBelow]
  | entry :: rest, stubsMap => by
      simp [collectFiles, phpFilesBelow, collectFilesAt_eq root above stubsMap entry,
        collectFiles_eq root above rest]

end

/-- The build script never panics on a stubs directory, and its table lists every PHP file of
the tree once, depth first in `read_dir` order: no directory, every other entry whose extension
is exactly `php`, named `@stubs/` and its names below the stubs directory, lowercased with spaces
turned into dashes and joined by `/`, with its canonical path. -/
theorem phpStubsTable_eq (stubsName : FileName) (entries : List FsEntry) :
    phpStubsTable toLowercase canonicalize (some (.dir stubsName entries)) =
      some ((phpFilesBelow entries).map fun names =>
        ("@" ++ (stubMapEntry toLowercase canonicalize stubsDir names).1,
          (stubMapEntry toLowercase canonicalize stubsDir names).2)) := by
  have collected := collectFiles_eq toLowercase canonicalize stubsDir [] entries []
  rw [pathThrough_nil] at collected
  simp [phpStubsTable, collected]

/-- Every name in the table of the build script starts with `@stubs/`. -/
theorem phpStubsTable_name {stubsName : FileName} {entries : List FsEntry}
    {table : List (String × String)}
    (built : phpStubsTable toLowercase canonicalize (some (.dir stubsName entries)) = some table)
    {name includePath : String} (member : (name, includePath) ∈ table) :
    ∃ rest, name.toList = "@stubs/".toList ++ rest := by
  have collected := collectFiles_eq toLowercase canonicalize stubsDir [] entries []
  rw [pathThrough_nil] at collected
  simp only [phpStubsTable, collected, Option.map_some', Option.some.injEq, List.nil_append,
    List.map_map] at built
  subst built
  obtain ⟨names, -, same⟩ := List.mem_map.mp member
  rw [← (Prod.mk.inj same).1]
  exact ⟨_, by simp only [Function.comp, stubMapEntry, String.toList, String.data_append]; rfl⟩

end CollectFiles

section Namespaces

variable (globMatch : String → String → Bool) (fileSystem : PathBuf → Option FsEntry)

/-- The sources `load` registers with a text are the stubs. -/
theorem mem_load_content {phpStubs : List (String × String)}
    {configuration : SourceConfiguration} {includeExternals includeStubs : Bool}
    {name contents : String} {category : SourceCategory}
    (member : Insertion.content name contents category ∈
      load globMatch fileSystem phpStubs configuration includeExternals includeStubs) :
    (name, contents) ∈ phpStubs := by
  simp only [load, List.mem_append, List.mem_flatMap, addPathToManager, List.mem_filterMap,
    stubInsertions] at member
  rcases member with ⟨⟨path, userDefined⟩, -, ⟨file, entry⟩, -, added⟩ | stub
  · obtain ⟨-, -, -, _, different⟩ := addFileToManager_eq_some globMatch added
    cases different
  · split at stub
    · simp only [List.mem_map, Prod.exists, Insertion.content.injEq] at stub
      obtain ⟨_, _, member, rfl, rfl, -⟩ := stub
      exact member
    · exact absurd stub (List.not_mem_nil _)

/-- The name of a file below the root, up to its first separator, is the first name below the
root. -/
theorem takeWhile_pathThrough_names (first : FileName) (names : List FileName) :
    (pathThrough ⟨[]⟩ (first :: names)).chars.takeWhile (· ≠ '/') = first.text.toList := by
  have firstChars : (first.pathIn ⟨[]⟩).chars = first.text.toList := by simp [pathIn_chars]
  have kept : ∀ c ∈ first.text.toList, (fun c => decide (c ≠ '/')) c = true :=
    fun c member => decide_eq_true fun same => first.slash_not_mem (by rwa [same] at member)
  rw [pathThrough_cons, pathThrough_chars (by rw [firstChars]; exact first.chars_ne_nil)
    (by rw [firstChars]; exact first.getLast?_ne_slash), firstChars,
    List.takeWhile_append_of_pos kept]
  cases names <;> simp

variable (toLowercase : String → String) (canonicalize : PathBuf → PathBuf)
  (readFile : String → String)

/-- With the stubs the build script collects, no paths configured and a root directory: a name
that `load` gives both to a user-defined and to a built-in source names a file under a
directory `@stubs` of the root. The stubs' names start with `@stubs/`, and a user-defined
source is named by its names below the root, joined by `/`. -/
theorem load_builtIn_name_of_userDefined (configuration : SourceConfiguration)
    (noPaths : configuration.paths = []) {rootName : FileName} {rootEntries : List FsEntry}
    (rootDirectory : fileSystem configuration.root = some (.dir rootName rootEntries))
    {stubsName : FileName} {stubsEntries : List FsEntry} {table : List (String × String)}
    (built : phpStubsTable toLowercase canonicalize (some (.dir stubsName stubsEntries)) =
      some table)
    (includeExternals : Bool) {name contents : String} {path : PathBuf}
    (userDefined : Insertion.path name path .userDefined ∈
      load globMatch fileSystem (phpStubs readFile table) configuration includeExternals true)
    (builtIn : Insertion.content name contents .builtIn ∈
      load globMatch fileSystem (phpStubs readFile table) configuration includeExternals true) :
    ∃ first names, first.text = "@stubs" ∧ path = pathThrough configuration.root (first :: names) := by
  obtain ⟨first, names, rfl, rfl⟩ :=
    mem_load_userDefined globMatch fileSystem _ noPaths rootDirectory userDefined
  obtain ⟨⟨stub, includePath⟩, member, same⟩ :=
    List.mem_map.mp (mem_load_content globMatch fileSystem builtIn)
  obtain ⟨rest, stubName⟩ := phpStubsTable_name toLowercase canonicalize built member
  have sameName : (pathThrough ⟨[]⟩ (first :: names)).chars = "@stubs/".toList ++ rest := by
    rw [← stubName, (Prod.mk.inj same).1]
    rfl
  have firstName := takeWhile_pathThrough_names first names
  rw [sameName] at firstName
  refine ⟨first, names, String.toList_inj.mp ?_, rfl⟩
  rw [← firstName]
  rfl

end Namespaces

section AtStubs

/-- The directory name `@stubs`. -/
def atStubsName : FileName := ⟨"@stubs", by decide⟩

/-- The directory name `stubs`. -/
def stubsName : FileName := ⟨"stubs", by decide⟩

/-- A file system whose root `src` holds `@stubs/a.php`. -/
def atStubsSystem (_ : PathBuf) : Option FsEntry :=
  some (.dir srcName [.dir atStubsName singleFileEntries])

/-- With a stub `a.php`, the file `src/@stubs/a.php` and the stub are both named `@stubs/a.php`. -/
theorem load_builtIn_name_of_userDefined_atStubs :
    singleFileConfiguration.paths = [] ∧
      atStubsSystem singleFileConfiguration.root =
        some (.dir srcName [.dir atStubsName singleFileEntries]) ∧
      phpStubsTable id id (some (.dir stubsName singleFileEntries)) =
        some [("@stubs/a.php", "stubs/a.php")] ∧
      Insertion.path "@stubs/a.php" (PathBuf.new "src/@stubs/a.php") .userDefined ∈
        load (fun _ _ => false) atStubsSystem (phpStubs id [("@stubs/a.php", "stubs/a.php")])
          singleFileConfiguration false true ∧
      Insertion.content "@stubs/a.php" "stubs/a.php" .builtIn ∈
        load (fun _ _ => false) atStubsSystem (phpStubs id [("@stubs/a.php", "stubs/a.php")])
          singleFileConfiguration false true ∧
      ∃ first names, first.text = "@stubs" ∧
        PathBuf.new "src/@stubs/a.php" = pathThrough singleFileConfiguration.root (first :: names) :=
  have built : phpStubsTable id id (some (.dir stubsName singleFileEntries)) =
      some [("@stubs/a.php", "stubs/a.php")] := by
    decide
  have userDefined : Insertion.path "@stubs/a.php" (PathBuf.new "src/@stubs/a.php") .userDefined ∈
      load (fun _ _ => false) atStubsSystem (phpStubs id [("@stubs/a.php", "stubs/a.php")])
        singleFileConfiguration false true := by
    decide
  have builtIn : Insertion.content "@stubs/a.php" "stubs/a.php" .builtIn ∈
      load (fun _ _ => false) atStubsSystem (phpStubs id [("@stubs/a.php", "stubs/a.php")])
        singleFileConfiguration false true := by
    decide
  ⟨rfl, rfl, built, userDefined, builtIn,
    load_builtIn_name_of_userDefined _ _ _ _ _ _ rfl rfl built _ userDefined builtIn⟩

end AtStubs

end Mago
