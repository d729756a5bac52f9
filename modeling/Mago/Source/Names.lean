import Mago.Source.Load
import Mathlib.Data.String.Basic

/-!
# The names and categories of loaded sources

`add_file_to_manager` registers a file under `path.strip_prefix(root)`, displayed. For every file
the walk of the root finds, that name is the file's names below the root joined by separators,
and joining it back onto the root gives the file's path again. So a tree whose directories list
each name once never gives two user-defined sources one name.

Includes are compared with the walked paths as written, not resolved against the root, so a
relative include never skips a file found below an absolute root. A user-defined source is
skipped when it lies under an include, and every external source lies under the include it was
found from, so no path is registered both ways.
-/

namespace Mago

/-- The name and path of a source a run registers under `category`. -/
def Insertion.registeredAs (category : SourceCategory) : Insertion → Option (String × PathBuf)
  | .path name file registered => if registered = category then some (name, file) else none
  | .content _ _ _ => none

/-- An insertion registers a name and a path under a category exactly when it is the call
registering them. -/
theorem Insertion.registeredAs_eq_some {category : SourceCategory} {insertion : Insertion}
    {name : String} {path : PathBuf} :
    insertion.registeredAs category = some (name, path) ↔
      insertion = .path name path category := by
  cases insertion with
  | path registeredName file registered =>
      by_cases same : registered = category
      · simp [Insertion.registeredAs, same, and_comm, eq_comm]
      · simp [Insertion.registeredAs, same, Ne.symm same]
  | content => simp [Insertion.registeredAs]

section Paths

theorem FileName.getLast?_ne_slash (name : FileName) : name.text.toList.getLast? ≠ some '/' := by
  intro last
  obtain ⟨init, split⟩ := List.getLast?_eq_some_iff.mp last
  exact name.slash_not_mem (by rw [split]; simp)

/-- An entry's path is its directory's, then a separator unless that is empty or already ends
with one, then the name. -/
theorem pathIn_chars (name : FileName) (parent : PathBuf) :
    (name.pathIn parent).chars = parent.chars ++
      (if parent.chars.isEmpty || parent.chars.getLast? = some '/' then [] else ['/']) ++
        name.text.toList := by
  simp only [FileName.pathIn, PathBuf.push, PathBuf.isAbsolute_plainName name.plain,
    Bool.false_eq_true, ↓reduceIte]
  split <;> simp

/-- Below a path that does not end with a separator, each entry adds a separator and its name. -/
theorem pathThrough_chars {parent : PathBuf} (nonEmpty : parent.chars ≠ [])
    (noSlash : parent.chars.getLast? ≠ some '/') (names : List FileName) :
    (pathThrough parent names).chars =
      parent.chars ++ names.flatMap fun name => '/' :: name.text.toList := by
  induction names generalizing parent with
  | nil => simp
  | cons name names ih =>
      have separated : (name.pathIn parent).chars = (parent.chars ++ ['/']) ++ name.text.toList := by
        simp [pathIn_chars, List.isEmpty_iff, nonEmpty, noSlash]
      have lastOfName : (name.pathIn parent).chars.getLast? ≠ some '/' := by
        rw [separated, List.getLast?_append_of_ne_nil _ name.chars_ne_nil]
        exact name.getLast?_ne_slash
      rw [pathThrough_cons, ih (by simp [separated]) lastOfName, separated]
      simp

/-- The text of a path read back as a path is the path. -/
theorem new_toStringLossy (path : PathBuf) : PathBuf.new path.toStringLossy = path := rfl

/-- `strip_prefix(root)` of a path below the root leaves the names below it. -/
theorem stripPrefix_pathThrough (root : PathBuf) (names : List FileName) :
    (pathThrough root names).stripPrefix root = some (pathThrough ⟨[]⟩ names) := by
  rw [PathBuf.stripPrefix, if_pos (pathThrough_startsWith root names), components_pathThrough,
    List.drop_left, PathBuf.fromComponents, List.foldl_map]
  rfl

/-- Joining the names below the root back onto the root gives the path through them. -/
theorem join_pathThrough_names (root : PathBuf) (name : FileName) (names : List FileName) :
    root.join (PathBuf.new (pathThrough ⟨[]⟩ (name :: names)).toStringLossy) =
      pathThrough root (name :: names) := by
  have first : (name.pathIn ⟨[]⟩).chars = name.text.toList := by simp [pathIn_chars]
  have below := @pathThrough_chars (name.pathIn ⟨[]⟩)
    (by rw [first]; exact name.chars_ne_nil) (by rw [first]; exact name.getLast?_ne_slash) names
  have relative : PathBuf.isAbsolute (pathThrough (name.pathIn ⟨[]⟩) names) = false := by
    obtain ⟨head, tail, split⟩ := List.exists_cons_of_ne_nil name.chars_ne_nil
    have notSlash : head ≠ '/' := fun same =>
      name.slash_not_mem (by rw [split, same]; exact List.mem_cons_self _ _)
    rw [PathBuf.isAbsolute, below, first, split]
    simpa using notSlash
  have withRoot : (pathThrough (name.pathIn root) names).chars =
      (name.pathIn root).chars ++ names.flatMap fun name => '/' :: name.text.toList :=
    pathThrough_chars (by rw [pathIn_chars]; exact List.append_ne_nil_of_right_ne_nil _ name.chars_ne_nil)
      (by rw [pathIn_chars, List.getLast?_append_of_ne_nil _ name.chars_ne_nil]
          exact name.getLast?_ne_slash) names
  apply PathBuf.ext_chars
  simp only [new_toStringLossy, pathThrough_cons, PathBuf.join, PathBuf.push, relative,
    Bool.false_eq_true, ↓reduceIte, withRoot, pathIn_chars, below, first]
  split <;> simp

/-- Every path `add_path_to_manager` hands over lies below its starting path. -/
theorem addPathToManagerFiles_startsWith {start path : PathBuf} {target : Option FsEntry}
    {found : FsEntry} (handed : (path, found) ∈ addPathToManagerFiles start target) :
    path.startsWith start := by
  rcases target with _ | ((_ | _ | _ | ⟨_, entries⟩ | _))
  case some.dir =>
    rw [addPathToManagerFiles, handedOver_walkEntries] at handed
    split at handed
    · simp at handed
    · obtain ⟨_, -, names, rfl⟩ := mem_filesBelow start entries handed
      exact pathThrough_startsWith start _
  case some.file | some.special =>
    simp only [addPathToManagerFiles, List.mem_singleton, Prod.mk.injEq] at handed
    rw [handed.1]
    exact PathBuf.startsWith_refl start
  all_goals simp [addPathToManagerFiles] at handed

end Paths

section Loading

variable (globMatch : String → String → Bool)

/-- `add_file_to_manager` registers a file below the root under its names below the root. -/
theorem addFileToManager_pathThrough {root : PathBuf} {name : FileName} {names : List FileName}
    {includes : List PathBuf} {excludesSet : List Exclusion} {extensions : List String}
    {userDefined isFile : Bool} {insertion : Insertion}
    (added : addFileToManager globMatch (pathThrough root (name :: names)) root includes
      excludesSet extensions userDefined isFile = some insertion) :
    ∃ category, insertion = .path (pathThrough ⟨[]⟩ (name :: names)).toStringLossy
      (pathThrough root (name :: names)) category := by
  unfold addFileToManager at added
  rw [stripPrefix_pathThrough] at added
  split_ifs at added <;> exact ⟨_, (Option.some.inj added).symm⟩

/-- A file registered as user-defined was asked to be, and one registered as external was not. -/
theorem addFileToManager_category {path root : PathBuf} {includes : List PathBuf}
    {excludesSet : List Exclusion} {extensions : List String} {userDefined isFile : Bool}
    {name : String} {registered : PathBuf} {category : SourceCategory}
    (added : addFileToManager globMatch path root includes excludesSet extensions userDefined
      isFile = some (.path name registered category)) :
    registered = path ∧ category = if userDefined then .userDefined else .external := by
  obtain ⟨-, -, -, _, same⟩ := addFileToManager_eq_some globMatch added
  simp only [Insertion.path.injEq] at same
  exact ⟨same.2.1, same.2.2⟩

variable (fileSystem : PathBuf → Option FsEntry) (phpStubs : List (String × String))

/-- Every path `load` registers, `add_file_to_manager` registers for a file that
`add_path_to_manager` hands over from one of the starting paths. -/
theorem mem_load_path {configuration : SourceConfiguration} {includeExternals includeStubs : Bool}
    {name : String} {path : PathBuf} {category : SourceCategory}
    (member : Insertion.path name path category ∈
      load globMatch fileSystem phpStubs configuration includeExternals includeStubs) :
    ∃ start userDefined, (start, userDefined) ∈ startingPaths configuration includeExternals ∧
      ∃ found, (path, found) ∈ addPathToManagerFiles start (fileSystem start) ∧
        addFileToManager globMatch path configuration.root configuration.includes
          (createExcludesSet configuration.excludes configuration.root) configuration.extensions
          userDefined found.isFile = some (.path name path category) := by
  simp only [load, List.mem_append, List.mem_flatMap, addPathToManager, List.mem_filterMap,
    stubInsertions] at member
  rcases member with ⟨⟨start, userDefined⟩, starting, ⟨file, found⟩, handed, added⟩ | stub
  · obtain ⟨rfl, -⟩ := addFileToManager_category globMatch added
    exact ⟨start, userDefined, starting, found, handed, added⟩
  · split at stub <;> simp_all

/-- With no paths configured, the only user-defined starting path is the root. -/
theorem startingPaths_userDefined {configuration : SourceConfiguration}
    (noPaths : configuration.paths = []) {includeExternals : Bool} {start : PathBuf}
    (starting : (start, true) ∈ startingPaths configuration includeExternals) :
    start = configuration.root := by
  simp only [startingPaths, noPaths, List.isEmpty_nil, ↓reduceIte, List.singleton_append,
    List.mem_cons, Prod.mk.injEq, and_true] at starting
  rcases starting with same | external
  · exact same
  · split at external <;> simp_all

/-- The starting paths of external sources are the includes. -/
theorem startingPaths_external {configuration : SourceConfiguration} {includeExternals : Bool}
    {start : PathBuf} (starting : (start, false) ∈ startingPaths configuration includeExternals) :
    start ∈ configuration.includes := by
  simp only [startingPaths, List.mem_append] at starting
  rcases starting with user | external
  · split at user <;> simp_all
  · split at external <;> simp_all

/-- With no paths configured, a user-defined source of `load` is a file below the root,
registered under its names below the root. -/
theorem mem_load_userDefined {configuration : SourceConfiguration}
    (noPaths : configuration.paths = []) {rootName : FileName} {entries : List FsEntry}
    (rootDirectory : fileSystem configuration.root = some (.dir rootName entries))
    {includeExternals includeStubs : Bool} {name : String} {path : PathBuf}
    (registered : Insertion.path name path .userDefined ∈
      load globMatch fileSystem phpStubs configuration includeExternals includeStubs) :
    ∃ first names, path = pathThrough configuration.root (first :: names) ∧
      name = (pathThrough ⟨[]⟩ (first :: names)).toStringLossy := by
  obtain ⟨start, userDefined, starting, found, handed, added⟩ :=
    mem_load_path globMatch fileSystem phpStubs registered
  have user : userDefined = true := by
    cases userDefined
    · exact absurd (addFileToManager_category globMatch added).2 (by decide)
    · rfl
  subst user
  obtain rfl := startingPaths_userDefined noPaths starting
  rw [rootDirectory, addPathToManagerFiles, handedOver_walkEntries] at handed
  split at handed
  · simp at handed
  · obtain ⟨first, -, names, rfl⟩ := mem_filesBelow _ entries handed
    obtain ⟨category, same⟩ := addFileToManager_pathThrough globMatch added
    simp only [Insertion.path.injEq] at same
    exact ⟨first.name, names, rfl, same.1⟩

/-- Mapping the kept elements of a list, when each keeps its key, gives a sublist of the keys. -/
theorem map_filterMap_sublist {α β γ : Type} {keep : α → Option β} {value : β → γ}
    {key : α → γ} (keeps : ∀ a b, keep a = some b → value b = key a) :
    ∀ list : List α, ((list.filterMap keep).map value).Sublist (list.map key)
  | [] => by simp
  | a :: rest => by
      have tail := map_filterMap_sublist keeps rest
      cases kept : keep a with
      | none => simpa [List.filterMap_cons, kept] using tail.cons (key a)
      | some b => simpa [List.filterMap_cons, kept, keeps a b kept] using tail.cons₂ (key a)

/-- The user-defined sources of `load` come from the walk of the root, in its order. -/
theorem load_registeredAs_userDefined (configuration : SourceConfiguration)
    (noPaths : configuration.paths = []) (includeExternals includeStubs : Bool) :
    (load globMatch fileSystem phpStubs configuration includeExternals includeStubs).filterMap
        (Insertion.registeredAs .userDefined) =
      (addPathToManagerFiles configuration.root (fileSystem configuration.root)).filterMap
        fun (file, found) =>
          (addFileToManager globMatch file configuration.root configuration.includes
            (createExcludesSet configuration.excludes configuration.root)
            configuration.extensions true found.isFile).bind
            (Insertion.registeredAs .userDefined) := by
  have external : ∀ insertion ∈ (if includeExternals then
      configuration.includes.map fun includePath => (includePath, false) else []).flatMap
        (fun (path, userDefined) => addPathToManager globMatch path configuration.root
          configuration.includes (createExcludesSet configuration.excludes configuration.root)
          configuration.extensions userDefined (fileSystem path)),
      insertion.registeredAs .userDefined = none := by
    intro insertion member
    split at member
    · simp only [List.flatMap_map, List.mem_flatMap, addPathToManager, List.mem_filterMap] at member
      obtain ⟨_, -, _, -, added⟩ := member
      obtain ⟨-, -, -, _, rfl⟩ := addFileToManager_eq_some globMatch added
      rfl
    · simp at member
  have stubs : ∀ insertion ∈ stubInsertions phpStubs includeStubs,
      insertion.registeredAs .userDefined = none := by
    intro insertion member
    simp only [stubInsertions] at member
    split at member
    · obtain ⟨_, -, rfl⟩ := List.mem_map.mp member
      rfl
    · simp at member
  simp only [load, startingPaths, noPaths, List.isEmpty_nil, ↓reduceIte, List.singleton_append,
    List.flatMap_cons, List.filterMap_append]
  rw [List.filterMap_eq_nil_iff.mpr external, List.filterMap_eq_nil_iff.mpr stubs]
  simp only [List.append_nil, addPathToManager, List.filterMap_filterMap]

/-- With no paths configured and a root directory whose directories list each name once,
`load` registers no two user-defined sources under one name. -/
theorem load_userDefined_names_nodup (configuration : SourceConfiguration)
    (noPaths : configuration.paths = []) {rootName : FileName} {entries : List FsEntry}
    (rootDirectory : fileSystem configuration.root = some (.dir rootName entries))
    (distinct : namesDistinctBelow entries = true) (includeExternals includeStubs : Bool) :
    (((load globMatch fileSystem phpStubs configuration includeExternals includeStubs).filterMap
      (Insertion.registeredAs .userDefined)).map Prod.fst).Nodup := by
  set registered := (load globMatch fileSystem phpStubs configuration includeExternals
    includeStubs).filterMap (Insertion.registeredAs .userDefined) with registeredEq
  have joins : ∀ source ∈ registered,
      configuration.root.join (PathBuf.new source.1) = source.2 := by
    rintro ⟨name, path⟩ member
    obtain ⟨insertion, inLoad, found⟩ := List.mem_filterMap.mp member
    rw [Insertion.registeredAs_eq_some] at found
    subst found
    obtain ⟨first, names, rfl, rfl⟩ :=
      mem_load_userDefined globMatch fileSystem phpStubs noPaths rootDirectory inLoad
    exact join_pathThrough_names configuration.root first names
  have walked : (((addPathToManagerFiles configuration.root
      (fileSystem configuration.root))).map Prod.fst).Nodup := by
    rw [rootDirectory, addPathToManagerFiles, handedOver_walkEntries]
    split
    · simp
    · exact nodup_filesBelow _ entries distinct
  have paths : (registered.map Prod.snd).Nodup := by
    rw [registeredEq, load_registeredAs_userDefined globMatch fileSystem phpStubs configuration
      noPaths]
    refine List.Nodup.sublist (map_filterMap_sublist ?_ _) walked
    rintro ⟨file, found⟩ ⟨name, path⟩ kept
    obtain ⟨insertion, added, registeredAs⟩ := Option.bind_eq_some.mp kept
    obtain ⟨-, -, -, _, rfl⟩ := addFileToManager_eq_some globMatch added
    rw [Insertion.registeredAs_eq_some, Insertion.path.injEq] at registeredAs
    exact registeredAs.2.1.symm
  refine (List.Nodup.of_map Prod.snd paths).map_on fun first firstMember second secondMember
    sameName => Prod.ext sameName ?_
  rw [← joins first firstMember, ← joins second secondMember, sameName]

/-- No path is registered by `load` both as a user-defined and as an external source: a
user-defined file is skipped when it lies under an include, and an external file lies under the
include it was found from. -/
theorem load_userDefined_never_external (configuration : SourceConfiguration)
    (includeExternals includeStubs : Bool) (path : PathBuf) :
    (∃ name, Insertion.path name path .userDefined ∈
      load globMatch fileSystem phpStubs configuration includeExternals includeStubs) →
    ∀ name, Insertion.path name path .external ∉
      load globMatch fileSystem phpStubs configuration includeExternals includeStubs := by
  rintro ⟨name, user⟩ name' external
  obtain ⟨-, userDefined, -, found, -, added⟩ := mem_load_path globMatch fileSystem phpStubs user
  obtain ⟨notIncluded, -, -, -⟩ := addFileToManager_eq_some globMatch added
  have user : userDefined = true := by
    cases userDefined
    · exact absurd (addFileToManager_category globMatch added).2 (by decide)
    · rfl
  obtain ⟨start, userDefined', starting, found', handed, added'⟩ :=
    mem_load_path globMatch fileSystem phpStubs external
  have notUser : userDefined' = false := by
    cases userDefined'
    · rfl
    · exact absurd (addFileToManager_category globMatch added').2 (by decide)
  subst notUser
  have underInclude := notIncluded user
  simp only [List.any_eq_false, Bool.not_eq_true] at underInclude
  have startsWith := addPathToManagerFiles_startsWith handed
  simp_all [underInclude start (startingPaths_external starting)]

/-- A path below an absolute path never starts with a relative path that has components. -/
theorem startsWith_relative_eq_false {path start other : PathBuf} (below : path.startsWith start)
    (absolute : start.isAbsolute = true) (relative : other.isAbsolute = false)
    (hasComponents : other.components ≠ []) : path.startsWith other = false := by
  obtain ⟨startRest, startComponents⟩ := PathBuf.components_of_absolute absolute
  obtain ⟨otherFirst, otherRest, otherSplit⟩ := List.exists_cons_of_ne_nil hasComponents
  have otherHead := PathBuf.components_head_of_relative relative
  obtain ⟨rest, split⟩ := List.isPrefixOf_iff_prefix.mp below
  rw [startComponents] at split
  rw [PathBuf.startsWith, Bool.eq_false_iff, ne_eq, List.isPrefixOf_iff_prefix, otherSplit]
  rintro ⟨tail, otherPrefix⟩
  have sameHead := (List.cons.inj (otherPrefix.trans split.symm)).1
  exact otherHead (by rw [otherSplit, sameHead]; rfl)

/-- A relative include leaves `add_file_to_manager` unchanged for a path below an absolute
root. -/
theorem addFileToManager_relative_includes {path root : PathBuf} {includes : List PathBuf}
    (below : path.startsWith root) (absolute : root.isAbsolute = true)
    (relative : ∀ includePath ∈ includes,
      includePath.isAbsolute = false ∧ includePath.components ≠ [])
    (excludesSet : List Exclusion) (extensions : List String) (userDefined isFile : Bool) :
    addFileToManager globMatch path root includes excludesSet extensions userDefined isFile =
      addFileToManager globMatch path root [] excludesSet extensions userDefined isFile := by
  have never : (includes.any fun includePath => path.startsWith includePath) = false := by
    simp only [List.any_eq_false, Bool.not_eq_true]
    exact fun includePath member =>
      startsWith_relative_eq_false below absolute (relative includePath member).1
        (relative includePath member).2
  simp [addFileToManager, never]

/-- With no paths configured, an absolute root and relative includes, the user-defined sources
`load` registers are those it registers with no includes at all: includes are not resolved
against the root, so a relative one never skips a file found below an absolute root. -/
theorem load_userDefined_ignores_relative_includes (configuration : SourceConfiguration)
    (noPaths : configuration.paths = []) (absolute : configuration.root.isAbsolute = true)
    (relative : ∀ includePath ∈ configuration.includes,
      includePath.isAbsolute = false ∧ includePath.components ≠ [])
    (includeExternals includeStubs : Bool) :
    (load globMatch fileSystem phpStubs configuration includeExternals includeStubs).filterMap
        (Insertion.registeredAs .userDefined) =
      (load globMatch fileSystem phpStubs { configuration with includes := [] } false
        false).filterMap (Insertion.registeredAs .userDefined) := by
  rw [load_registeredAs_userDefined globMatch fileSystem phpStubs configuration noPaths,
    load_registeredAs_userDefined globMatch fileSystem phpStubs
      { configuration with includes := [] } noPaths]
  refine List.filterMap_congr fun ⟨file, found⟩ member => ?_
  dsimp only
  rw [addFileToManager_relative_includes globMatch (addPathToManagerFiles_startsWith member)
    absolute relative]

end Loading

section SingleFile

/-- The entries of a root holding `lib/a.php` and `app/a.php`: one file name in two
directories. -/
def twoDirectoryEntries : List FsEntry :=
  [.dir ⟨"lib", by decide⟩ [.file ⟨"a.php", by decide⟩],
    .dir ⟨"app", by decide⟩ [.file ⟨"a.php", by decide⟩]]

/-- A file system whose every starting path is a directory `src` holding `lib/a.php` and
`app/a.php`. -/
def twoDirectorySystem (_ : PathBuf) : Option FsEntry :=
  some (.dir srcName twoDirectoryEntries)

/-- Loading the root `src` over `lib/a.php` and `app/a.php` registers no user-defined name
twice. -/
theorem load_userDefined_names_nodup_twoDirectories :
    singleFileConfiguration.paths = [] ∧
      twoDirectorySystem singleFileConfiguration.root = some (.dir srcName twoDirectoryEntries) ∧
      namesDistinctBelow twoDirectoryEntries = true ∧
      (((load (fun _ _ => false) twoDirectorySystem [] singleFileConfiguration false false).filterMap
        (Insertion.registeredAs .userDefined)).map Prod.fst).Nodup :=
  ⟨rfl, rfl, by decide, load_userDefined_names_nodup _ _ _ _ rfl rfl (by decide) _ _⟩

/-- The root `src` with the include `src/vendor`. -/
def vendorIncludeConfiguration : SourceConfiguration :=
  ⟨PathBuf.new "src", [], [PathBuf.new "src/vendor"], [], ["php"]⟩

/-- A file system with `src/a.php` and `src/vendor/b.php`. -/
def vendorIncludeSystem (path : PathBuf) : Option FsEntry :=
  let vendor := FsEntry.dir ⟨"vendor", by decide⟩ [.file ⟨"b.php", by decide⟩]
  if path = PathBuf.new "src/vendor" then some vendor
  else some (.dir srcName [.file ⟨"a.php", by decide⟩, vendor])

/-- Loading the root `src` with the include `src/vendor` and externals registers `src/a.php` as
user-defined only, while the file under the include is external. -/
theorem load_userDefined_never_external_vendorInclude :
    (∃ name, Insertion.path name (PathBuf.new "src/a.php") .userDefined ∈
        load (fun _ _ => false) vendorIncludeSystem [] vendorIncludeConfiguration true false) ∧
      ∀ name, Insertion.path name (PathBuf.new "src/a.php") .external ∉
        load (fun _ _ => false) vendorIncludeSystem [] vendorIncludeConfiguration true false :=
  have registered : ∃ name, Insertion.path name (PathBuf.new "src/a.php") .userDefined ∈
      load (fun _ _ => false) vendorIncludeSystem [] vendorIncludeConfiguration true false :=
    ⟨"a.php", by decide⟩
  ⟨registered, load_userDefined_never_external _ _ _ _ _ _ _ registered⟩

/-- The root `/src` with the relative include `vendor`. -/
def absoluteRootConfiguration : SourceConfiguration :=
  ⟨PathBuf.new "/src", [], [PathBuf.new "vendor"], [], ["php"]⟩

/-- Below the absolute root `/src`, the relative include `vendor` skips no user-defined file. -/
theorem load_userDefined_ignores_relative_includes_absoluteRoot :
    absoluteRootConfiguration.paths = [] ∧ absoluteRootConfiguration.root.isAbsolute = true ∧
      (∀ includePath ∈ absoluteRootConfiguration.includes,
        includePath.isAbsolute = false ∧ includePath.components ≠ []) ∧
      (load (fun _ _ => false) singleFileSystem [] absoluteRootConfiguration true false).filterMap
          (Insertion.registeredAs .userDefined) =
        (load (fun _ _ => false) singleFileSystem [] { absoluteRootConfiguration with includes := [] }
          false false).filterMap (Insertion.registeredAs .userDefined) :=
  ⟨rfl, by decide, by decide,
    load_userDefined_ignores_relative_includes _ _ _ _ rfl (by decide) (by decide) _ _⟩

end SingleFile

end Mago
