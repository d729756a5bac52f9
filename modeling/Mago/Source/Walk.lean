import Mago.Source.Path
import Mathlib.Data.List.Nodup

/-!
# Walking a starting directory

`add_path_to_manager` hands every file below a starting directory to `add_file_to_manager`.
The walk is async-walkdir's: depth first, each entry's path passed to a filter that may skip
the entry, or skip it together with everything below it. The filter skips an entry and its
subtree when `entry.path().starts_with(".")`.

`Path::starts_with` compares whole components, and an entry's path is the starting path with
the names on the way down pushed onto it. So the filter sees a path starting with `.` exactly
when the starting path itself does, as `./src` or `.` do, and never because of an entry's own
name: a hidden directory `src/.git` is walked like any other.
-/

namespace Mago

/-- A file name as a directory lists it. -/
structure FileName where
  text : String
  plain : PathBuf.isPlainName text.toList = true

/-- `parent.join(name)`: the path of the entry `name` of the directory at `parent`. -/
def FileName.pathIn (name : FileName) (parent : PathBuf) : PathBuf :=
  parent.push ⟨name.text.toList⟩

/-- The path reached from `parent` through the entries `names`, each inside the one before, as
the walk builds the paths of its entries. -/
def pathThrough (parent : PathBuf) (names : List FileName) : PathBuf :=
  names.foldl (fun path name => name.pathIn path) parent

/-- An entry of a directory, with what lies below it. A special file is a device, a FIFO or a
socket. A symbolic link to a directory is `linkedDir`, with the entries of the directory it
points at: `Path::is_dir` follows it, the walk does not. Any other symbolic link, a dangling one
included, is `symlink`. -/
inductive FsEntry where
  | file (name : FileName)
  | special (name : FileName)
  | symlink (name : FileName)
  | dir (name : FileName) (entries : List FsEntry)
  | linkedDir (name : FileName) (entries : List FsEntry)

namespace FsEntry

/-- The entry's name in its directory. -/
def name : FsEntry → FileName
  | .file name | .special name | .symlink name | .dir name _ | .linkedDir name _ => name

/-- `Path::is_dir`, which follows a symbolic link. -/
def isDir : FsEntry → Bool
  | .dir _ _ | .linkedDir _ _ => true
  | _ => false

/-- `Path::is_symlink`. -/
def isSymlink : FsEntry → Bool
  | .symlink _ | .linkedDir _ _ => true
  | _ => false

/-- `Path::is_file`: a regular file. -/
def isFile : FsEntry → Bool
  | .file _ => true
  | _ => false

end FsEntry

/-- async-walkdir's `Filtering`: what the walk does with an entry. -/
inductive Filtering where
  | ignore
  | ignoreDir
  | «continue»
  deriving Repr, DecidableEq

namespace Filtering

/-- Whether the walk yields the entry. -/
def yields : Filtering → Bool
  | .continue => true
  | _ => false

/-- Whether the walk enters the entry when it is a directory. -/
def descends : Filtering → Bool
  | .ignoreDir => false
  | _ => true

end Filtering

section Walk

variable (filter : PathBuf → Filtering)

mutual

/-- The walk at one entry of the directory at `parent`: the entry's path goes to the filter,
the entry is yielded when the filter continues, and a directory is then walked unless the
filter ignores it with its contents. A symbolic link is not followed, also to a directory. -/
def walkEntry (parent : PathBuf) : FsEntry → List (PathBuf × FsEntry)
  | .file name =>
      if (filter (name.pathIn parent)).yields then [(name.pathIn parent, .file name)] else []
  | .special name =>
      if (filter (name.pathIn parent)).yields then [(name.pathIn parent, .special name)] else []
  | .symlink name =>
      if (filter (name.pathIn parent)).yields then [(name.pathIn parent, .symlink name)] else []
  | .linkedDir name entries =>
      if (filter (name.pathIn parent)).yields then [(name.pathIn parent, .linkedDir name entries)]
      else []
  | .dir name entries =>
      let path := name.pathIn parent
      (if (filter path).yields then [(path, .dir name entries)] else []) ++
        if (filter path).descends then walkEntries path entries else []

/-- `WalkDir::new(parent).filter(filter)`: the entries below a directory, depth first. -/
def walkEntries (parent : PathBuf) : List FsEntry → List (PathBuf × FsEntry)
  | [] => []
  | entry :: rest => walkEntry parent entry ++ walkEntries parent rest

end

end Walk

/-- The filter of `add_path_to_manager`. -/
def hiddenEntryFilter (path : PathBuf) : Filtering :=
  if path.startsWith (PathBuf.new ".") then .ignoreDir else .continue

/-- The walked entries the loop of `add_path_to_manager` hands to `add_file_to_manager`:
those that are neither directories nor symbolic links. -/
def handedOver (walked : List (PathBuf × FsEntry)) : List (PathBuf × FsEntry) :=
  walked.filter fun (_, entry) => !(entry.isDir || entry.isSymlink)

/-- The calls of `add_path_to_manager` to `add_file_to_manager`, in order, given what the file
system holds at `path` (`none` when nothing exists there): none for a symbolic link, one for
the path itself when it is not a directory, and one for each entry the filtered walk of a
directory yields that is neither a directory nor a symbolic link. -/
def addPathToManagerFiles (path : PathBuf) : Option FsEntry → List (PathBuf × FsEntry)
  | none => []
  | some (.symlink _) | some (.linkedDir _ _) => []
  | some (.dir _ entries) => handedOver (walkEntries hiddenEntryFilter path entries)
  | some entry => [(path, entry)]

@[simp]
theorem handedOver_nil : handedOver [] = [] := rfl

@[simp]
theorem handedOver_append (walked more : List (PathBuf × FsEntry)) :
    handedOver (walked ++ more) = handedOver walked ++ handedOver more :=
  List.filter_append _ _

mutual

/-- The files at and below an entry of the directory at `parent`, depth first: every entry
that is neither a directory nor a symbolic link, with its path. -/
def FsEntry.filesAt (parent : PathBuf) : FsEntry → List (PathBuf × FsEntry)
  | .file name => [(name.pathIn parent, .file name)]
  | .special name => [(name.pathIn parent, .special name)]
  | .symlink _ | .linkedDir _ _ => []
  | .dir name entries => filesBelow (name.pathIn parent) entries

/-- The files below a directory at `parent` holding `entries`, depth first. -/
def filesBelow (parent : PathBuf) : List FsEntry → List (PathBuf × FsEntry)
  | [] => []
  | entry :: rest => entry.filesAt parent ++ filesBelow parent rest

end

mutual

/-- Whether every directory at or below the entry lists each name once, as a file system's
directories do. -/
def FsEntry.namesDistinct : FsEntry → Bool
  | .dir _ entries => namesDistinctBelow entries
  | _ => true

/-- Whether the entries of a directory have distinct names, and so do those of every directory
below them. -/
def namesDistinctBelow : List FsEntry → Bool
  | [] => true
  | entry :: rest =>
      (rest.all fun other => other.name.text != entry.name.text) && entry.namesDistinct &&
        namesDistinctBelow rest

end

/-- An entry's path starts with `.` exactly when its directory's does. -/
@[simp]
theorem startsWith_dot_pathIn (name : FileName) (parent : PathBuf) :
    (name.pathIn parent).startsWith (PathBuf.new ".") = parent.startsWith (PathBuf.new ".") :=
  PathBuf.startsWith_dot_push_plainName parent name.plain

@[simp]
theorem hiddenEntryFilter_yields (path : PathBuf) :
    (hiddenEntryFilter path).yields = !path.startsWith (PathBuf.new ".") := by
  unfold hiddenEntryFilter
  split <;> simp_all [Filtering.yields]

@[simp]
theorem hiddenEntryFilter_descends (path : PathBuf) :
    (hiddenEntryFilter path).descends = !path.startsWith (PathBuf.new ".") := by
  unfold hiddenEntryFilter
  split <;> simp_all [Filtering.descends]

mutual

/-- At one entry, the filtered walk hands over nothing below a directory whose path starts
with `.`, and every file below any other. -/
theorem handedOver_walkEntry (parent : PathBuf) :
    ∀ entry, handedOver (walkEntry hiddenEntryFilter parent entry) =
      if parent.startsWith (PathBuf.new ".") then [] else entry.filesAt parent
  | .file name | .special name | .symlink name | .linkedDir name _ => by
      cases dotted : parent.startsWith (PathBuf.new ".") <;>
        simp [walkEntry, FsEntry.filesAt, dotted, handedOver, FsEntry.isDir, FsEntry.isSymlink]
  | .dir name entries => by
      have below := handedOver_walkEntries (name.pathIn parent) entries
      rw [startsWith_dot_pathIn] at below
      cases dotted : parent.startsWith (PathBuf.new ".") <;>
        simp_all [walkEntry, FsEntry.filesAt, handedOver, FsEntry.isDir]

/-- Below a directory, the filtered walk hands over nothing when its path starts with `.`,
and every file below it otherwise. -/
theorem handedOver_walkEntries (parent : PathBuf) :
    ∀ entries, handedOver (walkEntries hiddenEntryFilter parent entries) =
      if parent.startsWith (PathBuf.new ".") then [] else filesBelow parent entries
  | [] => by simp [walkEntries, filesBelow]
  | entry :: rest => by
      rw [walkEntries, handedOver_append, handedOver_walkEntry, handedOver_walkEntries, filesBelow]
      split <;> simp

end

/-- `add_path_to_manager` on a directory hands over every file below it, depth first, hidden or
not, unless the directory's own path starts with `.` (as `.` and `./src` do), in which case it
hands over none. -/
theorem addPathToManagerFiles_dir (path : PathBuf) (name : FileName) (entries : List FsEntry) :
    addPathToManagerFiles path (some (.dir name entries)) =
      if path.startsWith (PathBuf.new ".") then [] else filesBelow path entries :=
  handedOver_walkEntries path entries

section PathsBelow

theorem FileName.chars_ne_nil (name : FileName) : name.text.toList ≠ [] := by
  have plain := name.plain
  simp only [PathBuf.isPlainName, Bool.and_eq_true, Bool.not_eq_true', List.isEmpty_eq_false]
    at plain
  exact plain.1.1.1

theorem FileName.slash_not_mem (name : FileName) : '/' ∉ name.text.toList := by
  have plain := name.plain
  simp only [PathBuf.isPlainName, Bool.and_eq_true, Bool.not_eq_true', List.contains_eq_any_beq,
    List.any_eq_false, beq_iff_eq] at plain
  exact fun member => plain.1.1.2 _ member rfl

@[simp]
theorem pathThrough_nil (parent : PathBuf) : pathThrough parent [] = parent := rfl

@[simp]
theorem pathThrough_cons (parent : PathBuf) (name : FileName) (names : List FileName) :
    pathThrough parent (name :: names) = pathThrough (name.pathIn parent) names := rfl

/-- An entry's path has its directory's components, then its name. -/
theorem components_pathIn (name : FileName) (parent : PathBuf) :
    (name.pathIn parent).components = parent.components ++ [.normal name.text] := by
  by_cases empty : parent.chars = []
  · obtain ⟨chars⟩ := parent
    simp only at empty
    subst empty
    have pushed : name.pathIn ⟨[]⟩ = ⟨name.text.toList⟩ := by
      simp [FileName.pathIn, PathBuf.push, PathBuf.isAbsolute_plainName name.plain]
    rw [pushed, PathBuf.components_plainName name.plain]
    rfl
  · exact PathBuf.components_push_plainName empty name.plain

/-- A path through entries has the starting path's components, then the entries' names. -/
theorem components_pathThrough (parent : PathBuf) (names : List FileName) :
    (pathThrough parent names).components =
      parent.components ++ names.map fun name => .normal name.text := by
  induction names generalizing parent with
  | nil => simp
  | cons name names ih => simp [ih, components_pathIn]

/-- A path through entries starts with the starting path. -/
theorem pathThrough_startsWith (parent : PathBuf) (names : List FileName) :
    (pathThrough parent names).startsWith parent := by
  simp [PathBuf.startsWith, components_pathThrough, List.isPrefixOf_iff_prefix]

mutual

/-- Every file at or below an entry lies on a path through the entry. -/
theorem FsEntry.mem_filesAt (parent : PathBuf) {path : PathBuf} {found : FsEntry} :
    ∀ entry : FsEntry, (path, found) ∈ entry.filesAt parent →
      ∃ names, path = pathThrough parent (entry.name :: names)
  | .file name, member | .special name, member => by
      simp only [FsEntry.filesAt, List.mem_singleton, Prod.mk.injEq] at member
      exact ⟨[], member.1⟩
  | .symlink _, member | .linkedDir _ _, member => by simp [FsEntry.filesAt] at member
  | .dir name entries, member => by
      obtain ⟨_, -, names, rfl⟩ := mem_filesBelow (name.pathIn parent) entries member
      exact ⟨_ :: names, rfl⟩

/-- Every file below a directory lies on a path through one of its entries. -/
theorem mem_filesBelow (parent : PathBuf) {path : PathBuf} {found : FsEntry} :
    ∀ entries : List FsEntry, (path, found) ∈ filesBelow parent entries →
      ∃ entry ∈ entries, ∃ names, path = pathThrough parent (entry.name :: names)
  | [], member => by simp [filesBelow] at member
  | entry :: rest, member => by
      rcases List.mem_append.mp member with here | later
      · exact ⟨entry, List.mem_cons_self _ _, FsEntry.mem_filesAt parent entry here⟩
      · obtain ⟨other, otherMember, found⟩ := mem_filesBelow parent rest later
        exact ⟨other, List.mem_cons_of_mem _ otherMember, found⟩

end

/-- Paths through two differently named entries of one directory differ. -/
theorem pathThrough_ne_of_name_ne (parent : PathBuf) {first second : FileName}
    (names names' : List FileName) (different : first.text ≠ second.text) :
    pathThrough parent (first :: names) ≠ pathThrough parent (second :: names') := by
  intro same
  have components := congrArg PathBuf.components same
  simp only [components_pathThrough, List.map_cons, List.append_cancel_left_eq,
    List.cons.injEq, Component.normal.injEq] at components
  exact different components.1

mutual

/-- In a tree whose directories list each name once, the walk finds every file at or below an
entry once. -/
theorem FsEntry.nodup_filesAt (parent : PathBuf) :
    ∀ entry : FsEntry, entry.namesDistinct → ((entry.filesAt parent).map Prod.fst).Nodup
  | .file _, _ | .special _, _ | .symlink _, _ | .linkedDir _ _, _ => by simp [FsEntry.filesAt]
  | .dir name entries, distinct => nodup_filesBelow (name.pathIn parent) entries distinct

/-- In a tree whose directories list each name once, the walk finds every file below a
directory once. -/
theorem nodup_filesBelow (parent : PathBuf) :
    ∀ entries, namesDistinctBelow entries → ((filesBelow parent entries).map Prod.fst).Nodup
  | [], _ => by simp [filesBelow]
  | entry :: rest, distinct => by
      simp only [namesDistinctBelow, Bool.and_eq_true, List.all_eq_true, bne_iff_ne, ne_eq]
        at distinct
      obtain ⟨⟨fresh, entryDistinct⟩, restDistinct⟩ := distinct
      rw [filesBelow, List.map_append, List.nodup_append]
      refine ⟨FsEntry.nodup_filesAt parent entry entryDistinct,
        nodup_filesBelow parent rest restDistinct, ?_⟩
      rintro _ inEntry inRest
      obtain ⟨⟨path, found⟩, member, rfl⟩ := List.mem_map.mp inEntry
      obtain ⟨⟨path', found'⟩, member', same⟩ := List.mem_map.mp inRest
      obtain ⟨names, rfl⟩ := FsEntry.mem_filesAt parent entry member
      obtain ⟨other, otherMember, names', rfl⟩ := mem_filesBelow parent rest member'
      exact pathThrough_ne_of_name_ne parent names' names (fresh other otherMember) same

end

end PathsBelow

section HiddenDirectory

/-- The entries of a directory holding a hidden directory `.hidden` with a file `a.php`. -/
def hiddenDirectoryEntries : List FsEntry :=
  [.dir ⟨".hidden", by decide⟩ [.file ⟨"a.php", by decide⟩]]

/-- The entries of a directory holding one file `a.php`. -/
def visibleFileEntries : List FsEntry :=
  [.file ⟨"a.php", by decide⟩]

/-- Walking `src`, the file `src/.hidden/a.php` below a hidden directory reaches
`add_file_to_manager`; walking `./src`, the file `./src/a.php`, with no hidden name on its
way, does not. -/
theorem addPathToManager_filter_misses_hidden_entries :
    (addPathToManagerFiles (PathBuf.new "src")
        (some (.dir ⟨"src", by decide⟩ hiddenDirectoryEntries))).map Prod.fst =
      [PathBuf.new "src/.hidden/a.php"] ∧
    (addPathToManagerFiles (PathBuf.new "./src")
        (some (.dir ⟨"src", by decide⟩ visibleFileEntries))).map Prod.fst = [] := by
  decide

end HiddenDirectory

end Mago
