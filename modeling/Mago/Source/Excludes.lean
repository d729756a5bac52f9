import Mago.Source.Names

/-!
# How excludes apply below the root

`create_excludes_set` makes two kinds of exclusion. An exclude without a wildcard is a path, and
a relative one is joined to the root, so it names a subtree of the root: `vendor`, `./vendor` and
`vendor/` all exclude the directory `vendor` of the root and nothing else. An exclude with a
wildcard is a glob pattern, matched against the whole text of each path as the walk builds it,
and is not joined to the root. Below an absolute root every such text begins with `/`, and a
matcher that reads a pattern from its start, as `glob_match` does, matches no pattern that begins
with another plain character: `vendor/*` or `src/**/*.php` exclude nothing there.
-/

namespace Mago

/-- The characters that a `glob_match` pattern does not match literally at its start: `*`, `?`,
`[`, an opening brace, the escape `\` and `!`, which at the start of a pattern negates it. -/
def globSpecialChars : List Char := ['*', '?', '[', '\x7b', '\\', '!']

/-- A glob matcher that reads a pattern from its start: a pattern whose first character is no
special character matches only texts that begin with that character. `glob_match` matches whole
texts, so it is one; a pattern it negates begins with `!`, one of the special characters. -/
def AnchoredGlob (globMatch : String → String → Bool) : Prop :=
  ∀ pattern text first, pattern.toList.head? = some first → first ∉ globSpecialChars →
    globMatch pattern text = true → text.toList.head? = some first

section Excludes

variable (globMatch : String → String → Bool)

/-- A relative exclude without a wildcard is resolved against the root: it excludes a path
below the root exactly when its components start the names below the root, so `vendor`,
`./vendor` and `vendor/` all exclude the subtree `vendor` of the root and nothing else. -/
theorem isExcluded_relative_exclude (root : PathBuf) (nonEmpty : root.chars ≠ [])
    {exclude : String} (noWildcard : exclude.contains '*' = false)
    (relative : (PathBuf.new exclude).isAbsolute = false) (names : List FileName) :
    isExcluded globMatch (pathThrough root names) (createExcludesSet [exclude] root) =
      (PathBuf.bodyComponents exclude.toList).isPrefixOf
        (names.map fun name => .normal name.text) := by
  have joined : (root.join (PathBuf.new exclude)).components =
      root.components ++ PathBuf.bodyComponents exclude.toList :=
    PathBuf.components_push_relative nonEmpty relative
  simp only [createExcludesSet, List.map_cons, List.map_nil, noWildcard, relative,
    Bool.false_eq_true, ↓reduceIte, isExcluded, PathBuf.startsWith, joined,
    components_pathThrough]
  rw [Bool.eq_iff_iff]
  simp [List.isPrefixOf_iff_prefix]

/-- A path below an absolute path is absolute. -/
theorem isAbsolute_of_startsWith {path root : PathBuf} (below : path.startsWith root)
    (absolute : root.isAbsolute = true) : path.isAbsolute = true := by
  obtain ⟨rest, rootComponents⟩ := PathBuf.components_of_absolute absolute
  obtain ⟨tail, split⟩ := List.isPrefixOf_iff_prefix.mp below
  apply PathBuf.isAbsolute_of_components_head
  rw [← split, rootComponents]
  rfl

/-- Glob excludes that begin with a plain character other than `/` match no absolute path. -/
theorem isExcluded_relative_globs {patterns : List String} (anchored : AnchoredGlob globMatch)
    (relativeGlobs : ∀ pattern ∈ patterns, pattern.contains '*' = true ∧
      ∃ first, pattern.toList.head? = some first ∧ first ∉ '/' :: globSpecialChars)
    (root : PathBuf) {path : PathBuf} (absolute : path.isAbsolute = true) :
    isExcluded globMatch path (createExcludesSet patterns root) = false := by
  rw [Bool.eq_false_iff, ne_eq, isExcluded_eq_any, List.any_eq_true]
  rintro ⟨_, member, matched⟩
  obtain ⟨pattern, patternMember, rfl⟩ := List.mem_map.mp member
  obtain ⟨wildcard, first, head, plain⟩ := relativeGlobs pattern patternMember
  simp only [wildcard, ↓reduceIte, Exclusion.Matches] at matched
  have slash : path.toStringLossy.toList.head? = some '/' := by
    simpa [PathBuf.isAbsolute] using absolute
  have sameFirst := anchored pattern _ first head
    (fun special => plain (List.mem_cons_of_mem _ special)) matched
  rw [slash, Option.some.injEq] at sameFirst
  exact plain (sameFirst ▸ List.mem_cons_self _ _)

variable (fileSystem : PathBuf → Option FsEntry) (phpStubs : List (String × String))

/-- With no paths configured, no externals and an absolute root, glob excludes that begin with a
plain character other than `/`, such as `vendor/*`, change nothing `load` registers: they are
matched against whole paths, which begin with `/`, and unlike path excludes are not joined to
the root. -/
theorem load_ignores_relative_glob_excludes (configuration : SourceConfiguration)
    (noPaths : configuration.paths = []) (absolute : configuration.root.isAbsolute = true)
    (anchored : AnchoredGlob globMatch) {patterns : List String}
    (relativeGlobs : ∀ pattern ∈ patterns, pattern.contains '*' = true ∧
      ∃ first, pattern.toList.head? = some first ∧ first ∉ '/' :: globSpecialChars)
    (includeStubs : Bool) :
    load globMatch fileSystem phpStubs
        { configuration with excludes := configuration.excludes ++ patterns } false includeStubs =
      load globMatch fileSystem phpStubs configuration false includeStubs := by
  have sameStart : startingPaths { configuration with excludes := configuration.excludes ++ patterns }
      false = startingPaths configuration false := rfl
  simp only [load, sameStart, createExcludesSet_append, startingPaths, noPaths, List.isEmpty_nil,
    ↓reduceIte, Bool.false_eq_true, List.append_nil, List.flatMap_cons, List.flatMap_nil,
    addPathToManager]
  congr 1
  refine List.filterMap_congr fun ⟨file, found⟩ handed => ?_
  have kept := isExcluded_relative_globs globMatch anchored relativeGlobs configuration.root
    (isAbsolute_of_startsWith (addPathToManagerFiles_startsWith handed) absolute)
  rw [addFileToManager_append_excludes]
  cases added : addFileToManager globMatch file configuration.root configuration.includes
      (createExcludesSet configuration.excludes configuration.root) configuration.extensions true
      found.isFile with
  | none => rfl
  | some insertion =>
      obtain ⟨-, -, -, _, rfl⟩ := addFileToManager_eq_some globMatch added
      simp [Option.filter, Insertion.excludedBy, kept]

end Excludes

section Vendor

/-- The directory name `vendor`. -/
def vendorName : FileName := ⟨"vendor", by decide⟩

/-- The exclude `vendor` below the root `src` excludes `src/vendor/a.php`. -/
theorem isExcluded_relative_exclude_vendor :
    (PathBuf.new "src").chars ≠ [] ∧ "vendor".contains '*' = false ∧
      (PathBuf.new "vendor").isAbsolute = false ∧
      isExcluded (fun _ _ => false) (pathThrough (PathBuf.new "src") (vendorName :: singleFileEntries.map FsEntry.name))
          (createExcludesSet ["vendor"] (PathBuf.new "src")) =
        (PathBuf.bodyComponents "vendor".toList).isPrefixOf
          ((vendorName :: singleFileEntries.map FsEntry.name).map fun name => .normal name.text) :=
  have noWildcard : "vendor".contains '*' = false := by
    rw [Bool.eq_false_iff, ne_eq, String.contains_iff]
    decide
  ⟨by decide, noWildcard, by decide,
    isExcluded_relative_exclude _ _ (by decide) noWildcard (by decide) _⟩

/-- A file system whose every starting path is a directory `src` holding `vendor/a.php`. -/
def vendorSystem (_ : PathBuf) : Option FsEntry :=
  some (.dir srcName [.dir vendorName singleFileEntries])

/-- Exact text comparison reads a pattern from its start. -/
theorem anchoredGlob_beq : AnchoredGlob fun pattern text => pattern == text :=
  fun _ _ _ head _ same => by rwa [← eq_of_beq same]

/-- Below the absolute root `/src`, the glob exclude `vendor/*` keeps `/src/vendor/a.php`. -/
theorem load_ignores_relative_glob_excludes_vendor :
    absoluteRootConfiguration.paths = [] ∧ absoluteRootConfiguration.root.isAbsolute = true ∧
      AnchoredGlob (fun pattern text => pattern == text) ∧
      (∀ pattern ∈ ["vendor/*"], pattern.contains '*' = true ∧
        ∃ first, pattern.toList.head? = some first ∧ first ∉ '/' :: globSpecialChars) ∧
      load (fun pattern text => pattern == text) vendorSystem []
          { absoluteRootConfiguration with
            excludes := absoluteRootConfiguration.excludes ++ ["vendor/*"] } false false =
        load (fun pattern text => pattern == text) vendorSystem [] absoluteRootConfiguration
          false false :=
  have relativeGlobs : ∀ pattern ∈ ["vendor/*"], pattern.contains '*' = true ∧
      ∃ first, pattern.toList.head? = some first ∧ first ∉ '/' :: globSpecialChars := by
    simp only [List.mem_singleton, forall_eq, String.contains_iff]
    decide
  ⟨rfl, by decide, anchoredGlob_beq, relativeGlobs,
    load_ignores_relative_glob_excludes _ _ _ _ rfl (by decide) anchoredGlob_beq relativeGlobs _⟩

end Vendor

end Mago
