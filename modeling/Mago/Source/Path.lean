import Mathlib.Data.List.Basic

/-!
# Paths

The source loader compares paths with `Path::starts_with`, builds them with `PathBuf::push`
and reads their extensions. This file gives the Unix meaning of those operations, on the
bytes of the path.

`Path::components` splits a path at its separators. An absolute path starts with a root
component; a relative path starting with `.` followed by a separator or nothing starts with a
current-directory component. Every other `.`, and every empty run between separators, is
dropped, and `..` is a parent-directory component. `starts_with` compares whole components, so
`./src` starts with `.` while `.git` does not.
-/

namespace Mago

/-- `std::path::Component` on Unix. -/
inductive Component where
  | rootDir
  | curDir
  | parentDir
  | normal (name : String)
  deriving Repr, DecidableEq

/-- `Component::as_os_str`. -/
def Component.text : Component → String
  | .rootDir => "/"
  | .curDir => "."
  | .parentDir => ".."
  | .normal name => name

/-- `PathBuf`: the bytes of a path. -/
structure PathBuf where
  chars : List Char
  deriving Repr, DecidableEq

namespace PathBuf

/-- `Path::new`. -/
def new (text : String) : PathBuf := ⟨text.toList⟩

/-- `parse_single_component`: an empty run and `.` are no component, `..` is the parent. -/
def parseSingleComponent : List Char → Option Component
  | [] => none
  | ['.'] => none
  | ['.', '.'] => some .parentDir
  | chars => some (.normal (String.mk chars))

/-- The components of the part of a path after its root or its leading `.`. -/
def bodyComponents (chars : List Char) : List Component :=
  (chars.splitOn '/').filterMap parseSingleComponent

/-- `Path::components`. -/
def components (path : PathBuf) : List Component :=
  match path.chars with
  | '/' :: rest => .rootDir :: bodyComponents rest
  | ['.'] => [.curDir]
  | '.' :: '/' :: rest => .curDir :: bodyComponents rest
  | chars => bodyComponents chars

/-- `Path::starts_with`: the components of `base` are a prefix of those of `path`. -/
def startsWith (path base : PathBuf) : Bool :=
  base.components.isPrefixOf path.components

/-- `Path::is_absolute`. -/
def isAbsolute (path : PathBuf) : Bool :=
  path.chars.head? = some '/'

/-- `PathBuf::push`: an absolute path replaces the buffer; otherwise a separator goes in
between unless the buffer is empty or already ends with one. -/
def push (path other : PathBuf) : PathBuf :=
  if other.isAbsolute then other
  else if path.chars.isEmpty || path.chars.getLast? = some '/' then ⟨path.chars ++ other.chars⟩
  else ⟨path.chars ++ '/' :: other.chars⟩

/-- `Path::join`. -/
def join (path other : PathBuf) : PathBuf := path.push other

/-- A path built from components, each pushed onto an empty path in turn, as
`PathBuf: FromIterator<Component>` builds it. -/
def fromComponents (components : List Component) : PathBuf :=
  components.foldl (fun path component => path.push (new component.text)) ⟨[]⟩

/-- `Path::strip_prefix`: the components after those of `base`, when the path starts with
`base`. -/
def stripPrefix (path base : PathBuf) : Option PathBuf :=
  if path.startsWith base then some (fromComponents (path.components.drop base.components.length))
  else none

/-- `Path::to_string_lossy`, and `Path::display` followed by `to_string`. -/
def toStringLossy (path : PathBuf) : String := String.mk path.chars

/-- `Path::file_name`: the last component, when it is a name. -/
def fileName (path : PathBuf) : Option String :=
  match path.components.getLast? with
  | some (.normal name) => some name
  | _ => none

/-- `rsplit_file_at_dot`: the parts of a file name around its last dot; a name whose only dot
is its first character has no extension. -/
def rsplitFileAtDot (name : List Char) : Option (List Char × List Char) :=
  match name.reverse.span (· ≠ '.') with
  | (_, []) => none
  | (_, _ :: []) => none
  | (afterReversed, _ :: beforeReversed) => some (beforeReversed.reverse, afterReversed.reverse)

/-- `Path::extension`. -/
def extension (path : PathBuf) : Option String :=
  path.fileName.bind fun name =>
    (rsplitFileAtDot name.toList).map fun (_, after) => String.mk after

/-- A file name as a directory lists it: not empty, without separator, and neither `.` nor
`..`. -/
def isPlainName (chars : List Char) : Bool :=
  !chars.isEmpty && !chars.contains '/' && chars != ['.'] && chars != ['.', '.']

theorem splitOn_append_separator (before after : List Char) :
    (before ++ '/' :: after).splitOn '/' = before.splitOn '/' ++ after.splitOn '/' := by
  induction before with
  | nil => simp [List.splitOn]
  | cons char before ih =>
      simp only [List.splitOn] at ih ⊢
      rw [List.cons_append, List.splitOnP_cons, List.splitOnP_cons, ih]
      split
      · rfl
      · obtain ⟨first, rest, split⟩ := List.exists_cons_of_ne_nil (List.splitOnP_ne_nil _ before)
        rw [split]
        rfl

theorem bodyComponents_append_separator (before after : List Char) :
    bodyComponents (before ++ '/' :: after) = bodyComponents before ++ bodyComponents after := by
  simp [bodyComponents, splitOn_append_separator]

theorem parseSingleComponent_plainName {name : List Char} (plain : isPlainName name) :
    parseSingleComponent name = some (.normal (String.mk name)) := by
  simp [isPlainName] at plain
  unfold parseSingleComponent
  split <;> simp_all

theorem bodyComponents_plainName {name : List Char} (plain : isPlainName name) :
    bodyComponents name = [.normal (String.mk name)] := by
  have noSeparator : ∀ char ∈ name, ¬(char == '/') = true := by
    simp [isPlainName] at plain
    exact fun char member same => plain.1.1.2 (by rwa [beq_iff_eq.mp same] at member)
  simp [bodyComponents, List.splitOn, List.splitOnP_eq_single _ _ noSeparator,
    parseSingleComponent_plainName plain]

/-- Appending a separator and more components to a non-empty path appends their components:
the root or leading `.` of the path is kept. -/
theorem components_append_separator {chars : List Char} (nonEmpty : chars ≠ [])
    (after : List Char) :
    components ⟨chars ++ '/' :: after⟩ = components ⟨chars⟩ ++ bodyComponents after := by
  obtain ⟨first, rest, rfl⟩ := List.exists_cons_of_ne_nil nonEmpty
  by_cases slash : first = '/'
  · subst slash
    simp [components, bodyComponents_append_separator]
  by_cases dot : first = '.'
  · subst dot
    cases rest with
    | nil => simp [components]
    | cons next rest =>
        by_cases slash' : next = '/'
        · subst slash'
          simp [components, bodyComponents_append_separator]
        · simpa [components, slash'] using
            bodyComponents_append_separator ('.' :: next :: rest) after
  · simpa [components, slash, dot] using bodyComponents_append_separator (first :: rest) after

theorem isAbsolute_plainName {name : List Char} (plain : isPlainName name) :
    isAbsolute ⟨name⟩ = false := by
  simp [isPlainName] at plain
  cases name with
  | nil => exact absurd rfl plain.1.1.1
  | cons first rest => simpa [isAbsolute] using fun same => plain.1.1.2 (by simp [same])

/-- A plain file name is one normal component, even when it starts with `.`. -/
theorem components_plainName {name : List Char} (plain : isPlainName name) :
    components ⟨name⟩ = [.normal (String.mk name)] := by
  rw [← bodyComponents_plainName plain]
  simp only [isPlainName, Bool.and_eq_true, Bool.not_eq_true', List.isEmpty_eq_false,
    bne_iff_ne, ne_eq] at plain
  unfold components
  split <;> simp_all

theorem ext_chars {path other : PathBuf} (same : path.chars = other.chars) : path = other := by
  cases path
  cases other
  simp_all

theorem startsWith_refl (path : PathBuf) : path.startsWith path := by
  simp [startsWith, List.isPrefixOf_iff_prefix]

/-- A relative path has no root component: its components are names, parents and a leading `.`
at most. -/
theorem rootDir_not_mem_bodyComponents (chars : List Char) : .rootDir ∉ bodyComponents chars := by
  simp only [bodyComponents, List.mem_filterMap, not_exists, not_and]
  intro part _ parsed
  unfold parseSingleComponent at parsed
  split at parsed <;> simp_all

/-- A relative path's first component is not the root. -/
theorem components_head_of_relative {path : PathBuf} (relative : path.isAbsolute = false) :
    path.components.head? ≠ some .rootDir := by
  obtain ⟨chars⟩ := path
  intro head
  have member := List.mem_of_mem_head? head
  unfold components at head member
  split at head <;> simp_all [isAbsolute, rootDir_not_mem_bodyComponents]

/-- An absolute path's first component is the root. -/
theorem components_of_absolute {path : PathBuf} (absolute : path.isAbsolute = true) :
    ∃ rest, path.components = .rootDir :: rest := by
  obtain ⟨_ | ⟨first, rest⟩⟩ := path
  · simp [isAbsolute] at absolute
  · simp only [isAbsolute, List.head?_cons, Option.some.injEq, decide_eq_true_eq] at absolute
    subst absolute
    exact ⟨_, rfl⟩

/-- A path whose first component is the root is absolute. -/
theorem isAbsolute_of_components_head {path : PathBuf}
    (head : path.components.head? = some .rootDir) : path.isAbsolute = true := by
  cases relative : path.isAbsolute
  · exact absurd head (components_head_of_relative relative)
  · rfl

/-- Pushing a relative path onto a non-empty path appends the relative path's components: a
leading `.` of the pushed path is dropped, as it is in the middle of any path. -/
theorem components_push_relative {path : PathBuf} (nonEmpty : path.chars ≠ [])
    {other : List Char} (relative : isAbsolute ⟨other⟩ = false) :
    (path.push ⟨other⟩).components = path.components ++ bodyComponents other := by
  simp only [push, relative, Bool.false_eq_true, ↓reduceIte]
  obtain ⟨chars⟩ := path
  rcases List.eq_nil_or_concat chars with rfl | ⟨init, last, rfl⟩
  · exact absurd rfl nonEmpty
  · rw [List.concat_eq_append] at nonEmpty ⊢
    by_cases slash : last = '/'
    · subst slash
      rw [if_pos (by simp)]
      by_cases noInit : init = []
      · subst noInit
        simp [components, bodyComponents, parseSingleComponent]
      · rw [show init ++ ['/'] ++ other = init ++ '/' :: other by simp,
          components_append_separator noInit, components_append_separator noInit]
        simp [bodyComponents, parseSingleComponent]
    · rw [if_neg (by simp [slash])]
      exact components_append_separator nonEmpty other

/-- Pushing a plain file name onto a non-empty path appends one component: the name. -/
theorem components_push_plainName {path : PathBuf} (nonEmpty : path.chars ≠ [])
    {name : List Char} (plain : isPlainName name) :
    (path.push ⟨name⟩).components = path.components ++ [.normal (String.mk name)] := by
  rw [components_push_relative nonEmpty (isAbsolute_plainName plain), bodyComponents_plainName plain]

/-- Pushing a plain file name keeps whether a path starts with `.`: the name is a normal
component, never the current directory, whatever its first character. -/
theorem startsWith_dot_push_plainName (path : PathBuf) {name : List Char}
    (plain : isPlainName name) :
    (path.push ⟨name⟩).startsWith (new ".") = path.startsWith (new ".") := by
  have dot : (new ".").components = [.curDir] := rfl
  by_cases empty : path.chars = []
  · obtain ⟨chars⟩ := path
    simp only at empty
    subst empty
    have pushed : push ⟨[]⟩ ⟨name⟩ = ⟨name⟩ := by
      simp [push, isAbsolute_plainName plain]
    rw [startsWith, startsWith, pushed, components_plainName plain, dot]
    rfl
  · rw [startsWith, startsWith, components_push_plainName empty plain, dot]
    cases path.components <;> simp [List.isPrefixOf]

end PathBuf

end Mago
