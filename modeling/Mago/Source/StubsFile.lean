import Mago.Source.Stubs
import Mathlib.Data.List.Infix
import Mathlib.Tactic.IntervalCases
import Mathlib.Data.Nat.Digits

/-!
# The generated stub file

`main` writes the stub map into `stubs_map.rs` as Rust source: two comment lines, a blank line,
the declaration of `PHP_STUBS` with the number of entries as its length, one line
`(r#"@name"#, include_str!("path"))` per entry, and the end of the array. The table the crate
compiles is what this text declares.

`readStubsMapFile` reads a text of this shape as Rust does. A raw string `r#"…"#` ends at the
first `"#`, a string literal at the first `"`, and the declared length must be the number of
entries. The file reads back as the stub map, `@` before each name, when no name holds `"#` and
no path holds `"`, neither holding a carriage return. The paths hold no backslash, since
`collect_files` replaced them. So under these conditions the compiled `PHP_STUBS` is
`phpStubsTable`. A stub whose name holds `"#` ends its raw string early, and the file no longer
declares the table.
-/

namespace Mago

/-- The line `main` writes for an entry of the stub map. -/
def stubsMapLine (entry : String × String) : String :=
  "    (r#\"@" ++ entry.1 ++ "\"#, include_str!(\"" ++ entry.2 ++ "\"))"

/-- The lines `main` writes before the declared length of the table. -/
def stubsMapHeader : String :=
  "// This file is generated by the build script\n" ++ "// Do not modify this file manually\n" ++
    "\n" ++ "pub static PHP_STUBS: [(&str, &str); "

/-- The text `main` writes to `stubs_map.rs`. -/
def stubsMapFile (stubsMap : List (String × String)) : String :=
  let mapContent := stubsMap.map stubsMapLine
  let count := mapContent.length
  stubsMapHeader ++ toString count ++ "] = [\n" ++ ",\n".intercalate mapContent ++ "\n" ++ "];\n"

/-- `main` of the build script: the text it writes to `stubs_map.rs`, given what the file system
holds at `stubs`; `none` as for `phpStubsTable`. -/
def buildScriptOutput (toLowercase : String → String) (canonicalize : PathBuf → PathBuf)
    (stubs : Option FsEntry) : Option String :=
  match stubs with
  | some (.dir _ entries) | some (.linkedDir _ entries) =>
      (collectFiles toLowercase canonicalize stubsDir stubsDir entries []).map stubsMapFile
  | _ => none

section Reading

/-- The content of a Rust raw string `r#"…"#`, read from just after its opening quote: the
characters up to the first `"#`, and the text after it. A carriage return, which Rust rejects
there unless a line feed follows, stops the reader. -/
def readRawString : List Char → Option (List Char × List Char)
  | [] => none
  | c :: rest =>
      if c = '"' ∧ rest.head? = some '#' then some ([], rest.tail)
      else if c = '\r' then none
      else (readRawString rest).map fun (content, after) => (c :: content, after)

/-- The content of a Rust string literal, read from just after its opening quote: the characters
up to the first `"`, and the text after it. Escapes are not read: a backslash stops the reader,
as does a carriage return. -/
def readString : List Char → Option (List Char × List Char)
  | [] => none
  | c :: rest =>
      if c = '"' then some ([], rest)
      else if c = '\\' ∨ c = '\r' then none
      else (readString rest).map fun (content, after) => (c :: content, after)

/-- An entry of the table, `    (r#"name"#, include_str!("path"))`, and the text after it. -/
def readStubsMapLine (text : List Char) : Option ((String × String) × List Char) := do
  let text ← "    (r#\"".toList.isPrefixOf? text
  let (name, text) ← readRawString text
  let text ← ", include_str!(\"".toList.isPrefixOf? text
  let (path, text) ← readString text
  let text ← "))".toList.isPrefixOf? text
  pure ((String.mk name, String.mk path), text)

/-- The entries of the table, each but the last followed by a comma and a line break, and the
text after them; `fuel` bounds their number. -/
def readStubsMapLines : Nat → List Char → Option (List (String × String) × List Char)
  | 0, _ => none
  | fuel + 1, text => do
      let (entry, text) ← readStubsMapLine text
      match ",\n".toList.isPrefixOf? text with
      | some more =>
          (readStubsMapLines fuel more).map fun (entries, after) => (entry :: entries, after)
      | none => some ([entry], text)

/-- The table a text of the shape of `stubs_map.rs` declares: the header, the declared length,
the entries, and the end of the array, the length being the number of entries. -/
def readStubsMapFile (text : List Char) : Option (List (String × String)) := do
  let text ← stubsMapHeader.toList.isPrefixOf? text
  let count := text.takeWhile (· ≠ ']')
  let text ← "] = [\n".toList.isPrefixOf? (text.dropWhile (· ≠ ']'))
  let (entries, text) ←
    if "\n".toList.isPrefixOf text then some ([], text) else readStubsMapLines text.length text
  let text ← "\n];\n".toList.isPrefixOf? text
  if text = [] ∧ count = (toString entries.length).toList then some entries else none

end Reading

/-- Whether an entry of the stub map is written so that it reads back as itself: its name holds
no `"#`, which would end the raw string, and its path no `"`, which would end the string
literal, nor a backslash; neither holds a carriage return. -/
def StubEntryReadable (entry : String × String) : Prop :=
  ¬['"', '#'] <:+: entry.1.toList ∧ '\r' ∉ entry.1.toList ∧
    '"' ∉ entry.2.toList ∧ '\\' ∉ entry.2.toList ∧ '\r' ∉ entry.2.toList

instance (entry : String × String) : Decidable (StubEntryReadable entry) :=
  inferInstanceAs (Decidable (_ ∧ _))

section RoundTrip

/-- A text starting with a prefix is the prefix and the rest. -/
theorem isPrefixOf?_append (l rest : List Char) : l.isPrefixOf? (l ++ rest) = some rest := by
  induction l <;> simp_all [List.isPrefixOf?]

/-- A text is its own prefix, with nothing after. -/
theorem isPrefixOf?_self (l : List Char) : l.isPrefixOf? l = some [] := by
  simpa using isPrefixOf?_append l []

/-- The loop of `String.intercalate`: each further string after the separator. -/
theorem toList_intercalate_go (acc separator : String) (strings : List String) :
    (String.intercalate.go acc separator strings).toList =
      acc.toList ++ strings.flatMap fun string => separator.toList ++ string.toList := by
  induction strings generalizing acc with
  | nil => simp [String.intercalate.go]
  | cons string strings ih =>
      rw [String.intercalate.go, ih]
      simp [String.toList]

/-- A raw string holding `name` reads back as `name`. -/
theorem readRawString_append {name : List Char} (noEnd : ¬['"', '#'] <:+: name)
    (noReturn : '\r' ∉ name) (rest : List Char) :
    readRawString (name ++ '"' :: '#' :: rest) = some (name, rest) := by
  induction name with
  | nil => simp [readRawString]
  | cons c name ih =>
      have notEnd : ¬(c = '"' ∧ (name ++ '"' :: '#' :: rest).head? = some '#') := by
        rintro ⟨rfl, startsWith⟩
        cases name with
        | nil => simp at startsWith
        | cons d name =>
            simp only [List.cons_append, List.head?_cons, Option.some.injEq] at startsWith
            exact noEnd ⟨[], name, by simp [startsWith]⟩
      have notReturn : c ≠ '\r' := fun same => noReturn (by simp [same])
      have restNoEnd : ¬['"', '#'] <:+: name := fun ⟨before, after, split⟩ =>
        noEnd ⟨c :: before, after, by simp [← split]⟩
      rw [List.cons_append, readRawString, if_neg notEnd, if_neg notReturn,
        ih restNoEnd fun member => noReturn (List.mem_cons_of_mem c member)]
      rfl

/-- A string literal holding `path` reads back as `path`. -/
theorem readString_append {path : List Char} (noQuote : '"' ∉ path) (noBackslash : '\\' ∉ path)
    (noReturn : '\r' ∉ path) (rest : List Char) :
    readString (path ++ '"' :: rest) = some (path, rest) := by
  induction path with
  | nil => simp [readString]
  | cons c path ih =>
      simp only [List.mem_cons, not_or] at noQuote noBackslash noReturn
      rw [List.cons_append, readString, if_neg (Ne.symm noQuote.1),
        if_neg (by rintro (same | same) <;> simp_all),
        ih noQuote.2 noBackslash.2 noReturn.2]
      rfl

/-- The line of an entry reads back as the entry, `@` before its name. -/
theorem readStubsMapLine_stubsMapLine {entry : String × String}
    (readable : StubEntryReadable entry) (rest : List Char) :
    readStubsMapLine ((stubsMapLine entry).toList ++ rest) =
      some (("@" ++ entry.1, entry.2), rest) := by
  obtain ⟨noEnd, nameNoReturn, noQuote, noBackslash, pathNoReturn⟩ := readable
  have atNoEnd : ¬['"', '#'] <:+: '@' :: entry.1.toList := by
    rintro ⟨_ | ⟨_, before⟩, after, split⟩
    · simp at split
    · exact noEnd ⟨before, after, (List.cons.inj split).2⟩
  have line : (stubsMapLine entry).toList ++ rest = "    (r#\"".toList ++
      (('@' :: entry.1.toList) ++ '"' :: '#' :: (", include_str!(\"".toList ++
        (entry.2.toList ++ '"' :: ("))".toList ++ rest)))) := by
    simp [stubsMapLine, String.toList]
  rw [line, readStubsMapLine, isPrefixOf?_append]
  simp only [Option.bind_eq_bind, Option.some_bind]
  rw [readRawString_append atNoEnd (by simpa using nameNoReturn)]
  simp only [Option.some_bind, isPrefixOf?_append]
  rw [readString_append noQuote noBackslash pathNoReturn]
  simp only [Option.some_bind, isPrefixOf?_append]
  rfl

/-- The lines of the entries, each after the first following a comma and a line break, read back
as the entries when a line break follows them and there is fuel for each. -/
theorem readStubsMapLines_lines {entry : String × String} {more : List (String × String)}
    (readable : ∀ other ∈ entry :: more, StubEntryReadable other) {fuel : Nat}
    (enough : more.length < fuel) (rest : List Char) :
    readStubsMapLines fuel ((stubsMapLine entry).toList ++
        (((more.map stubsMapLine).flatMap fun line => ",\n".toList ++ line.toList) ++ '\n' :: rest)) =
      some ((entry :: more).map fun (name, path) => ("@" ++ name, path), '\n' :: rest) := by
  induction more generalizing entry fuel with
  | nil =>
      obtain ⟨fuel, rfl⟩ : ∃ previous, fuel = previous + 1 := ⟨fuel - 1, by simp at enough; omega⟩
      simp only [List.map_nil, List.flatMap_nil, List.nil_append, List.append_nil, readStubsMapLines,
        readStubsMapLine_stubsMapLine (readable entry (List.mem_cons_self _ _)), Option.bind_eq_bind,
        Option.some_bind]
      rfl
  | cons next more ih =>
      obtain ⟨fuel, rfl⟩ : ∃ previous, fuel = previous + 1 := ⟨fuel - 1, by simp at enough; omega⟩
      have afterFirst := ih (fun other member => readable other (List.mem_cons_of_mem _ member))
        (by simpa using enough)
      simp only [List.map_cons, List.flatMap_cons, List.append_assoc, readStubsMapLines,
        readStubsMapLine_stubsMapLine (readable entry (List.mem_cons_self _ _)),
        Option.bind_eq_bind, Option.some_bind, isPrefixOf?_append] at afterFirst ⊢
      rw [afterFirst]
      rfl

/-- A decimal digit is no `]`. -/
theorem digitChar_mod_ten_ne_bracket (n : Nat) : Nat.digitChar (n % 10) ≠ ']' := by
  have small : n % 10 < 10 := Nat.mod_lt n (by decide)
  generalize n % 10 = digit at small ⊢
  interval_cases digit <;> decide

/-- The decimal form of a number holds no `]`. -/
theorem bracket_not_mem_toString (n : Nat) : ']' ∉ (toString n).toList := by
  have digits : ∀ fuel n (done : List Char), ']' ∉ done → ']' ∉ Nat.toDigitsCore 10 fuel n done := by
    intro fuel
    induction fuel with
    | zero => exact fun _ _ notDone => notDone
    | succ fuel ih =>
        intro n done notDone
        have withDigit : ']' ∉ Nat.digitChar (n % 10) :: done := by
          simp [notDone, (digitChar_mod_ten_ne_bracket n).symm]
        simp only [Nat.toDigitsCore]
        split
        · exact withDigit
        · exact ih _ _ withDigit
  exact digits _ _ [] (List.not_mem_nil _)

/-- Each line after the first adds at least its separator. -/
theorem length_le_flatMap_separated (lines : List String) :
    lines.length ≤ (lines.flatMap fun line => ",\n".toList ++ line.toList).length := by
  induction lines with
  | nil => simp
  | cons line lines ih =>
      have separator : ",\n".toList.length = 2 := rfl
      simp only [List.length_cons, List.flatMap_cons, List.length_append] at ih ⊢
      omega

/-- The text `main` writes reads back as its stub map, `@` before each name, when every entry
is readable. -/
theorem readStubsMapFile_stubsMapFile {stubsMap : List (String × String)}
    (readable : ∀ entry ∈ stubsMap, StubEntryReadable entry) :
    readStubsMapFile (stubsMapFile stubsMap).toList =
      some (stubsMap.map fun (name, path) => ("@" ++ name, path)) := by
  cases stubsMap with
  | nil => rfl
  | cons entry more =>
      have count := bracket_not_mem_toString (more.length + 1)
      have kept : ∀ c ∈ (toString (more.length + 1)).toList, (fun c => decide (c ≠ ']')) c = true :=
        fun c member => decide_eq_true fun same => count (same ▸ member)
      have body : (",\n".intercalate ((entry :: more).map stubsMapLine)).toList =
          (stubsMapLine entry).toList ++
            ((more.map stubsMapLine).flatMap fun line => ",\n".toList ++ line.toList) := by
        show (String.intercalate.go (stubsMapLine entry) ",\n" (more.map stubsMapLine)).toList = _
        rw [toList_intercalate_go]
      have text : (stubsMapFile (entry :: more)).toList =
          stubsMapHeader.toList ++ ((toString (more.length + 1)).toList ++ ("] = [\n".toList ++
            ((stubsMapLine entry).toList ++
              (((more.map stubsMapLine).flatMap fun line => ",\n".toList ++ line.toList) ++
                '\n' :: "];\n".toList)))) := by
        simp only [stubsMapFile, String.toList, String.data_append, List.append_assoc] at body ⊢
        rw [body]
        simp
      have notBlank : ∀ rest, "\n".toList.isPrefixOf ((stubsMapLine entry).toList ++ rest) = false :=
        fun _ => rfl
      have takeCount : ∀ rest,
          ("] = [\n".toList ++ rest).takeWhile (fun c => decide (c ≠ ']')) = [] := fun _ => rfl
      have dropCount : ∀ rest, ("] = [\n".toList ++ rest).dropWhile (fun c => decide (c ≠ ']')) =
          "] = [\n".toList ++ rest := fun _ => rfl
      have ending : "\n];\n".toList.isPrefixOf? ('\n' :: "];\n".toList) = some [] :=
        isPrefixOf?_self _
      have enough : more.length < ((stubsMapLine entry).toList ++
          (((more.map stubsMapLine).flatMap fun line => ",\n".toList ++ line.toList) ++
            '\n' :: "];\n".toList)).length := by
        have := length_le_flatMap_separated (more.map stubsMapLine)
        simp only [List.length_map, List.length_append, List.length_cons] at this ⊢
        omega
      rw [text, readStubsMapFile]
      simp only [isPrefixOf?_append, Option.bind_eq_bind, Option.some_bind,
        List.takeWhile_append_of_pos kept, List.dropWhile_append_of_pos kept, takeCount, dropCount,
        notBlank, Bool.false_eq_true, if_false, readStubsMapLines_lines readable enough, ending]
      simp

end RoundTrip

/-- For every stubs directory whose PHP files all get readable entries, the file the build script
writes declares exactly `phpStubsTable`: the `PHP_STUBS` the crate compiles is the collected
table. -/
theorem buildScriptOutput_reads_back (toLowercase : String → String)
    (canonicalize : PathBuf → PathBuf) (stubsName : FileName) (entries : List FsEntry)
    (readable : ∀ names ∈ phpFilesBelow entries,
      StubEntryReadable (stubMapEntry toLowercase canonicalize stubsDir names)) :
    (buildScriptOutput toLowercase canonicalize (some (.dir stubsName entries))).bind
        (fun text => readStubsMapFile text.toList) =
      phpStubsTable toLowercase canonicalize (some (.dir stubsName entries)) := by
  have collected := collectFiles_eq toLowercase canonicalize stubsDir [] entries []
  rw [pathThrough_nil] at collected
  simp only [buildScriptOutput, phpStubsTable, collected, Option.map_some', Option.some_bind,
    List.nil_append]
  rw [readStubsMapFile_stubsMapFile (by simpa using readable), List.map_map]

/-- The stubs directory holding `a.php` is written as a file declaring its table. -/
theorem buildScriptOutput_reads_back_singleFile :
    (∀ names ∈ phpFilesBelow singleFileEntries,
      StubEntryReadable (stubMapEntry id id stubsDir names)) ∧
    (buildScriptOutput id id (some (.dir stubsName singleFileEntries))).bind
        (fun text => readStubsMapFile text.toList) =
      phpStubsTable id id (some (.dir stubsName singleFileEntries)) :=
  have readable : ∀ names ∈ phpFilesBelow singleFileEntries,
      StubEntryReadable (stubMapEntry id id stubsDir names) := by
    decide
  ⟨readable, buildScriptOutput_reads_back id id stubsName singleFileEntries readable⟩

end Mago
