import Mago.Document

/-!
# What a document prints

The layout engine that renders a `Document` is not among the files modelled here. This file says
what a document may print, so that results can state what the formatters' documents mean. The
engine decides group by group: a group prints flat, each of its lines as a space or as nothing,
or broken, each line as a line break. The engine breaks a group when its flat form does not fit
the line width. The width is not modelled, so a group may print either way, with two exceptions. A
group holding a `BreakParent`, a hard line or a group that must break can only print broken
(`Document.forcesBreak` computes this). A group inside a flat group is flat.

`Prints broken document output` says that `document` may print `output` inside a group printed
broken (`broken`) or flat. The output is a list of texts and line breaks, each line break with the
number of indentation levels it starts. `PrintsAll` prints a list of documents one after the
other.
-/

namespace Mago

/-- A piece of printed output: a text, or a line break followed by the indentation of the given
number of levels. -/
inductive Output where
  | text (text : String)
  | newline (levels : Nat)
  deriving Repr, DecidableEq

namespace Output

/-- The same output one indentation level deeper. -/
def indented : Output → Output
  | .text printed => .text printed
  | .newline levels => .newline (levels + 1)

/-- The text of an output; a line break has none. -/
def text? : Output → Option String
  | .text printed => some printed
  | .newline _ => none

end Output

/-- The texts of an output, in order, without its line breaks and indentation. -/
def texts (output : List Output) : List String := output.filterMap Output.text?

mutual

/-- `Prints broken document output`: inside a group printed broken (`broken`) or flat, the
document may print `output`. -/
inductive Prints : Bool → Document → List Output → Prop
  | string {broken : Bool} (text : String) : Prints broken (.string text) [.text text]
  | array {broken : Bool} {parts : List Document} {output : List Output} :
      PrintsAll broken parts output → Prints broken (.array parts) output
  | indent {broken : Bool} {parts : List Document} {output : List Output} :
      PrintsAll broken parts output → Prints broken (.indent parts) (output.map Output.indented)
  | groupFlat {broken : Bool} {contents : List Document} {output : List Output} :
      PrintsAll false contents output → Prints broken (.group contents false) output
  | groupBroken {contents : List Document} {shouldBreak : Bool} {output : List Output} :
      PrintsAll true contents output → Prints true (.group contents shouldBreak) output
  | ifBreakBroken {breakContents flatContent : Document} {output : List Output} :
      Prints true breakContents output → Prints true (.ifBreak breakContents flatContent) output
  | ifBreakFlat {breakContents flatContent : Document} {output : List Output} :
      Prints false flatContent output → Prints false (.ifBreak breakContents flatContent) output
  | lineBroken (line : Line) : Prints true (.line line) [.newline 0]
  | lineFlat {line : Line} (notHard : line.hard = false) :
      Prints false (.line line) (if line.soft then [] else [.text " "])
  | breakParent : Prints true .breakParent []
  | empty {broken : Bool} : Prints broken .empty []

/-- `PrintsAll broken documents output`: the documents print `output`, one after the other. -/
inductive PrintsAll : Bool → List Document → List Output → Prop
  | nil {broken : Bool} : PrintsAll broken [] []
  | cons {broken : Bool} {document : Document} {rest : List Document}
      {output restOutput : List Output} :
      Prints broken document output → PrintsAll broken rest restOutput →
        PrintsAll broken (document :: rest) (output ++ restOutput)

end

/-- The texts that documents can print, one after the other, inside a group printed broken
(`broken`) or flat. -/
def PrintsTexts (broken : Bool) (documents : List Document) (printed : List String) : Prop :=
  ∃ output, PrintsAll broken documents output ∧ texts output = printed

namespace Document

mutual

/-- Whether a document can print only inside a broken group: it holds a `BreakParent`, a hard
line or a group that must break, outside every `IfBreak`. -/
def forcesBreak : Document → Bool
  | .array parts => forcesBreakOfList parts
  | .indent parts => forcesBreakOfList parts
  | .group contents shouldBreak => shouldBreak || forcesBreakOfList contents
  | .line lineBreak => lineBreak.hard
  | .breakParent => true
  | _ => false

/-- Whether one of the documents forces a break. -/
def forcesBreakOfList : List Document → Bool
  | [] => false
  | document :: rest => document.forcesBreak || forcesBreakOfList rest

end

@[simp]
theorem forcesBreakOfList_eq_any (documents : List Document) :
    forcesBreakOfList documents = documents.any forcesBreak := by
  induction documents with
  | nil => rfl
  | cons document rest ih => rw [forcesBreakOfList, ih, List.any_cons]

@[simp]
theorem forcesBreak_array (parts : List Document) :
    (array parts).forcesBreak = parts.any forcesBreak := by
  rw [forcesBreak, forcesBreakOfList_eq_any]

@[simp]
theorem forcesBreak_indent (parts : List Document) :
    (indent parts).forcesBreak = parts.any forcesBreak := by
  rw [forcesBreak, forcesBreakOfList_eq_any]

@[simp]
theorem forcesBreak_group (contents : List Document) (shouldBreak : Bool) :
    (group contents shouldBreak).forcesBreak = (shouldBreak || contents.any forcesBreak) := by
  rw [forcesBreak, forcesBreakOfList_eq_any]

@[simp]
theorem forcesBreak_string (text : String) : (string text).forcesBreak = false := rfl

@[simp]
theorem forcesBreak_hardline : hardline.forcesBreak = true := rfl

@[simp]
theorem forcesBreak_softline : softline.forcesBreak = false := rfl

@[simp]
theorem forcesBreak_breakParent : breakParent.forcesBreak = true := rfl

end Document

section Texts

@[simp]
theorem texts_nil : texts [] = [] := rfl

@[simp]
theorem texts_append (output more : List Output) :
    texts (output ++ more) = texts output ++ texts more :=
  List.filterMap_append _ _ _

@[simp]
theorem texts_newline_cons (levels : Nat) (output : List Output) :
    texts (.newline levels :: output) = texts output := rfl

/-- Indentation changes no text. -/
@[simp]
theorem texts_map_indented (output : List Output) :
    texts (output.map Output.indented) = texts output := by
  induction output with
  | nil => rfl
  | cons piece output ih => cases piece <;> simp_all [texts, Output.indented, Output.text?]

end Texts

section Inversion

variable {broken : Bool}

/-- Documents one after the other print the first one's output, then the rest's. -/
theorem printsAll_cons_iff {document : Document} {rest : List Document} {output : List Output} :
    PrintsAll broken (document :: rest) output ↔
      ∃ first more, Prints broken document first ∧ PrintsAll broken rest more ∧
        output = first ++ more := by
  constructor
  · rintro (_ | ⟨first, more⟩)
    exact ⟨_, _, first, more, rfl⟩
  · rintro ⟨first, more, printsFirst, printsMore, rfl⟩
    exact .cons printsFirst printsMore

/-- Documents appended print their outputs appended. -/
theorem printsAll_append_iff {documents more : List Document} {output : List Output} :
    PrintsAll broken (documents ++ more) output ↔
      ∃ first rest, PrintsAll broken documents first ∧ PrintsAll broken more rest ∧
        output = first ++ rest := by
  induction documents generalizing output with
  | nil =>
      constructor
      · exact fun printed => ⟨[], output, .nil, printed, rfl⟩
      · rintro ⟨first, rest, (_ | _), printed, rfl⟩
        exact printed
  | cons document documents ih =>
      simp only [List.cons_append, printsAll_cons_iff, ih]
      constructor
      · rintro ⟨head, _, printsHead, ⟨first, rest, printsFirst, printsRest, rfl⟩, rfl⟩
        exact ⟨head ++ first, rest, ⟨head, first, printsHead, printsFirst, rfl⟩, printsRest,
          (List.append_assoc _ _ _).symm⟩
      · rintro ⟨_, rest, ⟨head, first, printsHead, printsFirst, rfl⟩, printsRest, rfl⟩
        exact ⟨head, first ++ rest, printsHead, ⟨first, rest, printsFirst, printsRest, rfl⟩,
          List.append_assoc _ _ _⟩

/-- The texts of documents appended are their texts appended. -/
theorem printsTexts_append_iff {documents more : List Document} {printed : List String} :
    PrintsTexts broken (documents ++ more) printed ↔
      ∃ first rest, PrintsTexts broken documents first ∧ PrintsTexts broken more rest ∧
        printed = first ++ rest := by
  simp only [PrintsTexts, printsAll_append_iff]
  constructor
  · rintro ⟨_, ⟨first, rest, printsFirst, printsRest, rfl⟩, rfl⟩
    exact ⟨_, _, ⟨first, printsFirst, rfl⟩, ⟨rest, printsRest, rfl⟩, texts_append _ _⟩
  · rintro ⟨_, _, ⟨first, printsFirst, rfl⟩, ⟨rest, printsRest, rfl⟩, rfl⟩
    exact ⟨first ++ rest, ⟨first, rest, printsFirst, printsRest, rfl⟩, texts_append _ _⟩

/-- Lists that can print the same texts keep doing so between the same neighbours. -/
theorem printsTexts_append_congr {before documents others after : List Document}
    (same : ∀ printed, PrintsTexts broken documents printed ↔ PrintsTexts broken others printed)
    (printed : List String) :
    PrintsTexts broken (before ++ documents ++ after) printed ↔
      PrintsTexts broken (before ++ others ++ after) printed := by
  simp only [printsTexts_append_iff, same]

/-- A string prints its text. -/
@[simp]
theorem prints_string_iff {text : String} {output : List Output} :
    Prints broken (.string text) output ↔ output = [.text text] :=
  ⟨fun printed => by cases printed; rfl, by rintro rfl; exact .string text⟩

/-- An empty document prints nothing. -/
@[simp]
theorem prints_empty_iff {output : List Output} : Prints broken .empty output ↔ output = [] :=
  ⟨fun printed => by cases printed; rfl, by rintro rfl; exact .empty⟩

/-- No documents print nothing. -/
@[simp]
theorem printsAll_nil_iff {output : List Output} : PrintsAll broken [] output ↔ output = [] :=
  ⟨fun printed => by cases printed; rfl, by rintro rfl; exact .nil⟩

/-- A group prints flat only when it need not break, and then its contents print flat. -/
theorem prints_flat_group_iff {contents : List Document} {shouldBreak : Bool}
    {output : List Output} :
    Prints false (.group contents shouldBreak) output ↔
      shouldBreak = false ∧ PrintsAll false contents output := by
  constructor
  · rintro (_ | _ | _ | ⟨printed⟩)
    exact ⟨rfl, printed⟩
  · rintro ⟨rfl, printed⟩
    exact .groupFlat printed

/-- Flat, a soft line prints nothing. -/
theorem prints_softline_flat_iff {output : List Output} :
    Prints false Document.softline output ↔ output = [] :=
  ⟨fun printed => by cases printed; rfl, by rintro rfl; exact .lineFlat rfl⟩

/-- A hard line prints a line break, and only inside a broken group. -/
theorem prints_hardline_iff {output : List Output} :
    Prints broken Document.hardline output ↔ broken = true ∧ output = [.newline 0] := by
  constructor
  · rintro (_ | _ | _ | _ | _ | _ | _ | _ | ⟨notHard⟩)
    · exact ⟨rfl, rfl⟩
    · cases notHard
  · rintro ⟨rfl, rfl⟩
    exact .lineBroken _

/-- Inside a broken group, every line prints a line break. -/
theorem prints_line_broken_iff {lineBreak : Line} {output : List Output} :
    Prints true (.line lineBreak) output ↔ output = [.newline 0] :=
  ⟨fun printed => by cases printed; rfl, by rintro rfl; exact .lineBroken _⟩

/-- An indented document prints its parts' output one level deeper. -/
theorem prints_indent_iff {parts : List Document} {output : List Output} :
    Prints broken (.indent parts) output ↔
      ∃ inner, PrintsAll broken parts inner ∧ output = inner.map Output.indented := by
  constructor
  · rintro (_ | _ | ⟨printed⟩)
    exact ⟨_, printed, rfl⟩
  · rintro ⟨inner, printed, rfl⟩
    exact .indent printed

/-- Inside a broken group, documents on a line of their own, one level deeper, print the same
texts as the documents themselves. -/
theorem printsTexts_indent_hardline (parts : List Document) (printed : List String) :
    PrintsTexts true [.indent (Document.hardline :: parts)] printed ↔
      PrintsTexts true parts printed := by
  constructor
  · rintro ⟨_, printedAll, rfl⟩
    obtain ⟨_, _, printedIndent, (_ | _), rfl⟩ := printsAll_cons_iff.mp printedAll
    obtain ⟨_, printedLine, rfl⟩ := prints_indent_iff.mp printedIndent
    obtain ⟨_, inner, lineBreak, printsInner, rfl⟩ := printsAll_cons_iff.mp printedLine
    obtain ⟨-, rfl⟩ := prints_hardline_iff.mp lineBreak
    exact ⟨inner, printsInner, by simp [Output.indented]⟩
  · rintro ⟨inner, printsInner, rfl⟩
    exact ⟨_, .cons (.indent (.cons (.lineBroken _) printsInner)) .nil, by simp [Output.indented]⟩

/-- Inside a broken group, moving documents onto a line of their own, one level deeper, changes
none of the texts the group can print. -/
theorem printsTexts_indent_hardline_between (before parts after : List Document)
    (printed : List String) :
    PrintsTexts true (before ++ (parts ++ after)) printed ↔
      PrintsTexts true (before ++ (.indent (Document.hardline :: parts) :: after)) printed := by
  rw [← List.append_assoc, ← List.singleton_append, ← List.append_assoc]
  exact printsTexts_append_congr (fun printed => (printsTexts_indent_hardline parts printed).symm)
    printed

mutual

/-- A document that prints flat forces no break. -/
theorem forcesBreak_of_prints_flat :
    ∀ (document : Document) {output : List Output}, Prints false document output →
      document.forcesBreak = false
  | .string _, _, _ | .ifBreak _ _, _, _ | .empty, _, _ => rfl
  | .array parts, _, .array printed | .indent parts, _, .indent printed =>
      forcesBreakOfList_of_printsAll_flat parts printed
  | .group contents _, _, .groupFlat printed => by
      rw [Document.forcesBreak, forcesBreakOfList_of_printsAll_flat contents printed]; rfl
  | .line _, _, .lineFlat notHard => notHard

/-- Documents that print flat force no break. -/
theorem forcesBreakOfList_of_printsAll_flat :
    ∀ (documents : List Document) {output : List Output}, PrintsAll false documents output →
      Document.forcesBreakOfList documents = false
  | [], _, _ => rfl
  | document :: rest, _, .cons first more => by
      rw [Document.forcesBreakOfList, forcesBreak_of_prints_flat document first,
        forcesBreakOfList_of_printsAll_flat rest more]; rfl

end

mutual

/-- A flat document prints no line break, so indentation leaves its output as it is. -/
theorem map_indented_of_prints_flat :
    ∀ (document : Document) {output : List Output}, Prints false document output →
      output.map Output.indented = output
  | .string _, _, .string _ | .empty, _, .empty => rfl
  | .array parts, _, .array printed | .group parts _, _, .groupFlat printed =>
      map_indented_of_printsAll_flat parts printed
  | .indent parts, _, .indent printed =>
      congrArg (List.map Output.indented) (map_indented_of_printsAll_flat parts printed)
  | .ifBreak _ flatContent, _, .ifBreakFlat printed =>
      map_indented_of_prints_flat flatContent printed
  | .line lineBreak, _, .lineFlat _ => by
      cases lineBreak.soft <;> rfl

/-- Flat documents print no line break. -/
theorem map_indented_of_printsAll_flat :
    ∀ (documents : List Document) {output : List Output}, PrintsAll false documents output →
      output.map Output.indented = output
  | [], _, .nil => rfl
  | document :: rest, _, .cons first more => by
      rw [List.map_append, map_indented_of_prints_flat document first,
        map_indented_of_printsAll_flat rest more]

end

/-- A group prints its contents flat or broken. -/
theorem printsAll_of_prints_group {contents : List Document} {shouldBreak : Bool}
    {output : List Output} (printed : Prints broken (.group contents shouldBreak) output) :
    PrintsAll false contents output ∨ PrintsAll true contents output := by
  cases printed with
  | groupFlat printed => exact .inl printed
  | groupBroken printed => exact .inr printed

/-- A document that forces a break prints only inside a broken group. -/
theorem broken_of_forcesBreak {document : Document} (forces : document.forcesBreak = true)
    {output : List Output} (printed : Prints broken document output) : broken = true := by
  cases broken with
  | false => exact absurd (forcesBreak_of_prints_flat document printed) (by simp [forces])
  | true => rfl

/-- Documents that force a break print only inside a broken group. -/
theorem broken_of_forcesBreakOfList {documents : List Document}
    (forces : Document.forcesBreakOfList documents = true) {output : List Output}
    (printed : PrintsAll broken documents output) : broken = true :=
  broken_of_forcesBreak (show (Document.array documents).forcesBreak = true from forces)
    (.array printed)

/-- Documents that force a break have no flat output. -/
theorem not_printsAll_flat_of_forcesBreakOfList {documents : List Document}
    (forces : Document.forcesBreakOfList documents = true) {output : List Output} :
    ¬PrintsAll false documents output :=
  fun printed => Bool.false_ne_true (broken_of_forcesBreakOfList forces printed)

/-- A group whose contents force a break prints broken, inside a broken group only. -/
theorem prints_group_of_forcesBreak {contents : List Document} {shouldBreak : Bool}
    (forces : Document.forcesBreakOfList contents = true) {output : List Output} :
    Prints broken (.group contents shouldBreak) output ↔
      broken = true ∧ PrintsAll true contents output := by
  constructor
  · rintro (_ | _ | _ | ⟨flat⟩ | ⟨printed⟩)
    · cases broken_of_forcesBreakOfList forces flat
    · exact ⟨rfl, printed⟩
  · rintro ⟨rfl, printed⟩
    exact .groupBroken printed

/-- A group holding a `BreakParent` prints broken, inside a broken group only. -/
theorem prints_group_of_breakParent_mem {contents : List Document} {shouldBreak : Bool}
    (breaks : .breakParent ∈ contents) {output : List Output} :
    Prints broken (.group contents shouldBreak) output ↔
      broken = true ∧ PrintsAll true contents output :=
  prints_group_of_forcesBreak (by
    rw [Document.forcesBreakOfList_eq_any, List.any_eq_true]
    exact ⟨_, breaks, rfl⟩)

/-- A group holding a `BreakParent` prints the texts of its contents, inside a broken group
only. -/
theorem printsTexts_group_of_breakParent_mem {contents : List Document} {shouldBreak : Bool}
    (breaks : .breakParent ∈ contents) (printed : List String) :
    PrintsTexts broken [.group contents shouldBreak] printed ↔
      broken = true ∧ PrintsTexts true contents printed := by
  simp only [PrintsTexts, printsAll_cons_iff, prints_group_of_breakParent_mem breaks]
  constructor
  · rintro ⟨_, ⟨first, _, ⟨rfl, printsFirst⟩, (_ | _), rfl⟩, rfl⟩
    exact ⟨rfl, first, printsFirst, by simp⟩
  · rintro ⟨rfl, output, printsOutput, rfl⟩
    exact ⟨output, ⟨output, [], ⟨rfl, printsOutput⟩, .nil, by simp⟩, rfl⟩

end Inversion

end Mago
