import Mathlib.Data.List.Basic

/-!
# The document IR

The formatter lowers syntax to `Document`, a tree of print instructions that the layout
engine renders to text. The engine is not part of this development: the results here are
about the documents the formatters build, which this file describes.

`Document.leaves` lists the atoms of a document in the order the layout engine meets them,
with both branches of an `IfBreak`: an atom that is not among them, a comment say, is printed
by no layout of the document.
-/

namespace Mago

/-- `Line`: a conditional line break. A `hard` line always breaks and forces its group to
break; a `soft` line prints nothing when its group fits; the default line prints a space when
its group fits. -/
structure Line where
  hard : Bool
  soft : Bool
  deriving Repr, DecidableEq

namespace Line

/-- `Line::default()`: a space, or a newline when the group breaks. -/
def default : Line := ⟨false, false⟩

/-- `Line::hardline()`. -/
def hardline : Line := ⟨true, false⟩

/-- `Line::softline()`. -/
def softline : Line := ⟨false, true⟩

end Line

/-- `Document`, with the variants the formatters here build. A group carries its contents and
its `should_break` flag; an `IfBreak` its break and flat contents. -/
inductive Document where
  | string (text : String)
  | array (parts : List Document)
  | indent (parts : List Document)
  | group (contents : List Document) (shouldBreak : Bool)
  | ifBreak (breakContents flatContent : Document)
  | line (line : Line)
  | breakParent
  | empty
  deriving Repr

namespace Document

/-- `Document::space()`. -/
def space : Document := .string " "

/-- A hard line break. -/
def hardline : Document := .line Line.hardline

/-- A soft line break. -/
def softline : Document := .line Line.softline

/-- `IfBreak::then(contents)`: `contents` when the enclosing group breaks, nothing otherwise. -/
def ifBreakThen (contents : Document) : Document := .ifBreak contents .empty

mutual

/-- The atoms of a document in print order, both branches of an `IfBreak` included. -/
def leaves : Document → List Document
  | .array parts => leavesOfList parts
  | .indent parts => leavesOfList parts
  | .group contents _ => leavesOfList contents
  | .ifBreak breakContents flatContent => leaves breakContents ++ leaves flatContent
  | atom => [atom]

/-- The atoms of a list of documents, in order. -/
def leavesOfList : List Document → List Document
  | [] => []
  | document :: rest => leaves document ++ leavesOfList rest

end

@[simp]
theorem leavesOfList_nil : leavesOfList [] = [] := by
  simp [leavesOfList]

@[simp]
theorem leavesOfList_cons (document : Document) (rest : List Document) :
    leavesOfList (document :: rest) = leaves document ++ leavesOfList rest := by
  simp [leavesOfList]

@[simp]
theorem leaves_array (parts : List Document) : (array parts).leaves = leavesOfList parts := by
  simp [leaves]

@[simp]
theorem leaves_string (text : String) : (string text).leaves = [string text] := by
  simp [leaves]

end Document

end Mago
