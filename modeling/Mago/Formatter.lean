import Mago.Syntax
import Mago.Document

/-!
# The formatter context

`Formatter` is the state every formatting function receives: the settings, the transient
argument state, the parent and grandparent of the node being formatted, and the comment index
of the file. The formatter keeps the parents on a stack; the spec allows them to be threaded
explicitly, which is what this model does. The Rust functions take the formatter as
`&mut Formatter` and change it as they go, marking comments printed and setting the argument
state; here each function receives it by value. The dangling comments of a span are those no
child claims, so printing the children first does not change them, and no function modelled
here reads what another one writes.

The comment index, `is_next_line_empty`, `print_comment` and `print_dangling_comments` are
defined outside the files modelled here. The index is a field, so every theorem holds for every
index; the printing of comments follows the spec's description of it. Formatting a child node
goes through the `Format` class, the Rust trait of the same name, and every theorem holds for
every instance.
-/

namespace Mago

/-- `MethodChainBreakingStyle`: where the first link of a method chain goes. -/
inductive MethodChainBreakingStyle where
  | sameLine
  | nextLine
  deriving Repr, DecidableEq

namespace MethodChainBreakingStyle

/-- `is_next_line`. -/
def isNextLine : MethodChainBreakingStyle → Bool
  | .sameLine => false
  | .nextLine => true

end MethodChainBreakingStyle

/-- The settings read by the formatters modelled here. -/
structure Settings where
  trailingComma : Bool
  breakPromotedPropertiesList : Bool
  methodChainBreakingStyle : MethodChainBreakingStyle
  deriving Repr, DecidableEq

/-- The transient state of the call-arguments formatter. -/
structure ArgumentState where
  expandFirstArgument : Bool
  deriving Repr, DecidableEq

/-- `CommentFlags`: which attachments of a comment a query asks about. -/
structure CommentFlags where
  leading : Bool
  trailing : Bool
  dangling : Bool
  deriving Repr, DecidableEq

namespace CommentFlags

/-- `CommentFlags::all()`. -/
def all : CommentFlags := ⟨true, true, true⟩

end CommentFlags

/-- A comment of the source file: its span and its text. A line comment (`//` or `#`) runs to
the end of its line, so nothing may be printed after it on that line. -/
structure Comment where
  span : Span
  text : String
  deriving Repr, DecidableEq

/-- Modelled from the spec: the comment index of a file. `hasComment span flags` says whether
a comment matching `flags` is attached to `span`; `danglingComments span` lists, in source
order, the comments inside `span` attached to none of its children. -/
structure CommentIndex where
  hasComment : Span → CommentFlags → Bool
  danglingComments : Span → List Comment

/-- `Formatter`: the context of every formatting function. -/
structure Formatter where
  settings : Settings
  argumentState : ArgumentState
  parentNode : Node
  grandparentNode : Option Node
  comments : CommentIndex
  /-- Whether the source has a blank line right after the span. -/
  isNextLineEmpty : Span → Bool

/-- `Format`: the formatting of one kind of syntax node. -/
class Format (α : Type) where
  format : Formatter → α → Document

/-- `HasSpan`: the span of a syntax node. -/
class HasSpan (α : Type) where
  span : α → Span

instance : HasSpan Statement where
  span
    | .noop span => span
    | .other span => span

instance : HasSpan FunctionLikeParameter where
  span parameter := parameter.span

/-- Subtraction on `usize`, which panics on underflow: `none` there. -/
def usizeSub (minuend subtrahend : Nat) : Option Nat :=
  if subtrahend ≤ minuend then some (minuend - subtrahend) else none

theorem usizeSub_one_of_pos {minuend : Nat} (positive : 0 < minuend) :
    usizeSub minuend 1 = some (minuend - 1) := by
  simp [usizeSub, Nat.one_le_iff_ne_zero.mpr (Nat.pos_iff_ne_zero.mp positive)]

/-- Modelled from the spec: a comment is printed as its text, whatever its kind. The line break
that must follow a line comment is not part of it: `print_dangling_comments` puts one after
every comment it prints. -/
def printComment (comment : Comment) : Document :=
  .string comment.text

namespace Formatter

/-- `has_comment`. -/
def hasComment (f : Formatter) (span : Span) (flags : CommentFlags) : Bool :=
  f.comments.hasComment span flags

/-- Modelled from the spec: `print_dangling_comments`. Nothing when the span has no dangling
comment; otherwise the comments in source order, each but the last followed by a hard line.
When `indented`, they are wrapped in an `Indent` that starts with a hard line, and a hard line
after the `Indent` ends the last comment's line, so that what follows starts a line of its own
at the outer level. -/
def printDanglingComments (f : Formatter) (span : Span) (indented : Bool) : Option Document :=
  let comments := f.comments.danglingComments span
  if comments.isEmpty then none
  else
    let printed := (comments.map printComment).intersperse Document.hardline
    some (if indented then .array [.indent (Document.hardline :: printed), Document.hardline]
      else .array printed)

theorem printDanglingComments_eq_none_iff (f : Formatter) (span : Span) (indented : Bool) :
    f.printDanglingComments span indented = none ↔ f.comments.danglingComments span = [] := by
  unfold printDanglingComments
  split <;> simp_all

end Formatter

end Mago
