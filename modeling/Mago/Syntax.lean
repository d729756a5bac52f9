import Mathlib.Data.List.Basic

/-!
# The PHP syntax read by the formatter

This file gives the fragment of `mago_ast` that `call.rs`, `parameters.rs` and `block.rs`
inspect. The expression syntax keeps every kind of expression of the parser, because
`base_needs_parerns` decides by kind and a law about it ranges over all of them. A kind
whose children no formatter here reads carries only its span; the kinds the formatters walk
into (parenthesized expressions, calls, instantiations) keep their children.

Calls, member selectors and argument lists contain expressions, so the four types are one
mutual family, as in the Rust crate.
-/

namespace Mago

/-- A half-open byte range `[start, end)` of the source file. -/
structure Span where
  start : Nat
  «end» : Nat
  deriving Repr, DecidableEq

namespace Span

/-- Modelled from the spec: the smallest span covering both spans. -/
def join (left right : Span) : Span :=
  ⟨min left.start right.start, max left.end right.end⟩

end Span

/-- The kinds of `mago_ast::Literal`. -/
inductive Literal where
  | string (span : Span)
  | integer (span : Span)
  | float (span : Span)
  | true (span : Span)
  | false (span : Span)
  | null (span : Span)
  deriving Repr, DecidableEq

/-- The language constructs of `mago_ast::Construct`. -/
inductive Construct where
  | isset (span : Span)
  | empty (span : Span)
  | eval (span : Span)
  | include (span : Span)
  | includeOnce (span : Span)
  | require (span : Span)
  | requireOnce (span : Span)
  | print (span : Span)
  | exit (span : Span)
  | die (span : Span)
  deriving Repr, DecidableEq

/-- The kinds of `mago_ast::CompositeString`: a double-quoted string with interpolation, a
heredoc or nowdoc document, and a backtick shell command. -/
inductive CompositeString where
  | interpolated (span : Span)
  | document (span : Span)
  | shellExecute (span : Span)
  deriving Repr, DecidableEq

/-- The member accesses of `mago_ast::Access`. -/
inductive Access where
  | property (span : Span)
  | nullSafeProperty (span : Span)
  | staticProperty (span : Span)
  | classConstant (span : Span)
  deriving Repr, DecidableEq

mutual

/-- `mago_ast::Expression`. -/
inductive Expression where
  | binary (span : Span)
  | unaryPrefix (span : Span)
  | unaryPostfix (span : Span)
  | parenthesized (leftParenthesis : Span) (expression : Expression) (rightParenthesis : Span)
  | literal (literal : Literal)
  | compositeString (string : CompositeString)
  | assignment (span : Span)
  | conditional (span : Span)
  | array (span : Span)
  | legacyArray (span : Span)
  | list (span : Span)
  | arrayAccess (span : Span)
  | arrayAppend (span : Span)
  | anonymousClass (span : Span)
  | closure (span : Span)
  | arrowFunction (span : Span)
  | «variable» (span : Span)
  | identifier (span : Span)
  | «match» (span : Span)
  | yield (span : Span)
  | construct (construct : Construct)
  | throw (span : Span)
  | clone (span : Span)
  | call (call : Call)
  | access (access : Access)
  | constantAccess (span : Span)
  | closureCreation (span : Span)
  | parent (span : Span)
  | static (span : Span)
  | self (span : Span)
  | instantiation (new : Span) (classExpression : Expression) (arguments : Option ArgumentList)
  | magicConstant (span : Span)

/-- `mago_ast::Call`: function, method, null-safe method and static method calls. -/
inductive Call where
  | function (function : Expression) (argumentList : ArgumentList)
  | method (object : Expression) (arrow : Span) (method : ClassLikeMemberSelector)
      (argumentList : ArgumentList)
  | nullSafeMethod (object : Expression) (questionMarkArrow : Span)
      (method : ClassLikeMemberSelector) (argumentList : ArgumentList)
  | staticMethod (classExpression : Expression) (doubleColon : Span)
      (method : ClassLikeMemberSelector) (argumentList : ArgumentList)

/-- `mago_ast::ClassLikeMemberSelector`: the name after `->`, `?->` or `::`. -/
inductive ClassLikeMemberSelector where
  | identifier (span : Span) (value : String)
  | «variable» (span : Span) (name : String)
  | expression (leftBrace : Span) (expression : Expression) (rightBrace : Span)

/-- `mago_ast::ArgumentList`. -/
inductive ArgumentList where
  | mk (leftParenthesis : Span) (arguments : List Argument) (rightParenthesis : Span)

/-- `mago_ast::Argument`. -/
inductive Argument where
  | positional (ellipsis : Option Span) (value : Expression)
  | named (name : String) (colon : Span) (value : Expression)

end

/-- `mago_ast::Statement`, told apart only as the formatters here do: the empty statement `;`
and every other statement. -/
inductive Statement where
  | noop (span : Span)
  | other (span : Span)
  deriving Repr, DecidableEq

/-- An attribute list `#[...]` in front of a parameter. -/
structure AttributeList where
  span : Span
  deriving Repr, DecidableEq

/-- A parameter modifier such as `public` or `readonly`. -/
structure Modifier where
  span : Span
  deriving Repr, DecidableEq

/-- The property hook list `{ get; set; }` of a promoted parameter. -/
structure PropertyHookList where
  span : Span
  deriving Repr, DecidableEq

/-- `mago_ast::FunctionLikeParameter`, with the fields the parameter formatter reads. -/
structure FunctionLikeParameter where
  attributeLists : List AttributeList
  modifiers : List Modifier
  hooks : Option PropertyHookList
  span : Span
  deriving Repr, DecidableEq

namespace FunctionLikeParameter

/-- Modelled from the spec: a promoted property is a parameter written with modifiers. -/
def isPromotedProperty (parameter : FunctionLikeParameter) : Bool :=
  !parameter.modifiers.isEmpty

end FunctionLikeParameter

/-- `mago_ast::FunctionLikeParameterList`. -/
structure FunctionLikeParameterList where
  leftParenthesis : Span
  parameters : List FunctionLikeParameter
  rightParenthesis : Span
  deriving Repr, DecidableEq

/-- The kinds of `mago_ast::Node` that `print_block` tells apart; every other kind is
`other`. -/
inductive Node where
  | function
  | methodBody
  | propertyHookConcreteBody
  | «try»
  | tryCatchClause
  | tryFinallyClause
  | statement
  | forBody
  | whileBody
  | doWhile
  | «if»
  | ifStatementBody
  | ifStatementBodyElseClause
  | ifStatementBodyElseIfClause
  | foreachBody
  | other
  deriving Repr, DecidableEq

end Mago
