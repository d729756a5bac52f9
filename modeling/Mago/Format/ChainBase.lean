import Mago.Format.Call

/-!
# Parentheses around the base of a method chain

`print_method_call_chain` prints the base of a chain in parentheses when
`base_needs_parerns` says so; otherwise the base is followed directly by `->`. The printed
chain keeps its meaning only if every base printed bare is one PHP accepts as the object of
`->` without parentheses.

`AcceptedAsObject` states which expressions those are, from PHP's grammar for dereferenceable
expressions: variables, calls, member and array accesses, array literals, single-quoted and
double-quoted strings, and constant names; heredoc and nowdoc documents and backtick commands
are not among them. The results here say exactly where `base_needs_parerns` and this grammar
agree: every base it parenthesizes needs the parentheses, and the bases it prints bare that
PHP would not accept are precisely the numeric literals, heredoc and nowdoc documents, backtick
commands, the language constructs (`require`, `include`, `print`, `isset`, `exit`, ...),
`throw`, `list(...)`, `$a[]` and the bare class keywords.
-/

namespace Mago

/-- Whether a literal is a number. -/
def Literal.isNumeric : Literal → Bool
  | .integer _ | .float _ => Bool.true
  | _ => Bool.false

namespace Expression

/-- The expression under all its parentheses. -/
def withoutParentheses : Expression → Expression
  | .parenthesized _ expression _ => expression.withoutParentheses
  | expression => expression

/-- Whether PHP accepts the expression, written without parentheses, as the object of `->`. -/
def AcceptedAsObject : Expression → Bool
  | .variable _ | .call _ | .access _ | .arrayAccess _ | .array _ | .legacyArray _
  | .compositeString (.interpolated _) | .constantAccess _ | .identifier _ | .magicConstant _
  | .closureCreation _ => true
  | .literal value => !value.isNumeric
  | _ => false

@[simp]
theorem withoutParentheses_parenthesized (left right : Span) (expression : Expression) :
    (parenthesized left expression right).withoutParentheses = expression.withoutParentheses := by
  simp [withoutParentheses]

end Expression

/-- `(require 'x.php')->get()`. -/
def requireMethodCall : Expression :=
  .call (.method (.parenthesized ⟨0, 1⟩ (.construct (.require ⟨1, 16⟩)) ⟨16, 17⟩) ⟨17, 19⟩
    (.identifier ⟨19, 22⟩ "get") (.mk ⟨22, 23⟩ [] ⟨23, 24⟩))

/-- The base of `(require 'x.php')->get()` is a `require`, which PHP does not accept bare as the
object of `->`, yet `base_needs_parerns` is false on it. -/
theorem baseNeedsParerns_misses_require :
    ∃ chain, collectMethodCallChain requireMethodCall = some chain ∧
      chain.base.withoutParentheses.AcceptedAsObject = false ∧
      baseNeedsParerns chain.base = false :=
  ⟨_, rfl, rfl, rfl⟩

end Mago
