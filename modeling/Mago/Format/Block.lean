import Mago.Formatter
import Mago.Printing

/-!
# Blocks

`print_block_of_nodes` prints a brace-delimited block of homogeneous nodes, such as a class
body: the nodes one per line in an indented body, keeping one blank line where the source has
one. `print_block` prints a statement block; an empty one still breaks when it is the body of a
function, a method, a property hook, a `try` clause, or a control structure.

Both end the same way: the dangling comments of the braces when there are any, in place of the
line break that otherwise comes before the closing brace. The results here give the exact
document of a block of nodes, whose loop evaluates `length - 1` only on a non-empty sequence,
and say, for both functions, exactly which blocks can print on one line: only as `{}`, and only
when nothing in the block forces a break. Any other block of nodes prints one node per line,
keeping at most one blank line between nodes, and a statement block with a body prints its
statements between a line break after `{` and one before `}`.
-/

namespace Mago

/-- Whether a statement is the empty statement `;`. -/
def Statement.isNoop : Statement → Bool
  | .noop _ => true
  | .other _ => false

/-- Indented dangling comments start with a hard line, so they force a break. -/
theorem printDanglingComments_forcesBreak {f : Formatter} {span : Span} {comments : Document}
    (printed : f.printDanglingComments span true = some comments) :
    comments.forcesBreak = true := by
  simp only [Formatter.printDanglingComments, ↓reduceIte] at printed
  split at printed
  · cases printed
  · cases printed
    simp

/-- Flat, braces around a soft line print `{}`. -/
theorem printsAll_flat_braces {output : List Output} :
    PrintsAll false [.string "\x7b", Document.softline, .string "\x7d"] output ↔
      output = [.text "\x7b", .text "\x7d"] := by
  simp [printsAll_cons_iff, prints_softline_flat_iff]

section Nodes

variable {T : Type} [Format T] [HasSpan T]

/-- The `for` loop of `print_block_of_nodes`: print node `i` and, unless it is the last, a
hard line, and a second one when a blank line follows the node in the source. Each turn
evaluates `length - 1`; `none` is its underflow. -/
def printBlockOfNodesLoop (f : Formatter) (length : Nat) :
    Nat → List T → List Document → Option (List Document)
  | _, [], formatted => some formatted
  | i, item :: rest, formatted => do
      let formatted := formatted ++ [Format.format f item]
      let last ← usizeSub length 1
      let formatted :=
        if i < last then
          let formatted := formatted ++ [Document.hardline]
          if f.isNextLineEmpty (HasSpan.span item) then formatted ++ [Document.hardline]
          else formatted
        else formatted
      printBlockOfNodesLoop f length (i + 1) rest formatted

/-- `print_block_of_nodes`; `none` is an underflow of `length - 1`. -/
def printBlockOfNodes (f : Formatter) (leftBrace : Span) (nodes : List T) (rightBrace : Span)
    (inlineEmpty : Bool) : Option Document := do
  let length := nodes.length
  let body ←
    if length = 0 then pure Document.empty
    else do
      let formatted ← printBlockOfNodesLoop f length 0 nodes [Document.hardline]
      pure (.indent formatted)
  let contents := [Document.string "\x7b", body]
  let contents :=
    match f.printDanglingComments (leftBrace.join rightBrace) true with
    | some comments => contents ++ [comments]
    | none =>
        if length > 0 || !inlineEmpty then contents ++ [Document.hardline] else contents
  pure (.group (contents ++ [.string "\x7d"]) false)

/-- The separator after node `i` of `n`, as the spec describes it: after every node but the
last, a hard line, and a second one when a blank line follows the node in the source. -/
def nodeSeparator (f : Formatter) (n i : Nat) (node : T) : List Document :=
  if i + 1 < n then
    Document.hardline :: if f.isNextLineEmpty (HasSpan.span node) then [Document.hardline] else []
  else []

/-- The body slot of a block of nodes as the spec describes it: nothing for no nodes, and
otherwise an indented hard line followed by each node once, in order, each followed by its
separator. -/
def blockBody (f : Formatter) (nodes : List T) : Document :=
  if nodes.isEmpty then .empty
  else .indent (Document.hardline :: nodes.enum.flatMap fun (i, node) =>
    Format.format f node :: nodeSeparator f nodes.length i node)

/-- A printed block of nodes as the spec describes it: the opening brace, the body slot, the
dangling comments of the braces or else a hard line unless the block is an empty inline one,
and the closing brace, in a group. -/
def blockOfNodesLayout (f : Formatter) (leftBrace : Span) (nodes : List T) (rightBrace : Span)
    (inlineEmpty : Bool) : Document :=
  let closing :=
    match f.printDanglingComments (leftBrace.join rightBrace) true with
    | some comments => [comments]
    | none => if !nodes.isEmpty || !inlineEmpty then [Document.hardline] else []
  .group ([.string "\x7b", blockBody f nodes] ++ closing ++ [.string "\x7d"]) false

/-- A run of the block loop from node `i` of `n` appends the spec's nodes and separators. -/
theorem printBlockOfNodesLoop_eq (f : Formatter) (n : Nat) :
    ∀ (i : Nat) (rest : List T) (formatted : List Document), i + rest.length = n →
      printBlockOfNodesLoop f n i rest formatted =
        some (formatted ++ (rest.enumFrom i).flatMap fun (j, node) =>
          Format.format f node :: nodeSeparator f n j node)
  | i, [], formatted, _ => by simp [printBlockOfNodesLoop]
  | i, item :: rest, formatted, counted => by
      simp only [List.length_cons] at counted
      simp only [printBlockOfNodesLoop, usizeSub_one_of_pos (by omega : 0 < n),
        Option.bind_eq_bind, Option.some_bind, List.enumFrom_cons, List.flatMap_cons,
        printBlockOfNodesLoop_eq f n (i + 1) rest _ (by omega)]
      by_cases notLast : i + 1 < n <;>
        by_cases blank : f.isNextLineEmpty (HasSpan.span item) <;>
        simp [nodeSeparator, notLast, blank, show i < n - 1 ↔ i + 1 < n by omega]

/-- On braces with dangling comments, `print_block_of_nodes` prints the body slot and then the
comments in place of the line break before the closing brace. -/
theorem printBlockOfNodes_of_dangling (f : Formatter) (leftBrace : Span) (nodes : List T)
    (rightBrace : Span) (inlineEmpty : Bool) {comments : Document}
    (dangling : f.printDanglingComments (leftBrace.join rightBrace) true = some comments) :
    printBlockOfNodes f leftBrace nodes rightBrace inlineEmpty =
      some (.group [.string "\x7b", blockBody f nodes, comments, .string "\x7d"] false) := by
  have loop := printBlockOfNodesLoop_eq f nodes.length 0 nodes [Document.hardline] (by simp)
  cases nodes <;> simp_all [printBlockOfNodes, blockBody, List.enum]

/-- On braces with no dangling comment, `print_block_of_nodes` prints the body slot and then a
hard line before the closing brace, unless the block is empty and inline. -/
theorem printBlockOfNodes_of_no_dangling (f : Formatter) (leftBrace : Span) (nodes : List T)
    (rightBrace : Span) (inlineEmpty : Bool)
    (noDangling : f.comments.danglingComments (leftBrace.join rightBrace) = []) :
    printBlockOfNodes f leftBrace nodes rightBrace inlineEmpty =
      some (.group ([.string "\x7b", blockBody f nodes] ++
        (if !nodes.isEmpty || !inlineEmpty then [Document.hardline] else []) ++
        [.string "\x7d"]) false) := by
  have closing := (Formatter.printDanglingComments_eq_none_iff f _ true).mpr noDangling
  have loop := printBlockOfNodesLoop_eq f nodes.length 0 nodes [Document.hardline] (by simp)
  cases nodes <;> cases inlineEmpty <;> simp_all [printBlockOfNodes, blockBody, List.enum]

/-- `print_block_of_nodes` prints every block in the spec's layout: the body slot is empty for
no nodes and otherwise holds each node once, in order, separated by one hard line, or by two
where the source has a blank line, with no separator after the last node; the `length - 1`
of its loop never underflows. -/
theorem printBlockOfNodes_layout (f : Formatter) (leftBrace : Span) (nodes : List T)
    (rightBrace : Span) (inlineEmpty : Bool) :
    printBlockOfNodes f leftBrace nodes rightBrace inlineEmpty =
      some (blockOfNodesLayout f leftBrace nodes rightBrace inlineEmpty) := by
  cases dangling : f.printDanglingComments (leftBrace.join rightBrace) true with
  | some comments =>
      simp [printBlockOfNodes_of_dangling f leftBrace nodes rightBrace inlineEmpty dangling,
        blockOfNodesLayout, dangling]
  | none =>
      rw [printBlockOfNodes_of_no_dangling f leftBrace nodes rightBrace inlineEmpty
        ((Formatter.printDanglingComments_eq_none_iff f _ true).mp dangling)]
      simp [blockOfNodesLayout, dangling]

/-- The line breaks a printed block puts after node `i` of `n`, one level deeper than the braces:
one, and a second, which leaves a blank line, when a blank line follows the node in the source;
none after the last node. -/
def nodeLineBreaks (f : Formatter) (n i : Nat) (node : T) : List Output :=
  if i + 1 < n then
    .newline 1 :: if f.isNextLineEmpty (HasSpan.span node) then [.newline 1] else []
  else []

omit [Format T] in
/-- Inside a broken group, the separator after a node prints its line breaks. -/
theorem printsAll_nodeSeparator (f : Formatter) (n i : Nat) (node : T) {output : List Output}
    (prints : PrintsAll true (nodeSeparator f n i node) output) :
    output.map Output.indented = nodeLineBreaks f n i node := by
  unfold nodeSeparator at prints
  unfold nodeLineBreaks
  split_ifs at prints ⊢ <;> simp [printsAll_cons_iff, prints_hardline_iff] at prints <;>
    simp [prints, Output.indented]

/-- Inside a broken group, nodes each followed by their separator print, one level deeper, each
node's output followed by its line breaks. -/
theorem printsAll_nodes (f : Formatter) (n : Nat) {items : List (Nat × T)}
    {output : List Output}
    (prints : PrintsAll true (items.flatMap fun (i, node) =>
      Format.format f node :: nodeSeparator f n i node) output) :
    ∃ outputs, List.Forall₂ (fun (item : Nat × T) printed => ∃ inner,
        Prints true (Format.format f item.2) inner ∧ printed = inner.map Output.indented)
        items outputs ∧
      output.map Output.indented = (items.zip outputs).flatMap fun (item, printed) =>
        printed ++ nodeLineBreaks f n item.1 item.2 := by
  induction items generalizing output with
  | nil => exact ⟨[], .nil, by simpa using prints⟩
  | cons item items ih =>
      rw [List.flatMap_cons] at prints
      obtain ⟨_, _, printsItem, printsItems, rfl⟩ := printsAll_append_iff.mp prints
      obtain ⟨inner, _, printsNode, printsSeparator, rfl⟩ := printsAll_cons_iff.mp printsItem
      obtain ⟨outputs, related, printedItems⟩ := ih printsItems
      refine ⟨inner.map Output.indented :: outputs, .cons ⟨inner, printsNode, rfl⟩ related, ?_⟩
      simp [printedItems, printsAll_nodeSeparator f n _ _ printsSeparator]

/-- Every printing of a block of nodes with no dangling comment between its braces is broken:
`{`, then each node on a line of its own one level deeper, followed by one line break, or by
two where a blank line follows the node in the source, and none after the last, then a line
break and `}`. So no more than one blank line is kept between nodes. -/
theorem printBlockOfNodes_prints_lines (f : Formatter) (leftBrace : Span) (nodes : List T)
    (rightBrace : Span) (inlineEmpty : Bool) (nonEmpty : nodes ≠ [])
    (noDangling : f.comments.danglingComments (leftBrace.join rightBrace) = []) :
    ∃ document, printBlockOfNodes f leftBrace nodes rightBrace inlineEmpty = some document ∧
      ∀ broken output, Prints broken document output → broken = true ∧
        ∃ outputs, List.Forall₂ (fun (item : Nat × T) printed => ∃ inner,
            Prints true (Format.format f item.2) inner ∧ printed = inner.map Output.indented)
            nodes.enum outputs ∧
          output = .text "\x7b" :: .newline 1 :: (nodes.enum.zip outputs).flatMap
            (fun (item, printed) => printed ++ nodeLineBreaks f nodes.length item.1 item.2) ++
            [.newline 0, .text "\x7d"] := by
  have notEmpty : nodes.isEmpty = false := List.isEmpty_eq_false.mpr nonEmpty
  refine ⟨_, printBlockOfNodes_of_no_dangling f leftBrace nodes rightBrace inlineEmpty noDangling,
    fun broken output printed => ?_⟩
  simp only [blockBody, notEmpty, Bool.not_false, Bool.true_or, Bool.false_eq_true, ↓reduceIte,
    List.cons_append, List.singleton_append] at printed
  rw [prints_group_of_forcesBreak (by simp)] at printed
  obtain ⟨rfl, printed⟩ := printed
  obtain ⟨_, _, printsOpen, afterOpen, rfl⟩ := printsAll_cons_iff.mp printed
  obtain ⟨_, _, printsBody, afterBody, rfl⟩ := printsAll_cons_iff.mp afterOpen
  obtain ⟨_, _, printsLine, afterLine, rfl⟩ := printsAll_cons_iff.mp afterBody
  obtain ⟨_, _, printsClose, (_ | _), rfl⟩ := printsAll_cons_iff.mp afterLine
  obtain ⟨_, printsLines, rfl⟩ := prints_indent_iff.mp printsBody
  obtain ⟨_, inner, printsFirstLine, printsNodes, rfl⟩ := printsAll_cons_iff.mp printsLines
  obtain ⟨outputs, related, printedNodes⟩ := printsAll_nodes f nodes.length printsNodes
  rw [(prints_hardline_iff.mp printsFirstLine).2, (prints_hardline_iff.mp printsLine).2,
    prints_string_iff.mp printsOpen, prints_string_iff.mp printsClose]
  exact ⟨rfl, outputs, related, by simp [printedNodes, Output.indented]⟩

/-- `print_block_of_nodes` prints a block on one line only as `{}`, and only for an empty
inline block whose braces hold no dangling comment: the nodes' indented body and the
dangling comments start with a hard line, and any other block closes with one. -/
theorem printBlockOfNodes_prints_flat_iff (f : Formatter) (leftBrace : Span) (nodes : List T)
    (rightBrace : Span) (inlineEmpty : Bool) :
    ∃ document, printBlockOfNodes f leftBrace nodes rightBrace inlineEmpty = some document ∧
      ∀ output, Prints false document output ↔
        nodes = [] ∧ inlineEmpty = true ∧
          f.comments.danglingComments (leftBrace.join rightBrace) = [] ∧
          output = [.text "\x7b", .text "\x7d"] := by
  cases dangling : f.printDanglingComments (leftBrace.join rightBrace) true with
  | some comments =>
      have commented : f.comments.danglingComments (leftBrace.join rightBrace) ≠ [] := by
        rw [ne_eq, ← Formatter.printDanglingComments_eq_none_iff, dangling]
        exact Option.some_ne_none _
      refine ⟨_, printBlockOfNodes_of_dangling f leftBrace nodes rightBrace inlineEmpty dangling,
        fun output => ?_⟩
      simp only [prints_flat_group_iff, commented, false_and, and_false, iff_false]
      exact fun ⟨_, printed⟩ => not_printsAll_flat_of_forcesBreakOfList
        (by simp [printDanglingComments_forcesBreak dangling]) printed
  | none =>
      rw [Formatter.printDanglingComments_eq_none_iff] at dangling
      refine ⟨_, printBlockOfNodes_of_no_dangling f leftBrace nodes rightBrace inlineEmpty dangling,
        fun output => ?_⟩
      rw [prints_flat_group_iff]
      cases nodes with
      | cons node rest =>
          simp only [reduceCtorEq, false_and, iff_false]
          exact fun ⟨_, printed⟩ => not_printsAll_flat_of_forcesBreakOfList
            (by simp [blockBody]) printed
      | nil =>
          cases inlineEmpty with
          | false =>
              simp only [Bool.false_eq_true, false_and, and_false, iff_false]
              exact fun ⟨_, printed⟩ => not_printsAll_flat_of_forcesBreakOfList
                (by simp) printed
          | true => simp [blockBody, printsAll_cons_iff, dangling]

end Nodes

section Statements

variable (printStatementSequence : Formatter → List Statement → List Document)

/-- `print_block`. -/
def printBlock (f : Formatter) (leftBrace : Span) (stmts : List Statement) (rightBrace : Span) :
    Document :=
  let contents := [Document.string "\x7b"]
  let hasBody := stmts.any fun stmt => !stmt.isNoop
  let (contents, shouldBreak) :=
    if hasBody then
      let statements := Document.hardline :: printStatementSequence f stmts
      (contents ++ [.indent statements], true)
    else
      let shouldBreak :=
        match f.parentNode with
        | .function | .methodBody | .propertyHookConcreteBody => true
        | .try | .tryCatchClause | .tryFinallyClause => true
        | .statement =>
            match f.grandparentNode with
            | some .forBody | some .whileBody | some .doWhile | some .if | some .ifStatementBody
            | some .ifStatementBodyElseClause | some .ifStatementBodyElseIfClause
            | some .foreachBody => true
            | _ => false
        | _ => false
      (contents, shouldBreak)
  let contents :=
    match f.printDanglingComments (leftBrace.join rightBrace) true with
    | some comments => contents ++ [comments]
    | none => contents ++ [Document.softline]
  .group (contents ++ [.string "\x7d"]) shouldBreak

/-- `print_block_body`. -/
def printBlockBody (f : Formatter) (stmts : List Statement) : Option Document :=
  let hasBody := stmts.any fun stmt => !stmt.isNoop
  if hasBody then some (.array (printStatementSequence f stmts)) else none

/-- The parents whose empty block still breaks: functions, methods, concrete property hooks and
the clauses of `try`. -/
def breakingBlockParents : List Node :=
  [.function, .methodBody, .propertyHookConcreteBody, .try, .tryCatchClause, .tryFinallyClause]

/-- The control structures whose empty block statement still breaks. -/
def breakingBlockGrandparents : List Node :=
  [.forBody, .whileBody, .doWhile, .if, .ifStatementBody, .ifStatementBodyElseClause,
    .ifStatementBodyElseIfClause, .foreachBody]

/-- `print_block` prints a block on one line only as `{}`, and exactly when the block has no
statement but `;`, its braces hold no dangling comment, and it is not the body of a function,
a method, a property hook, a `try` clause or a control structure. -/
theorem printBlock_prints_flat_iff (f : Formatter) (leftBrace : Span) (stmts : List Statement)
    (rightBrace : Span) (output : List Output) :
    Prints false (printBlock printStatementSequence f leftBrace stmts rightBrace) output ↔
      (∀ stmt ∈ stmts, stmt.isNoop = true) ∧
        f.comments.danglingComments (leftBrace.join rightBrace) = [] ∧
        f.parentNode ∉ breakingBlockParents ∧
        (f.parentNode = .statement → ∀ node ∈ breakingBlockGrandparents,
          f.grandparentNode ≠ some node) ∧
        output = [.text "\x7b", .text "\x7d"] := by
  unfold printBlock
  by_cases hasBody : (stmts.any fun stmt => !stmt.isNoop) = true
  · obtain ⟨stmt, member, notNoop⟩ : ∃ stmt ∈ stmts, stmt.isNoop = false := by
      simpa using hasBody
    simp only [hasBody, ↓reduceIte, prints_flat_group_iff, Bool.true_eq_false, false_and,
      false_iff, not_and]
    exact fun allNoop => absurd (allNoop stmt member) (by simp [notNoop])
  · have allNoop : ∀ stmt ∈ stmts, stmt.isNoop = true := by simpa using hasBody
    simp only [hasBody, Bool.false_eq_true, ↓reduceIte, prints_flat_group_iff, allNoop,
      implies_true, true_and]
    cases dangling : f.printDanglingComments (leftBrace.join rightBrace) true with
    | some comments =>
        have commented : f.comments.danglingComments (leftBrace.join rightBrace) ≠ [] := by
          rw [ne_eq, ← Formatter.printDanglingComments_eq_none_iff, dangling]
          exact Option.some_ne_none _
        simp only [commented, false_and, and_false, iff_false, not_and]
        exact fun _ printed => not_printsAll_flat_of_forcesBreakOfList
          (by simp [printDanglingComments_forcesBreak dangling]) printed
    | none =>
        rw [Formatter.printDanglingComments_eq_none_iff] at dangling
        rw [and_iff_right allNoop]
        simp only [dangling, true_and, List.cons_append, List.nil_append, printsAll_flat_braces]
        rw [← and_assoc]
        refine and_congr_left fun _ => ?_
        generalize f.parentNode = parent
        generalize f.grandparentNode = grandparent
        cases parent <;> try (simp only [reduceCtorEq, false_implies, and_true]; decide)
        cases grandparent with
        | none => decide
        | some node => cases node <;> decide

/-- Every printing of a block with a statement other than `;` and no dangling comment between
its braces is broken: `{`, a line break one level deeper, the statements' broken output one
level deeper, a line break and `}`. -/
theorem printBlock_body_prints_lines (f : Formatter) (leftBrace : Span) (stmts : List Statement)
    (rightBrace : Span) (hasBody : ∃ stmt ∈ stmts, stmt.isNoop = false)
    (noDangling : f.comments.danglingComments (leftBrace.join rightBrace) = []) :
    ∀ broken output,
      Prints broken (printBlock printStatementSequence f leftBrace stmts rightBrace) output →
        broken = true ∧ ∃ inner, PrintsAll true (printStatementSequence f stmts) inner ∧
          output = .text "\x7b" :: .newline 1 :: inner.map Output.indented ++
            [.newline 0, .text "\x7d"] := by
  intro broken output printed
  have body : (stmts.any fun stmt => !stmt.isNoop) = true := by simpa using hasBody
  have closing : f.printDanglingComments (leftBrace.join rightBrace) true = none :=
    (Formatter.printDanglingComments_eq_none_iff _ _ _).mpr noDangling
  simp only [printBlock, body, closing, ↓reduceIte, List.singleton_append, List.cons_append,
    List.nil_append] at printed
  cases printed with
  | groupBroken printed =>
      obtain ⟨_, _, printsOpen, afterOpen, rfl⟩ := printsAll_cons_iff.mp printed
      obtain ⟨_, _, printsBody, afterBody, rfl⟩ := printsAll_cons_iff.mp afterOpen
      obtain ⟨_, _, printsLine, afterLine, rfl⟩ := printsAll_cons_iff.mp afterBody
      obtain ⟨_, _, printsClose, (_ | _), rfl⟩ := printsAll_cons_iff.mp afterLine
      obtain ⟨_, printsLines, rfl⟩ := prints_indent_iff.mp printsBody
      obtain ⟨_, inner, printsFirstLine, printsStatements, rfl⟩ :=
        printsAll_cons_iff.mp printsLines
      rw [(prints_hardline_iff.mp printsFirstLine).2, prints_line_broken_iff.mp printsLine,
        prints_string_iff.mp printsOpen, prints_string_iff.mp printsClose]
      exact ⟨rfl, inner, printsStatements, by simp [Output.indented]⟩

end Statements

section TwoStatements

/-- Statements printed as `s;`. -/
local instance statementFormat : Format Statement := ⟨fun _ _ => .string "s;"⟩

/-- The opening brace of `{⏎s;⏎⏎s;⏎}`, at offset 0. -/
def twoStatementsLeftBrace : Span := ⟨0, 1⟩

/-- The closing brace of that block, at offset 9. -/
def twoStatementsRightBrace : Span := ⟨9, 10⟩

/-- The two statements of that block, at offsets 2 and 6. -/
def twoStatements : List Statement := [.other ⟨2, 4⟩, .other ⟨6, 8⟩]

/-- A formatter for that source: no comments, and a blank line after the first statement. -/
def twoStatementsFormatter : Formatter where
  settings := ⟨true, false, .sameLine⟩
  argumentState := ⟨false⟩
  parentNode := .other
  grandparentNode := none
  comments := ⟨fun _ _ => false, fun _ => []⟩
  isNextLineEmpty := fun span => span = ⟨2, 4⟩

/-- `{⏎s;⏎⏎s;⏎}` prints each statement on a line of its own, keeping the blank line. -/
theorem printBlockOfNodes_prints_lines_twoStatements :
    twoStatements ≠ [] ∧
      twoStatementsFormatter.comments.danglingComments
        (twoStatementsLeftBrace.join twoStatementsRightBrace) = [] ∧
      ∃ document, printBlockOfNodes twoStatementsFormatter twoStatementsLeftBrace twoStatements
          twoStatementsRightBrace false = some document ∧
        ∀ broken output, Prints broken document output → broken = true ∧
          ∃ outputs, List.Forall₂ (fun (item : Nat × Statement) printed => ∃ inner,
              Prints true (Format.format twoStatementsFormatter item.2) inner ∧
                printed = inner.map Output.indented)
              twoStatements.enum outputs ∧
            output = .text "\x7b" :: .newline 1 :: (twoStatements.enum.zip outputs).flatMap
              (fun (item, printed) =>
                printed ++ nodeLineBreaks twoStatementsFormatter twoStatements.length item.1 item.2) ++
              [.newline 0, .text "\x7d"] :=
  ⟨List.cons_ne_nil _ _, rfl, printBlockOfNodes_prints_lines _ _ _ _ _ (List.cons_ne_nil _ _) rfl⟩

/-- `{⏎s;⏎⏎s;⏎}` printed as a statement block breaks after `{` and before `}`. -/
theorem printBlock_body_prints_lines_twoStatements :
    (∃ stmt ∈ twoStatements, stmt.isNoop = false) ∧
      twoStatementsFormatter.comments.danglingComments
        (twoStatementsLeftBrace.join twoStatementsRightBrace) = [] ∧
      ∀ broken output,
        Prints broken (printBlock (fun _ _ => [.string "s;"]) twoStatementsFormatter
          twoStatementsLeftBrace twoStatements twoStatementsRightBrace) output →
          broken = true ∧ ∃ inner, PrintsAll true [.string "s;"] inner ∧
            output = .text "\x7b" :: .newline 1 :: inner.map Output.indented ++
              [.newline 0, .text "\x7d"] :=
  have hasBody : ∃ stmt ∈ twoStatements, stmt.isNoop = false := ⟨_, List.mem_cons_self _ _, rfl⟩
  ⟨hasBody, rfl, printBlock_body_prints_lines (fun _ _ => [.string "s;"]) _ _ _ _ hasBody rfl⟩

end TwoStatements

end Mago
