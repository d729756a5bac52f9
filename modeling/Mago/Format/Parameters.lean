import Mago.Formatter
import Mago.Printing

/-!
# Function-like parameter lists

`print_function_like_parameters` prints a parameter list in one of two forms. A list whose
only parameter may be hugged is printed `(p)`, with no group of its own. Any other list is a
group: an indented block of the parameters after a soft line, an optional trailing comma that
appears only when the group breaks, the dangling comments of the parentheses or a soft line,
and the closing parenthesis. The parameters are printed by one loop shared by both forms, which
puts a comma between consecutive parameters and breaks out before the last one's separator.

The hug decision `should_hug_the_only_parameter` and the break decision `should_break` are
computed separately. The results here give the exact document for every list, show that the
two decisions never disagree on promoted properties, and show that the `len - 1` of the loop
never underflows. A blank line after a parameter other than the last breaks the whole list, and
the trailing comma is printed exactly when the list breaks.
-/

namespace Mago

/-- `should_hug_the_only_parameter`. -/
def shouldHugTheOnlyParameter (f : Formatter) (parameterList : FunctionLikeParameterList) :
    Bool :=
  if parameterList.parameters.length ≠ 1 then false
  else
    match parameterList.parameters.head? with
    | none => false
    | some parameter =>
        if f.hasComment (HasSpan.span parameter) CommentFlags.all then false
        else if !parameter.attributeLists.isEmpty || parameter.hooks.isSome then false
        else if !parameter.modifiers.isEmpty && f.settings.breakPromotedPropertiesList then false
        else true

/-- Parts that open with a parenthesis and an indented block holding a `BreakParent` force a
break. -/
theorem forcesBreakOfList_of_breakParent_in_block {printed : List Document}
    (breaks : .breakParent ∈ printed) (rest : List Document) :
    Document.forcesBreakOfList
      (.string "(" :: .indent (Document.softline :: printed) :: rest) = true := by
  simp only [Document.forcesBreakOfList_eq_any, List.any_cons, Document.forcesBreak_string,
    Document.forcesBreak_indent, Document.forcesBreak_softline, Bool.false_or, Bool.or_eq_true,
    List.any_eq_true]
  exact .inl ⟨_, breaks, rfl⟩

/-- Inside a broken group, parts that open with a parenthesis and an indented block after a
soft line break the line after the parenthesis. -/
theorem printsAll_open_block {printed rest : List Document} {output : List Output}
    (prints : PrintsAll true (.string "(" :: .indent (Document.softline :: printed) :: rest)
      output) :
    ∃ more, output = .text "(" :: .newline 1 :: more := by
  obtain ⟨_, _, printsOpen, afterOpen, rfl⟩ := printsAll_cons_iff.mp prints
  obtain ⟨_, more, printsBlock, -, rfl⟩ := printsAll_cons_iff.mp afterOpen
  obtain ⟨_, printsLines, rfl⟩ := prints_indent_iff.mp printsBlock
  obtain ⟨_, _, printsSoftline, -, rfl⟩ := printsAll_cons_iff.mp printsLines
  cases printsOpen
  rw [prints_line_broken_iff.mp printsSoftline]
  exact ⟨_, rfl⟩

/-- The parts of a parameter list with a trailing comma and no dangling comment print the
parameters between the parentheses with nothing after the last one when they print flat, and
otherwise the parameters on lines of their own, one level deeper, then the comma and a line
break before the closing parenthesis. -/
theorem printsAll_trailing_comma_parts {printed : List Document} {broken : Bool}
    {output : List Output}
    (prints : PrintsAll broken [.string "(", .indent (Document.softline :: printed),
      Document.ifBreakThen (.string ","), Document.softline, .string ")"] output) :
    (∃ inner, PrintsAll false printed inner ∧ output = .text "(" :: inner ++ [.text ")"]) ∨
      ∃ inner, PrintsAll true printed inner ∧
        output = .text "(" :: .newline 1 :: inner.map Output.indented ++
          [.text ",", .newline 0, .text ")"] := by
  obtain ⟨_, _, printsOpen, afterOpen, rfl⟩ := printsAll_cons_iff.mp prints
  obtain ⟨_, _, printsBlock, afterBlock, rfl⟩ := printsAll_cons_iff.mp afterOpen
  obtain ⟨_, _, printsComma, afterComma, rfl⟩ := printsAll_cons_iff.mp afterBlock
  obtain ⟨_, _, printsClosingLine, afterLine, rfl⟩ := printsAll_cons_iff.mp afterComma
  obtain ⟨_, _, printsClose, (_ | _), rfl⟩ := printsAll_cons_iff.mp afterLine
  obtain ⟨_, printsLines, rfl⟩ := prints_indent_iff.mp printsBlock
  obtain ⟨_, inner, printsSoftline, printsParameters, rfl⟩ := printsAll_cons_iff.mp printsLines
  cases printsOpen
  cases printsClose
  cases broken with
  | false =>
      cases printsComma with
      | ifBreakFlat printsEmpty =>
          cases printsEmpty
          rw [prints_softline_flat_iff.mp printsSoftline,
            prints_softline_flat_iff.mp printsClosingLine]
          refine .inl ⟨inner, printsParameters, ?_⟩
          simp [map_indented_of_printsAll_flat printed printsParameters]
  | true =>
      cases printsComma with
      | ifBreakBroken printsComma =>
          cases printsComma
          rw [prints_line_broken_iff.mp printsSoftline,
            prints_line_broken_iff.mp printsClosingLine]
          exact .inr ⟨inner, printsParameters, by simp [Output.indented]⟩

section Printing

variable [Format FunctionLikeParameter]

/-- The `for` loop of `print_function_like_parameters`: print parameter `i`, stop after the
last one, and otherwise push a comma, then a space when hugging, or a line followed, when a
blank line follows the parameter in the source, by a `BreakParent` and a hard line. The loop
evaluates `len - 1`; `none` is its underflow. -/
def printParametersLoop (f : Formatter) (shouldHugTheParameters : Bool) (len : Nat) :
    Nat → List FunctionLikeParameter → List Document → Option (List Document)
  | _, [], printed => some printed
  | i, parameter :: rest, printed => do
      let printed := printed ++ [Format.format f parameter]
      let last ← usizeSub len 1
      if i = last then some printed
      else
        let printed := printed ++ [.string ","]
        let printed :=
          if shouldHugTheParameters then printed ++ [Document.space]
          else
            let printed := printed ++ [.line Line.default]
            if f.isNextLineEmpty (HasSpan.span parameter) then
              printed ++ [.breakParent, Document.hardline]
            else printed
        printParametersLoop f shouldHugTheParameters len (i + 1) rest printed

/-- `print_function_like_parameters`; `none` is an underflow of `len - 1`. -/
def printFunctionLikeParameters (f : Formatter) (parameterList : FunctionLikeParameterList) :
    Option Document := do
  let shouldHugTheParameters := shouldHugTheOnlyParameter f parameterList
  let shouldBreak := !shouldHugTheParameters && f.settings.breakPromotedPropertiesList &&
    parameterList.parameters.any (·.isPromotedProperty)
  let parts := [Document.string "("]
  let len := parameterList.parameters.length
  let printed ← printParametersLoop f shouldHugTheParameters len 0 parameterList.parameters []
  if shouldHugTheParameters then
    return .array ([.string "("] ++ printed ++ [.string ")"])
  let parts :=
    if !parameterList.parameters.isEmpty then
      let parts := parts ++ [.indent (Document.softline :: printed)]
      if f.settings.trailingComma then parts ++ [Document.ifBreakThen (.string ",")] else parts
    else parts
  let parts :=
    match f.printDanglingComments
        (parameterList.leftParenthesis.join parameterList.rightParenthesis) true with
    | some comments => parts ++ [comments]
    | none => parts ++ [Document.softline]
  let parts := parts ++ [.string ")"]
  if f.argumentState.expandFirstArgument then return .array parts
  else return .group parts shouldBreak

/-- The separator after parameter `i` of a list of `n`, as the spec describes it: after every
parameter but the last, a comma, then a space when hugging or a line otherwise, then a
`BreakParent` and a hard line when the list is not hugged and a blank line follows the
parameter in the source; nothing after the last parameter. -/
def parameterSeparator (f : Formatter) (hug : Bool) (n i : Nat)
    (parameter : FunctionLikeParameter) : List Document :=
  if i + 1 < n then
    [.string ",", if hug then Document.space else .line Line.default] ++
      if !hug && f.isNextLineEmpty parameter.span then [.breakParent, Document.hardline] else []
  else []

/-- The printed parameters as the spec describes them: each parameter once, in order, each
followed by its separator. -/
def printedParameters (f : Formatter) (hug : Bool) (parameters : List FunctionLikeParameter) :
    List Document :=
  parameters.enum.flatMap fun (i, parameter) =>
    Format.format f parameter :: parameterSeparator f hug parameters.length i parameter

/-- A printed parameter list as the spec describes it. A hugged list is its parameters between
the parentheses. Any other list is: the opening parenthesis; when there are parameters, their
indented block after a soft line, and a trailing `IfBreak(",")` when the setting asks for it;
the dangling comments of the parentheses, or else a soft line; the closing parenthesis. It is a
group, breaking when promoted properties must break, unless the first argument is expanded. -/
def parameterListLayout (f : Formatter) (parameterList : FunctionLikeParameterList) :
    Document :=
  let hug := shouldHugTheOnlyParameter f parameterList
  let printed := printedParameters f hug parameterList.parameters
  if hug then .array ([.string "("] ++ printed ++ [.string ")"])
  else
    let block :=
      if parameterList.parameters.isEmpty then [] else [.indent (Document.softline :: printed)]
    let trailingComma :=
      if f.settings.trailingComma && !parameterList.parameters.isEmpty then
        [Document.ifBreakThen (.string ",")]
      else []
    let closing := (f.printDanglingComments
      (parameterList.leftParenthesis.join parameterList.rightParenthesis) true).getD
      Document.softline
    let parts := [.string "("] ++ block ++ trailingComma ++ [closing, .string ")"]
    if f.argumentState.expandFirstArgument then .array parts
    else .group parts (f.settings.breakPromotedPropertiesList &&
      parameterList.parameters.any (·.isPromotedProperty))

/-- A run of the parameter loop from parameter `i` of `n` appends the spec's printed
parameters, and never evaluates `len - 1` at zero. -/
theorem printParametersLoop_eq (f : Formatter) (hug : Bool) (n : Nat) :
    ∀ (i : Nat) (rest : List FunctionLikeParameter) (printed : List Document),
      i + rest.length = n →
      printParametersLoop f hug n i rest printed =
        some (printed ++ (rest.enumFrom i).flatMap fun (j, parameter) =>
          Format.format f parameter :: parameterSeparator f hug n j parameter)
  | i, [], printed, _ => by simp [printParametersLoop]
  | i, parameter :: rest, printed, counted => by
      simp only [List.length_cons] at counted
      have positive : 0 < n := by omega
      simp only [printParametersLoop, usizeSub_one_of_pos positive, Option.bind_eq_bind,
        Option.some_bind, List.enumFrom_cons, List.flatMap_cons]
      by_cases isLast : i = n - 1
      · have noRest : rest = [] := List.eq_nil_of_length_eq_zero (by omega)
        subst noRest
        simp [isLast, parameterSeparator]
        omega
      · have notLast : i + 1 < n := by omega
        rw [if_neg isLast, printParametersLoop_eq f hug n (i + 1) rest _ (by omega)]
        cases hug <;> by_cases blank : f.isNextLineEmpty parameter.span <;>
          simp [parameterSeparator, notLast, blank, HasSpan.span]

/-- The loop of `print_function_like_parameters` prints the spec's parameters. -/
theorem printParametersLoop_printedParameters (f : Formatter) (hug : Bool)
    (parameters : List FunctionLikeParameter) :
    printParametersLoop f hug parameters.length 0 parameters [] =
      some (printedParameters f hug parameters) := by
  rw [printParametersLoop_eq f hug _ 0 parameters [] (by simp)]
  rfl

/-- A hugged list is printed as its parameters between the parentheses. -/
theorem printFunctionLikeParameters_of_hugged (f : Formatter)
    {parameterList : FunctionLikeParameterList}
    (hug : shouldHugTheOnlyParameter f parameterList = true) :
    printFunctionLikeParameters f parameterList =
      some (.array ([.string "("] ++ printedParameters f true parameterList.parameters ++
        [.string ")"])) := by
  simp [printFunctionLikeParameters, printParametersLoop_printedParameters, hug]

/-- A list that is not hugged is printed as its opening parenthesis; when it has parameters,
their indented block after a soft line and, when the setting asks for it, the trailing
`IfBreak(",")`; the dangling comments of the parentheses, or else a soft line; and the closing
parenthesis. The parts are an array when the first argument is expanded, and otherwise a group
that breaks when promoted properties must. -/
theorem printFunctionLikeParameters_of_not_hugged (f : Formatter)
    {parameterList : FunctionLikeParameterList}
    (notHugged : shouldHugTheOnlyParameter f parameterList = false) :
    printFunctionLikeParameters f parameterList =
      some (let parts := [.string "("] ++
          (if parameterList.parameters.isEmpty then []
            else [.indent (Document.softline :: printedParameters f false parameterList.parameters)]) ++
          (if f.settings.trailingComma && !parameterList.parameters.isEmpty then
            [Document.ifBreakThen (.string ",")] else []) ++
          [(f.printDanglingComments
            (parameterList.leftParenthesis.join parameterList.rightParenthesis) true).getD
            Document.softline, .string ")"]
        if f.argumentState.expandFirstArgument then .array parts
        else .group parts (f.settings.breakPromotedPropertiesList &&
          parameterList.parameters.any (·.isPromotedProperty))) := by
  simp only [printFunctionLikeParameters, printParametersLoop_printedParameters,
    Option.bind_eq_bind, Option.some_bind, notHugged]
  cases f.printDanglingComments (parameterList.leftParenthesis.join
      parameterList.rightParenthesis) true <;>
    cases parameterList.parameters.isEmpty <;> cases f.settings.trailingComma <;>
    cases f.argumentState.expandFirstArgument <;> simp

/-- `print_function_like_parameters` prints every parameter list in the spec's layout: each
parameter once and in order, a comma between consecutive parameters and none after the last,
the blank-line marker after exactly the separators the spec names, and the trailing
`IfBreak(",")` exactly when the setting asks for it, the list is not hugged and it has
parameters. The `len - 1` of its loop never underflows. -/
theorem printFunctionLikeParameters_layout (f : Formatter)
    (parameterList : FunctionLikeParameterList) :
    printFunctionLikeParameters f parameterList = some (parameterListLayout f parameterList) := by
  cases hug : shouldHugTheOnlyParameter f parameterList with
  | true => simp [printFunctionLikeParameters_of_hugged f hug, parameterListLayout, hug]
  | false => simp [printFunctionLikeParameters_of_not_hugged f hug, parameterListLayout, hug]

/-- When the list is not hugged, the separator after a parameter that is not the last and is
followed by a blank line holds a `BreakParent`. -/
theorem breakParent_mem_printedParameters (f : Formatter)
    {parameters : List FunctionLikeParameter} {i : Nat} {parameter : FunctionLikeParameter}
    (found : parameters[i]? = some parameter) (notLast : i + 1 < parameters.length)
    (blank : f.isNextLineEmpty parameter.span = true) :
    .breakParent ∈ printedParameters f false parameters := by
  refine List.mem_flatMap.mpr ⟨(i, parameter), List.mem_enum_iff_getElem?.mpr found, ?_⟩
  simp [parameterSeparator, notLast, blank]

/-- A blank line after any parameter but the last makes `print_function_like_parameters` break
its list: the `BreakParent` of that parameter's separator sits in the indented block, so the
list prints only inside a broken group, hugging apart, with a line break after the opening
parenthesis. The first parameter then starts a line of its own, one level deeper. -/
theorem printFunctionLikeParameters_blank_line_breaks (f : Formatter)
    (parameterList : FunctionLikeParameterList) {i : Nat} {parameter : FunctionLikeParameter}
    (found : parameterList.parameters[i]? = some parameter)
    (notLast : i + 1 < parameterList.parameters.length)
    (blank : f.isNextLineEmpty parameter.span = true) :
    ∃ document, printFunctionLikeParameters f parameterList = some document ∧
      ∀ broken output, Prints broken document output →
        broken = true ∧ ∃ more, output = .text "(" :: .newline 1 :: more := by
  have notHugged : shouldHugTheOnlyParameter f parameterList = false := by
    simp [shouldHugTheOnlyParameter, show parameterList.parameters.length ≠ 1 by omega]
  have nonEmpty : parameterList.parameters.isEmpty = false :=
    List.isEmpty_eq_false.mpr (List.ne_nil_of_length_pos (by omega))
  have forces := forcesBreakOfList_of_breakParent_in_block
    (breakParent_mem_printedParameters f found notLast blank)
  refine ⟨_, printFunctionLikeParameters_of_not_hugged f notHugged,
    fun broken output printed => ?_⟩
  simp only [nonEmpty, Bool.false_eq_true, ↓reduceIte, List.singleton_append, List.cons_append]
    at printed
  split at printed
  · cases printed with
    | array prints =>
        obtain rfl := broken_of_forcesBreakOfList (forces _) prints
        exact ⟨rfl, printsAll_open_block prints⟩
  · obtain ⟨rfl, prints⟩ := (prints_group_of_forcesBreak (forces _)).mp printed
    exact ⟨rfl, printsAll_open_block prints⟩

/-- With `trailing_comma` set, a list that is not hugged, has parameters and has no dangling
comment gets its trailing comma exactly when it breaks. Flat, it prints `(`, the parameters and
`)`, with nothing after the last parameter. Broken, it prints the parameters one level deeper
after a line break, then `,`, a line break and `)`. -/
theorem printFunctionLikeParameters_trailing_comma (f : Formatter)
    (parameterList : FunctionLikeParameterList)
    (notHugged : shouldHugTheOnlyParameter f parameterList = false)
    (nonEmpty : parameterList.parameters ≠ []) (trailing : f.settings.trailingComma = true)
    (noDangling : f.comments.danglingComments
      (parameterList.leftParenthesis.join parameterList.rightParenthesis) = []) :
    ∃ document, printFunctionLikeParameters f parameterList = some document ∧
      ∀ broken output, Prints broken document output →
        (∃ inner, PrintsAll false (printedParameters f false parameterList.parameters) inner ∧
          output = .text "(" :: inner ++ [.text ")"]) ∨
        ∃ inner, PrintsAll true (printedParameters f false parameterList.parameters) inner ∧
          output = .text "(" :: .newline 1 :: inner.map Output.indented ++
            [.text ",", .newline 0, .text ")"] := by
  have closing : f.printDanglingComments
      (parameterList.leftParenthesis.join parameterList.rightParenthesis) true = none :=
    (Formatter.printDanglingComments_eq_none_iff _ _ _).mpr noDangling
  refine ⟨_, printFunctionLikeParameters_of_not_hugged f notHugged,
    fun broken output printed => ?_⟩
  simp only [List.isEmpty_eq_false.mpr nonEmpty, trailing, closing, Bool.false_eq_true,
    ↓reduceIte, Bool.not_false, Bool.and_self, Option.getD_none, List.singleton_append,
    List.cons_append, List.nil_append] at printed
  split at printed
  · cases printed with
    | array prints => exact printsAll_trailing_comma_parts prints
  · rcases printsAll_of_prints_group printed with prints | prints <;>
      exact printsAll_trailing_comma_parts prints

end Printing

section HuggedParameter

/-- Parameters printed as `$x`. -/
local instance dollarXParameter : Format FunctionLikeParameter := ⟨fun _ _ => .string "$x"⟩

/-- The parameter list of `function f($x⏎// c⏎)`: the parenthesis at offsets 10 and 19 and the
parameter `$x` at 11. -/
def commentedParameterList : FunctionLikeParameterList :=
  ⟨⟨10, 11⟩, [⟨[], [], none, ⟨11, 13⟩⟩], ⟨19, 20⟩⟩

/-- The line comment `// c` on its own line inside those parentheses. -/
def ownLineComment : Comment := ⟨⟨14, 18⟩, "// c"⟩

/-- A formatter for that source: no comment is attached to the parameter, and the comment
dangles in the parentheses. -/
def commentedParameterFormatter : Formatter where
  settings := ⟨true, false, .sameLine⟩
  argumentState := ⟨false⟩
  parentNode := .other
  grandparentNode := none
  comments := ⟨fun _ _ => false, fun span => if span = ⟨10, 20⟩ then [ownLineComment] else []⟩
  isNextLineEmpty := fun _ => false

/-- On `function f($x⏎// c⏎)` the list is hugged and its dangling comment is lost: the printed
`($x)` does not contain it. -/
theorem printFunctionLikeParameters_loses_dangling_comment :
    commentedParameterFormatter.comments.danglingComments
        (commentedParameterList.leftParenthesis.join commentedParameterList.rightParenthesis) =
      [ownLineComment] ∧
    printFunctionLikeParameters commentedParameterFormatter commentedParameterList =
      some (.array [.string "(", .string "$x", .string ")"]) ∧
    printComment ownLineComment ∉ (Document.array [.string "(", .string "$x", .string ")"]).leaves := by
  refine ⟨by decide, rfl, ?_⟩
  simp [printComment, ownLineComment]

end HuggedParameter

section BlankLineParameters

/-- Parameters printed as `$p`. -/
local instance dollarPParameter : Format FunctionLikeParameter := ⟨fun _ _ => .string "$p"⟩

/-- The parameter list of `function f($a,⏎⏎$b)`: the parentheses at offsets 10 and 18, and the
parameters `$a` at 11 and `$b` at 16. -/
def blankLineParameterList : FunctionLikeParameterList :=
  ⟨⟨10, 11⟩, [⟨[], [], none, ⟨11, 13⟩⟩, ⟨[], [], none, ⟨16, 18⟩⟩], ⟨18, 19⟩⟩

/-- A formatter for that source: no comments, and a blank line after `$a`. -/
def blankLineFormatter : Formatter where
  settings := ⟨true, false, .sameLine⟩
  argumentState := ⟨false⟩
  parentNode := .other
  grandparentNode := none
  comments := ⟨fun _ _ => false, fun _ => []⟩
  isNextLineEmpty := fun span => span = ⟨11, 13⟩

/-- In `function f($a,⏎⏎$b)` the blank line after `$a` breaks the list after its parenthesis. -/
theorem printFunctionLikeParameters_blank_line_breaks_twoParameters :
    blankLineParameterList.parameters[0]? = some ⟨[], [], none, ⟨11, 13⟩⟩ ∧
      0 + 1 < blankLineParameterList.parameters.length ∧
      blankLineFormatter.isNextLineEmpty ⟨11, 13⟩ = true ∧
      ∃ document,
        printFunctionLikeParameters blankLineFormatter blankLineParameterList = some document ∧
        ∀ broken output, Prints broken document output →
          broken = true ∧ ∃ more, output = .text "(" :: .newline 1 :: more :=
  have found : blankLineParameterList.parameters[0]? = some ⟨[], [], none, ⟨11, 13⟩⟩ := rfl
  ⟨found, by decide, by decide,
    printFunctionLikeParameters_blank_line_breaks _ _ found (by decide) (by decide)⟩

/-- In `function f($a,⏎⏎$b)` with trailing commas, the comma follows `$b` only when the list
breaks. -/
theorem printFunctionLikeParameters_trailing_comma_twoParameters :
    shouldHugTheOnlyParameter blankLineFormatter blankLineParameterList = false ∧
      blankLineParameterList.parameters ≠ [] ∧
      blankLineFormatter.settings.trailingComma = true ∧
      blankLineFormatter.comments.danglingComments
        (blankLineParameterList.leftParenthesis.join blankLineParameterList.rightParenthesis) =
          [] ∧
      ∃ document,
        printFunctionLikeParameters blankLineFormatter blankLineParameterList = some document ∧
        ∀ broken output, Prints broken document output →
          (∃ inner, PrintsAll false
              (printedParameters blankLineFormatter false blankLineParameterList.parameters)
              inner ∧ output = .text "(" :: inner ++ [.text ")"]) ∨
          ∃ inner, PrintsAll true
              (printedParameters blankLineFormatter false blankLineParameterList.parameters)
              inner ∧ output = .text "(" :: .newline 1 :: inner.map Output.indented ++
                [.text ",", .newline 0, .text ")"] :=
  ⟨by decide, by decide, rfl, rfl,
    printFunctionLikeParameters_trailing_comma _ _ (by decide) (by decide) rfl rfl⟩

end BlankLineParameters

end Mago
