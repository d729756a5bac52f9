import Mago.Formatter

/-!
# Method-call chains

`collect_method_call_chain` walks down the object spine of an expression while it meets
method and null-safe method calls, and `print_method_call_chain` prints the collected chain:
the base, then one link per call, the first link on the base's line under the `SameLine`
style and every other link on a line of its own.

The walk pushes the outermost call first and reverses the accumulator at the end, and the
printer consumes the first link through an iterator only under one of the two styles. The
results here show that the decomposition is exact (the calls rebuild the expression, the
first one on the base) and that the printer emits every link once, in order, and never
reaches its `unreachable!()` arms on a collected chain.
-/

namespace Mago

/-- `CallLikeNode`: a node printed with an argument list. -/
inductive CallLikeNode where
  | call (call : Call)
  | instantiation (span : Span)
  | attribute (span : Span)

namespace Call

/-- The object of a method or null-safe method call. -/
def methodObject? : Call → Option Expression
  | .method object _ _ _ => some object
  | .nullSafeMethod object _ _ _ => some object
  | _ => none

end Call

namespace CallLikeNode

/-- The object a chain link is called on. -/
def object? : CallLikeNode → Option Expression
  | .call linkCall => linkCall.methodObject?
  | _ => none

/-- The expression a chain link is. -/
def expression? : CallLikeNode → Option Expression
  | .call linkCall => some (.call linkCall)
  | _ => none

end CallLikeNode

namespace Expression

/-- Whether an expression is a method or null-safe method call. -/
def isMethodCall : Expression → Bool
  | .call (.method _ _ _ _) => true
  | .call (.nullSafeMethod _ _ _ _) => true
  | _ => false

end Expression

/-- `MethodChain`: the base of a chain and its calls, the first one applied to the base. -/
structure MethodChain where
  base : Expression
  calls : List CallLikeNode

/-- The `while let` loop of `collect_method_call_chain`: while the current expression is a
method or null-safe method call, push it and move to its object. Returns the expression the
loop stopped at and the pushed calls. -/
def collectMethodCallChainLoop : Expression → List CallLikeNode → Expression × List CallLikeNode
  | .call call@(.method object _ _ _), calls =>
      collectMethodCallChainLoop object (calls ++ [.call call])
  | .call call@(.nullSafeMethod object _ _ _), calls =>
      collectMethodCallChainLoop object (calls ++ [.call call])
  | current, calls => (current, calls)

/-- `collect_method_call_chain`. -/
def collectMethodCallChain (expr : Expression) : Option MethodChain :=
  let (current, calls) := collectMethodCallChainLoop expr []
  if calls.isEmpty then none else some ⟨current, calls.reverse⟩

/-- `base_needs_parerns`. -/
def baseNeedsParerns : Expression → Bool
  | .parenthesized _ expression _ => baseNeedsParerns expression
  | .instantiation _ _ arguments => if arguments.isNone then true else true
  | .binary _ | .unaryPrefix _ | .unaryPostfix _ | .assignment _ | .conditional _
  | .anonymousClass _ | .closure _ | .arrowFunction _ | .match _ | .yield _ | .clone _ => true
  | _ => false

/-- What one run of the collection loop pushes: the method calls on the object spine of
`expr`, outermost first. Read as expressions, the pushed calls are `expr` followed by the
objects of all but the last; the object of the last is `base`, where the loop stopped. -/
structure SpinePushed (expr base : Expression) (pushed : List CallLikeNode) : Prop where
  empty_iff : pushed = [] ↔ expr.isMethodCall = false
  method_calls : ∀ link ∈ pushed, ∃ call, link = .call call ∧ (Expression.call call).isMethodCall
  objects : some expr :: pushed.map CallLikeNode.object? =
    pushed.map CallLikeNode.expression? ++ [some base]
  base_not_method : base.isMethodCall = false

/-- Pushing one more method call on top of a spine. -/
theorem SpinePushed.cons {call : Call} {object base : Expression} {pushed : List CallLikeNode}
    (isMethod : (Expression.call call).isMethodCall) (onObject : call.methodObject? = some object)
    (spine : SpinePushed object base pushed) :
    SpinePushed (.call call) base (.call call :: pushed) where
  empty_iff := by simp [isMethod]
  method_calls link member := by
    rcases List.mem_cons.mp member with rfl | member
    · exact ⟨call, rfl, isMethod⟩
    · exact spine.method_calls link member
  objects := by
    simp only [List.map_cons, List.cons_append, CallLikeNode.object?, onObject,
      CallLikeNode.expression?, spine.objects]
  base_not_method := spine.base_not_method

/-- The loop stops at once on an expression that is not a method call. -/
theorem collectMethodCallChainLoop_of_not_isMethodCall {current : Expression}
    (calls : List CallLikeNode) (notMethod : current.isMethodCall = false) :
    collectMethodCallChainLoop current calls = (current, calls) := by
  unfold collectMethodCallChainLoop
  split <;> simp_all [Expression.isMethodCall]

/-- The loop appends to its accumulator exactly the method calls on the object spine. -/
theorem collectMethodCallChainLoop_spine (expr : Expression) (calls : List CallLikeNode) :
    ∃ pushed, (collectMethodCallChainLoop expr calls).2 = calls ++ pushed ∧
      SpinePushed expr (collectMethodCallChainLoop expr calls).1 pushed := by
  induction expr, calls using collectMethodCallChainLoop.induct with
  | case1 object _ _ _ calls ih | case2 object _ _ _ calls ih =>
      obtain ⟨pushed, appended, spine⟩ := ih
      exact ⟨.call _ :: pushed, by simp [collectMethodCallChainLoop, appended],
        SpinePushed.cons rfl rfl spine⟩
  | case3 current calls notMethod notNullSafe =>
      have notMethodCall : current.isMethodCall = false := by
        unfold Expression.isMethodCall
        split
        · exact (notMethod _ _ _ _ rfl).elim
        · exact (notNullSafe _ _ _ _ rfl).elim
        · rfl
      rw [collectMethodCallChainLoop_of_not_isMethodCall calls notMethodCall]
      exact ⟨[], by simp, by simp [notMethodCall], by simp, by simp, notMethodCall⟩

/-- Reading a spine equation `[base, e₀, …, eₙ₋₁] = [o₀, …, oₙ₋₁, top]` index by index:
the first link is on `base`, each next link on the one before, and the last link is `top`. -/
theorem spine_equation_indices {α β : Type} {object expression : α → Option β}
    {links : List α} {base top : β} (nonEmpty : links ≠ [])
    (equation : some base :: links.map expression = links.map object ++ [some top]) :
    links.head?.bind object = some base ∧
      (∀ i (h : i + 1 < links.length), object links[i + 1] = expression links[i]) ∧
      links.getLast?.bind expression = some top := by
  refine ⟨?_, fun i h => ?_, ?_⟩
  · cases links with
    | nil => contradiction
    | cons first rest => simpa using (List.cons.inj equation).1.symm
  · have atIndex := congrArg (·[i + 1]?) equation
    simp [List.getElem?_append_left (by simpa using h : i + 1 < (links.map object).length),
      List.getElem?_eq_getElem h, List.getElem?_eq_getElem (by omega : i < links.length)]
      at atIndex
    exact atIndex.symm
  · have atEnd := congrArg List.getLast? equation
    cases links using List.reverseRecOn with
    | nil => contradiction
    | append_singleton init last =>
        simp only [List.map_append, List.map_cons, List.map_nil, ← List.cons_append,
          List.getLast?_append_of_ne_nil _ (List.cons_ne_nil _ _)] at atEnd
        simpa using atEnd

theorem collectMethodCallChain_eq (expr : Expression) :
    collectMethodCallChain expr =
      if (collectMethodCallChainLoop expr []).2.isEmpty then none
      else some ⟨(collectMethodCallChainLoop expr []).1,
        (collectMethodCallChainLoop expr []).2.reverse⟩ :=
  rfl

/-- A chain found by `collect_method_call_chain` is the reversed push list of one loop run. -/
theorem collectMethodCallChain_spine {expr : Expression} {chain : MethodChain}
    (collected : collectMethodCallChain expr = some chain) :
    chain.calls ≠ [] ∧ SpinePushed expr chain.base chain.calls.reverse := by
  obtain ⟨pushed, appended, spine⟩ := collectMethodCallChainLoop_spine expr []
  rw [List.nil_append] at appended
  rw [collectMethodCallChain_eq, appended] at collected
  split at collected
  · contradiction
  · rename_i nonEmpty
    cases collected
    exact ⟨by simpa [List.isEmpty_iff] using nonEmpty, by simpa using spine⟩

/-- The calls of a collected chain are all method or null-safe method calls. -/
theorem collectMethodCallChain_methods {expr : Expression} {chain : MethodChain}
    (collected : collectMethodCallChain expr = some chain) :
    ∀ link ∈ chain.calls, ∃ call, link = .call call ∧ (Expression.call call).isMethodCall :=
  fun link member =>
    (collectMethodCallChain_spine collected).2.method_calls link (List.mem_reverse.mpr member)

/-- A chain found by `collect_method_call_chain` decomposes the expression's spine: its calls
are method calls, the first on the base, each next one on the one before, the last one the
expression itself, and the base is no method call. -/
theorem collectMethodCallChain_links {expr : Expression} {chain : MethodChain}
    (collected : collectMethodCallChain expr = some chain) :
    chain.calls ≠ [] ∧
    (∀ link ∈ chain.calls, ∃ call, link = .call call ∧ (Expression.call call).isMethodCall) ∧
    chain.calls.head?.bind CallLikeNode.object? = some chain.base ∧
    (∀ i (h : i + 1 < chain.calls.length),
      chain.calls[i + 1].object? = chain.calls[i].expression?) ∧
    chain.calls.getLast?.bind CallLikeNode.expression? = some expr ∧
    chain.base.isMethodCall = false := by
  obtain ⟨nonEmpty, spine⟩ := collectMethodCallChain_spine collected
  have reversed := congrArg List.reverse spine.objects
  simp only [List.reverse_cons, List.reverse_append, ← List.map_reverse, List.reverse_reverse,
    List.reverse_singleton, List.singleton_append] at reversed
  obtain ⟨first, next, last⟩ := spine_equation_indices nonEmpty reversed.symm
  exact ⟨nonEmpty, collectMethodCallChain_methods collected, first, next, last,
    spine.base_not_method⟩

/-- `collect_method_call_chain` finds a chain exactly on method calls, and the chain it finds
decomposes the expression: its calls are method calls, the first on the base, each next one on
the one before, the last one the expression itself, and the base is no method call. -/
theorem collectMethodCallChain_decomposes (expr : Expression) :
    (collectMethodCallChain expr = none ↔ expr.isMethodCall = false) ∧
    ∀ chain, collectMethodCallChain expr = some chain →
      chain.calls ≠ [] ∧
      (∀ link ∈ chain.calls, ∃ call, link = .call call ∧ (Expression.call call).isMethodCall) ∧
      chain.calls.head?.bind CallLikeNode.object? = some chain.base ∧
      (∀ i (h : i + 1 < chain.calls.length),
        chain.calls[i + 1].object? = chain.calls[i].expression?) ∧
      chain.calls.getLast?.bind CallLikeNode.expression? = some expr ∧
      chain.base.isMethodCall = false := by
  refine ⟨?_, fun _ => collectMethodCallChain_links⟩
  obtain ⟨pushed, appended, spine⟩ := collectMethodCallChainLoop_spine expr []
  rw [List.nil_append] at appended
  rw [collectMethodCallChain_eq, appended]
  split <;> simp_all [← spine.empty_iff]

section Printing

variable [Format ClassLikeMemberSelector] (printCallArguments : Formatter → CallLikeNode → Document)

/-- The operator and the formatted method of a chain link; `none` is the `unreachable!()`
arm. -/
def chainLinkOperatorAndMethod (f : Formatter) : CallLikeNode → Option (Document × Document)
  | .call (.method _ _ method _) => some (.string "->", Format.format f method)
  | .call (.nullSafeMethod _ _ method _) => some (.string "?->", Format.format f method)
  | _ => none

/-- The `for` loop of `print_method_call_chain` over the links the iterator has left: each
goes into `parts` as an `Indent` starting with a hard line. -/
def printRemainingChainLinks (f : Formatter) :
    List CallLikeNode → List Document → Option (List Document)
  | [], parts => some parts
  | chainLink :: rest, parts => do
      let (operator, method) ← chainLinkOperatorAndMethod f chainLink
      let contents :=
        [Document.hardline, operator, method, .group [printCallArguments f chainLink] false]
      printRemainingChainLinks f rest (parts ++ [.indent contents])

/-- One link of a printed chain as the spec describes it: the operator (`->` for a method
call, `?->` for a null-safe one), the formatted method, and the arguments in a group. -/
def methodChainLinkParts (f : Formatter) : CallLikeNode → List Document
  | link@(.call (.method _ _ method _)) =>
      [.string "->", Format.format f method, .group [printCallArguments f link] false]
  | link@(.call (.nullSafeMethod _ _ method _)) =>
      [.string "?->", Format.format f method, .group [printCallArguments f link] false]
  | _ => []

/-- A method-call link never reaches the `unreachable!()` arm, and its operator and method
are the first two of its parts. -/
theorem chainLinkOperatorAndMethod_of_method (f : Formatter) {link : CallLikeNode}
    (isMethod : ∃ call, link = .call call ∧ (Expression.call call).isMethodCall) :
    ∃ operator method, chainLinkOperatorAndMethod f link = some (operator, method) ∧
      methodChainLinkParts printCallArguments f link =
        [operator, method, .group [printCallArguments f link] false] := by
  obtain ⟨call, rfl, isMethod⟩ := isMethod
  cases call <;> simp_all [Expression.isMethodCall, chainLinkOperatorAndMethod,
    methodChainLinkParts]

/-- The loop over the remaining links puts each one, in order, on a line of its own. -/
theorem printRemainingChainLinks_of_methods (f : Formatter) (links : List CallLikeNode)
    (parts : List Document)
    (methods : ∀ link ∈ links, ∃ call, link = .call call ∧ (Expression.call call).isMethodCall) :
    printRemainingChainLinks printCallArguments f links parts =
      some (parts ++ links.map fun link =>
        .indent (Document.hardline :: methodChainLinkParts printCallArguments f link)) := by
  induction links generalizing parts with
  | nil => simp [printRemainingChainLinks]
  | cons link rest ih =>
      obtain ⟨operator, method, found, linkParts⟩ :=
        chainLinkOperatorAndMethod_of_method printCallArguments f (methods link (by simp))
      simp [printRemainingChainLinks, found, linkParts,
        ih _ fun other member => methods other (by simp [member])]

variable [Format Expression]

/-- `print_method_call_chain`; `none` is an `unreachable!()` arm. -/
def printMethodCallChain (methodChain : MethodChain) (f : Formatter) : Option Document := do
  let baseDocument := Format.format f methodChain.base
  let parts :=
    if baseNeedsParerns methodChain.base then [.string "(", baseDocument, .string ")"]
    else [baseDocument]
  let (parts, callsIter) ←
    if !f.settings.methodChainBreakingStyle.isNextLine then
      match methodChain.calls with
      | firstChainLink :: rest => do
          let (operator, method) ← chainLinkOperatorAndMethod f firstChainLink
          pure (parts ++ [operator, method,
            .group [printCallArguments f firstChainLink] false], rest)
      | [] => pure (parts, [])
    else pure (parts, methodChain.calls)
  let parts ← printRemainingChainLinks printCallArguments f callsIter parts
  pure (.group (parts ++ [.breakParent]) false)

/-- A printed chain as the spec describes it: the base, in parentheses when it needs them;
the links in order, the first one right after the base under `SameLine` and every other one
indented on a line of its own; a `BreakParent`; all of it in one group. -/
def methodChainLayout (f : Formatter) (chain : MethodChain) : Document :=
  let base :=
    if baseNeedsParerns chain.base then [.string "(", Format.format f chain.base, .string ")"]
    else [Format.format f chain.base]
  let ownLine link := Document.indent (Document.hardline :: methodChainLinkParts printCallArguments f link)
  let links :=
    match f.settings.methodChainBreakingStyle, chain.calls with
    | .sameLine, first :: rest => methodChainLinkParts printCallArguments f first ++ rest.map ownLine
    | _, calls => calls.map ownLine
  .group (base ++ links ++ [.breakParent]) false

/-- On a chain whose calls are all method calls, `print_method_call_chain` prints the spec's
layout, under both breaking styles. -/
theorem printMethodCallChain_of_methods (chain : MethodChain) (f : Formatter)
    (methods :
      ∀ link ∈ chain.calls, ∃ call, link = .call call ∧ (Expression.call call).isMethodCall) :
    printMethodCallChain printCallArguments chain f =
      some (methodChainLayout printCallArguments f chain) := by
  obtain ⟨base, calls⟩ := chain
  cases style : f.settings.methodChainBreakingStyle <;> cases calls with
  | nil => simp [printMethodCallChain, methodChainLayout, style, printRemainingChainLinks,
      MethodChainBreakingStyle.isNextLine]
  | cons first rest =>
      obtain ⟨operator, method, found, firstParts⟩ :=
        chainLinkOperatorAndMethod_of_method printCallArguments f (methods first (by simp))
      have restOnOwnLines := fun parts => printRemainingChainLinks_of_methods printCallArguments f
        rest parts fun link member => methods link (by simp [member])
      have allOnOwnLines := fun parts => printRemainingChainLinks_of_methods printCallArguments f
        (first :: rest) parts methods
      simp [printMethodCallChain, methodChainLayout, style, found, firstParts, restOnOwnLines,
        allOnOwnLines, MethodChainBreakingStyle.isNextLine]

/-- Every chain `collect_method_call_chain` returns is the expression's spine, innermost link
first on the base that remains when every method call is peeled off, and it is printed in the
spec's layout under both breaking styles: the printer never reaches its `unreachable!()` arms
on it. -/
theorem printMethodCallChain_of_collected (expr : Expression) (chain : MethodChain)
    (f : Formatter) (collected : collectMethodCallChain expr = some chain) :
    (chain.calls ≠ [] ∧
      (∀ link ∈ chain.calls, ∃ call, link = .call call ∧ (Expression.call call).isMethodCall) ∧
      chain.calls.head?.bind CallLikeNode.object? = some chain.base ∧
      (∀ i (h : i + 1 < chain.calls.length),
        chain.calls[i + 1].object? = chain.calls[i].expression?) ∧
      chain.calls.getLast?.bind CallLikeNode.expression? = some expr ∧
      chain.base.isMethodCall = false) ∧
    printMethodCallChain printCallArguments chain f =
      some (methodChainLayout printCallArguments f chain) :=
  ⟨collectMethodCallChain_links collected, printMethodCallChain_of_methods printCallArguments
    chain f (collectMethodCallChain_methods collected)⟩

end Printing

section VariableChain

/-- Expressions printed as `$a`. -/
local instance dollarAExpression : Format Expression := ⟨fun _ _ => .string "$a"⟩

/-- Member selectors printed as `b`. -/
local instance memberSelectorB : Format ClassLikeMemberSelector := ⟨fun _ _ => .string "b"⟩

/-- The call `$a->b()`. -/
def variableMethodCall : Call :=
  .method (.variable ⟨0, 2⟩) ⟨2, 4⟩ (.identifier ⟨4, 5⟩ "b") (.mk ⟨5, 6⟩ [] ⟨6, 7⟩)

/-- A formatter with default settings, no comments and no blank lines. -/
def plainFormatter : Formatter where
  settings := ⟨false, false, .sameLine⟩
  argumentState := ⟨false⟩
  parentNode := .other
  grandparentNode := none
  comments := ⟨fun _ _ => false, fun _ => []⟩
  isNextLineEmpty := fun _ => false

/-- `$a->b()` is collected into the chain of base `$a` and one link, which is then printed in
the spec's layout. -/
theorem printMethodCallChain_variableMethodCall :
    collectMethodCallChain (.call variableMethodCall) =
      some ⟨.variable ⟨0, 2⟩, [.call variableMethodCall]⟩ ∧
    (([.call variableMethodCall] : List CallLikeNode) ≠ [] ∧
      (∀ link ∈ ([.call variableMethodCall] : List CallLikeNode),
        ∃ call, link = .call call ∧ (Expression.call call).isMethodCall) ∧
      ([.call variableMethodCall] : List CallLikeNode).head?.bind CallLikeNode.object? =
        some (.variable ⟨0, 2⟩) ∧
      (∀ i (h : i + 1 < ([.call variableMethodCall] : List CallLikeNode).length),
        ([.call variableMethodCall] : List CallLikeNode)[i + 1].object? =
          ([.call variableMethodCall] : List CallLikeNode)[i].expression?) ∧
      ([.call variableMethodCall] : List CallLikeNode).getLast?.bind CallLikeNode.expression? =
        some (.call variableMethodCall) ∧
      (Expression.variable ⟨0, 2⟩).isMethodCall = false) ∧
    printMethodCallChain (fun _ _ => Document.empty) ⟨.variable ⟨0, 2⟩, [.call variableMethodCall]⟩
        plainFormatter =
      some (methodChainLayout (fun _ _ => Document.empty) plainFormatter
        ⟨.variable ⟨0, 2⟩, [.call variableMethodCall]⟩) :=
  ⟨rfl, printMethodCallChain_of_collected (fun _ _ => Document.empty) (.call variableMethodCall)
    ⟨.variable ⟨0, 2⟩, [.call variableMethodCall]⟩ plainFormatter rfl⟩

end VariableChain

end Mago
