import Mago.Format.Call
import Mago.Printing

/-!
# The method-chain breaking styles

`print_method_call_chain` reads one setting, `method_chain_breaking_style`. Under `SameLine` the
first link follows the base on its line; under `NextLine` it goes on an indented line of its own
like every other link. The chain's group holds a `BreakParent`, so it always prints broken, and
the extra line of `NextLine` is a hard line: the style moves the first link and changes no text.
Printed with the same documents for the base and the links, the two styles can print exactly the
same texts. Every printing of a chain starts each link that goes on a line of its own with a line
break one level deeper, followed by its operator.
-/

namespace Mago

section Styles

variable [Format ClassLikeMemberSelector] [Format Expression]
  (printCallArguments : Formatter → CallLikeNode → Document)

/-- For every chain `collect_method_call_chain` finds, `print_method_call_chain` under `SameLine`
and under `NextLine`, given the same documents for the base and the links, returns documents that
can print exactly the same texts, in a broken enclosing group only. -/
theorem printMethodCallChain_styles_same_texts (expr : Expression) (chain : MethodChain)
    (collected : collectMethodCallChain expr = some chain) {f g : Formatter}
    (sameLine : f.settings.methodChainBreakingStyle = .sameLine)
    (nextLine : g.settings.methodChainBreakingStyle = .nextLine)
    (sameBase : Format.format g chain.base = Format.format f chain.base)
    (sameLinks : ∀ link ∈ chain.calls,
      methodChainLinkParts printCallArguments g link =
        methodChainLinkParts printCallArguments f link) :
    ∃ sameLineDocument nextLineDocument,
      printMethodCallChain printCallArguments chain f = some sameLineDocument ∧
      printMethodCallChain printCallArguments chain g = some nextLineDocument ∧
      ∀ broken printed, PrintsTexts broken [sameLineDocument] printed ↔
        PrintsTexts broken [nextLineDocument] printed := by
  have methods := collectMethodCallChain_methods collected
  refine ⟨_, _, printMethodCallChain_of_methods printCallArguments chain f methods,
    printMethodCallChain_of_methods printCallArguments chain g methods, fun broken printed => ?_⟩
  obtain ⟨base, _ | ⟨first, rest⟩⟩ := chain
  · exact absurd rfl (collectMethodCallChain_spine collected).1
  simp only [List.mem_cons, forall_eq_or_imp] at sameLinks
  have restOnOwnLines := List.map_congr_left fun link member =>
    congrArg (fun parts => Document.indent (Document.hardline :: parts)) (sameLinks.2 link member)
  simp only at sameBase
  simp only [methodChainLayout, sameLine, nextLine, sameBase, sameLinks.1, List.map_cons,
    restOnOwnLines]
  rw [printsTexts_group_of_breakParent_mem (by simp), printsTexts_group_of_breakParent_mem (by simp)]
  simp only [List.append_assoc, List.cons_append]
  rw [printsTexts_indent_hardline_between]

end Styles

/-- The operator a chain link prints: `?->` for a null-safe method call, `->` otherwise. -/
def CallLikeNode.operatorText : CallLikeNode → String
  | .call (.nullSafeMethod _ _ _ _) => "?->"
  | _ => "->"

/-- The links of a printed chain that go on lines of their own: under `SameLine` all but the
first, under `NextLine` all of them. -/
def ownLineLinks (f : Formatter) (chain : MethodChain) : List CallLikeNode :=
  match f.settings.methodChainBreakingStyle, chain.calls with
  | .sameLine, _ :: rest => rest
  | _, calls => calls

/-- The links on lines of their own are links of the chain. -/
theorem mem_calls_of_mem_ownLineLinks {f : Formatter} {chain : MethodChain}
    {link : CallLikeNode} (member : link ∈ ownLineLinks f chain) : link ∈ chain.calls := by
  unfold ownLineLinks at member
  split at member <;> simp_all

section Lines

variable [Format ClassLikeMemberSelector] (printCallArguments : Formatter → CallLikeNode → Document)

/-- A method-call link prints its operator first. -/
theorem methodChainLinkParts_eq_operatorText (f : Formatter) {link : CallLikeNode}
    (isMethod : ∃ call, link = .call call ∧ (Expression.call call).isMethodCall) :
    methodChainLinkParts printCallArguments f link =
      .string link.operatorText :: (methodChainLinkParts printCallArguments f link).tail := by
  obtain ⟨call, rfl, isMethod⟩ := isMethod
  cases call <;> simp_all [Expression.isMethodCall, methodChainLinkParts, CallLikeNode.operatorText]

/-- Inside a broken group, links each indented after a hard line print, each, a line break one
level deeper, the link's operator, and the rest of the link one level deeper. -/
theorem printsAll_ownLines (f : Formatter) {links : List CallLikeNode} {output : List Output}
    (methods : ∀ link ∈ links, ∃ call, link = .call call ∧ (Expression.call call).isMethodCall)
    (prints : PrintsAll true (links.map fun link =>
      .indent (Document.hardline :: methodChainLinkParts printCallArguments f link)) output) :
    ∃ rests, List.Forall₂ (fun link rest => ∃ inner,
        PrintsAll true (methodChainLinkParts printCallArguments f link).tail inner ∧
          rest = inner.map Output.indented) links rests ∧
      output = (links.zip rests).flatMap fun (link, rest) =>
        .newline 1 :: .text link.operatorText :: rest := by
  induction links generalizing output with
  | nil => exact ⟨[], .nil, by simpa using prints⟩
  | cons link links ih =>
      obtain ⟨_, _, printsLink, printsLinks, rfl⟩ := printsAll_cons_iff.mp prints
      obtain ⟨rests, related, rfl⟩ :=
        ih (fun other member => methods other (List.mem_cons_of_mem _ member)) printsLinks
      obtain ⟨_, printsLine, rfl⟩ := prints_indent_iff.mp printsLink
      obtain ⟨_, _, lineBreak, printsParts, rfl⟩ := printsAll_cons_iff.mp printsLine
      rw [methodChainLinkParts_eq_operatorText printCallArguments f
        (methods link (List.mem_cons_self _ _))] at printsParts
      obtain ⟨_, inner, printsOperator, printsRest, rfl⟩ := printsAll_cons_iff.mp printsParts
      rw [prints_line_broken_iff.mp lineBreak, prints_string_iff.mp printsOperator]
      exact ⟨inner.map Output.indented :: rests, .cons ⟨inner, printsRest, rfl⟩ related,
        by simp [Output.indented]⟩

variable [Format Expression]

/-- What a printed chain puts before the links on lines of their own: the base, in parentheses
when it needs them, and under `SameLine` the first link. -/
def chainHead (f : Formatter) (chain : MethodChain) : List Document :=
  (if baseNeedsParerns chain.base then [.string "(", Format.format f chain.base, .string ")"]
    else [Format.format f chain.base]) ++
  match f.settings.methodChainBreakingStyle, chain.calls with
  | .sameLine, first :: _ => methodChainLinkParts printCallArguments f first
  | _, _ => []

/-- A printed chain is its head, then its own-line links, each indented after a hard line. -/
theorem methodChainLayout_eq_chainHead (f : Formatter) (chain : MethodChain) :
    methodChainLayout printCallArguments f chain =
      .group (chainHead printCallArguments f chain ++ (ownLineLinks f chain).map (fun link =>
        .indent (Document.hardline :: methodChainLinkParts printCallArguments f link)) ++
        [.breakParent]) false := by
  obtain ⟨base, calls⟩ := chain
  cases style : f.settings.methodChainBreakingStyle <;> cases calls <;>
    simp [methodChainLayout, chainHead, ownLineLinks, style]

/-- For every chain `collect_method_call_chain` finds, every printing of the document
`print_method_call_chain` returns is broken: the head, then for each link that goes on a line of
its own (all but the first under `SameLine`, all under `NextLine`) a line break one level
deeper, the link's operator, and the rest of the link one level deeper. -/
theorem printMethodCallChain_links_on_own_lines (expr : Expression) (chain : MethodChain)
    (f : Formatter) (collected : collectMethodCallChain expr = some chain) :
    ∃ document, printMethodCallChain printCallArguments chain f = some document ∧
      ∀ broken output, Prints broken document output → broken = true ∧
        ∃ head rests, PrintsAll true (chainHead printCallArguments f chain) head ∧
          List.Forall₂ (fun link rest => ∃ inner,
            PrintsAll true (methodChainLinkParts printCallArguments f link).tail inner ∧
              rest = inner.map Output.indented) (ownLineLinks f chain) rests ∧
          output = head ++ ((ownLineLinks f chain).zip rests).flatMap fun (link, rest) =>
            .newline 1 :: .text link.operatorText :: rest := by
  have methods := collectMethodCallChain_methods collected
  have ownMethods : ∀ link ∈ ownLineLinks f chain,
      ∃ call, link = .call call ∧ (Expression.call call).isMethodCall :=
    fun link member => methods link (mem_calls_of_mem_ownLineLinks member)
  refine ⟨_, printMethodCallChain_of_methods printCallArguments chain f methods,
    fun broken output printed => ?_⟩
  rw [methodChainLayout_eq_chainHead, prints_group_of_breakParent_mem (by simp)] at printed
  obtain ⟨rfl, printed⟩ := printed
  obtain ⟨_, _, printsBody, printsBreak, rfl⟩ := printsAll_append_iff.mp printed
  obtain ⟨head, _, printsHead, printsLinks, rfl⟩ := printsAll_append_iff.mp printsBody
  obtain ⟨rests, related, rfl⟩ := printsAll_ownLines printCallArguments f ownMethods printsLinks
  obtain ⟨_, _, printsParent, (_ | _), rfl⟩ := printsAll_cons_iff.mp printsBreak
  cases printsParent
  exact ⟨rfl, head, rests, printsHead, related, by simp⟩

end Lines

section VariableChainStyles

/-- Expressions printed as `$a`. -/
local instance dollarAFormat : Format Expression := ⟨fun _ _ => .string "$a"⟩

/-- Member selectors printed as `b`. -/
local instance memberSelectorFormat : Format ClassLikeMemberSelector := ⟨fun _ _ => .string "b"⟩

/-- The formatter of `plainFormatter` with the `NextLine` style. -/
def nextLineFormatter : Formatter := { plainFormatter with settings := ⟨false, false, .nextLine⟩ }

/-- `$a->b()` prints the same texts under both styles. -/
theorem printMethodCallChain_styles_same_texts_variableMethodCall :
    collectMethodCallChain (.call variableMethodCall) =
        some ⟨.variable ⟨0, 2⟩, [.call variableMethodCall]⟩ ∧
      plainFormatter.settings.methodChainBreakingStyle = .sameLine ∧
      nextLineFormatter.settings.methodChainBreakingStyle = .nextLine ∧
      ∃ sameLineDocument nextLineDocument,
        printMethodCallChain (fun _ _ => Document.empty)
            ⟨.variable ⟨0, 2⟩, [.call variableMethodCall]⟩ plainFormatter = some sameLineDocument ∧
        printMethodCallChain (fun _ _ => Document.empty)
            ⟨.variable ⟨0, 2⟩, [.call variableMethodCall]⟩ nextLineFormatter =
          some nextLineDocument ∧
        ∀ broken printed, PrintsTexts broken [sameLineDocument] printed ↔
          PrintsTexts broken [nextLineDocument] printed :=
  ⟨rfl, rfl, rfl, printMethodCallChain_styles_same_texts (fun _ _ => Document.empty)
    (.call variableMethodCall) _ rfl rfl rfl rfl fun _ _ => rfl⟩

/-- The chain of `$a->b()`: the base `$a` and one link. -/
def variableMethodChain : MethodChain := ⟨.variable ⟨0, 2⟩, [.call variableMethodCall]⟩

/-- Under `NextLine`, `$a->b()` prints its only link on a line of its own. -/
theorem printMethodCallChain_links_on_own_lines_variableMethodCall :
    collectMethodCallChain (.call variableMethodCall) = some variableMethodChain ∧
      ∃ document, printMethodCallChain (fun _ _ => Document.empty) variableMethodChain
          nextLineFormatter = some document ∧
        ∀ broken output, Prints broken document output → broken = true ∧
          ∃ head rests,
            PrintsAll true (chainHead (fun _ _ => Document.empty) nextLineFormatter
              variableMethodChain) head ∧
            List.Forall₂ (fun link rest => ∃ inner, PrintsAll true
                (methodChainLinkParts (fun _ _ => Document.empty) nextLineFormatter link).tail
                inner ∧ rest = inner.map Output.indented)
              (ownLineLinks nextLineFormatter variableMethodChain) rests ∧
            output = head ++ ((ownLineLinks nextLineFormatter variableMethodChain).zip
              rests).flatMap fun (link, rest) => .newline 1 :: .text link.operatorText :: rest :=
  ⟨rfl, printMethodCallChain_links_on_own_lines (fun _ _ => Document.empty)
    (.call variableMethodCall) variableMethodChain nextLineFormatter rfl⟩

end VariableChainStyles

end Mago
