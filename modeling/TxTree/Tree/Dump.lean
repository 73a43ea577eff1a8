import TxTree.Text.Escape
import TxTree.Tree.Basic

set_option relaxedAutoImplicit false
set_option autoImplicit false

/-!
# Trees as indented text

A dump shows one element to a line, two spaces deeper than its parent: a node with its kind and
span, a token with its kind, its escaped text and its span. White space is left out; comments are
shown.

## Main definitions

* `TxTree.Node.dumpLines` — the lines of a dump.
* `TxTree.Node.dump` — the dump, each line ended.
-/

namespace TxTree

/-- The spaces before an element at a depth. -/
def indentation (depth : Nat) : String := String.ofList (List.replicate (2 * depth) ' ')

/-- A span in parentheses. -/
def parenthesized (s : Span) : String :=
  "(" ++ toString s.start ++ "," ++ toString s.stop ++ ")"

/-- The line of a token. -/
def Token.dumpLine (t : Token) : String :=
  t.kind.name ++ "('" ++ Text.escape t.text ++ "')" ++ parenthesized t.span

mutual

/-- The lines of a node at a depth. -/
def Node.dumpLinesAt (depth : Nat) : Node → List String
  | ⟨k, s, cs⟩ =>
    (indentation depth ++ k.name ++ parenthesized s) :: Element.dumpLinesOfList (depth + 1) cs

/-- The lines of a list of children at a depth. -/
def Element.dumpLinesOfList (depth : Nat) : List Element → List String
  | [] => []
  | .token t :: cs =>
    if t.kind == .whitespace then Element.dumpLinesOfList depth cs
    else (indentation depth ++ t.dumpLine) :: Element.dumpLinesOfList depth cs
  | .node n :: cs => Node.dumpLinesAt depth n ++ Element.dumpLinesOfList depth cs

end

/-- The lines of a tree. -/
def Node.dumpLines (n : Node) : List String := n.dumpLinesAt 0

/-- **A tree as indented text.** -/
def Node.dump (n : Node) : String := String.join (n.dumpLines.map (· ++ "\n"))

end TxTree
