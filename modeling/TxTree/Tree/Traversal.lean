import TxTree.Tree.View

set_option relaxedAutoImplicit false
set_option autoImplicit false

/-!
# Walking a tree

A tree is walked in pre-order: a node comes before all below it, and those below one child before
those below the next. The walk keeps the nodes that are still to be visited on a stack.

## Main definitions

* `TxTree.Node.count` — the number of nodes of a tree.
* `TxTree.Node.walk` — the walk over all trees of a stack.
* `TxTree.Node.descendants` — the nodes of a tree in pre-order.
* `TxTree.Node.nodeAt?` — the innermost node at an offset.
-/

namespace TxTree

mutual

/-- The number of nodes of a tree, its root among them. -/
def Node.count : Node → Nat
  | ⟨_, _, cs⟩ => Element.countOfList cs + 1

/-- The number of nodes of a list of children and below them. -/
def Element.countOfList : List Element → Nat
  | [] => 0
  | .token _ :: cs => Element.countOfList cs
  | .node n :: cs => n.count + Element.countOfList cs

end

/-- The number of nodes of two lists of children together. -/
theorem Element.countOfList_append (cs ds : List Element) :
    countOfList (cs ++ ds) = countOfList cs + countOfList ds := by
  induction cs with
  | nil => simp [countOfList]
  | cons c cs ih => cases c <;> simp only [List.cons_append, countOfList, ih, Nat.add_assoc]

/-- Tokens among the children do not count. -/
theorem Element.countOfList_filterMap (cs : List Element) :
    countOfList ((cs.filterMap node?).map node) = countOfList cs := by
  induction cs with
  | nil => rfl
  | cons c cs ih =>
    cases c with
    | token t =>
      rw [List.filterMap_cons_none (by rfl), ih]
      simp only [countOfList]
    | node n =>
      rw [List.filterMap_cons_some (b := n) (by rfl), List.map_cons]
      simp only [countOfList, ih]

namespace Node

/-- A tree has one node more than the trees below its root together. -/
theorem count_eq (n : Node) : n.count = Element.countOfList (n.childNodes.map .node) + 1 := by
  obtain ⟨k, s, cs⟩ := n
  rw [count, childNodes, children_mk, Element.countOfList_filterMap]

/-- **The walk over a stack of trees**: the first is visited, and its child nodes take its place. -/
def walk : List Node → List Node
  | [] => []
  | n :: stack => n :: walk (n.childNodes ++ stack)
termination_by stack => Element.countOfList (stack.map .node)
decreasing_by
  rw [List.map_append, List.map_cons, Element.countOfList_append, Element.countOfList, count_eq n]
  omega

/-- **The nodes of a tree in pre-order**, the root first. -/
def descendants (n : Node) : List Node := walk [n]

end Node

/-! ## Search by offset -/

mutual

/-- **The innermost node at an offset**: below a node that covers the offset, the answer of the
first child that has one, or else the node itself. -/
def Node.nodeAt? (offset : Nat) : Node → Option Node
  | ⟨k, s, cs⟩ =>
    if s.contains offset then (Element.nodeAtInList? offset cs).or (some ⟨k, s, cs⟩) else none

/-- The innermost node at an offset below the first child that has one. -/
def Element.nodeAtInList? (offset : Nat) : List Element → Option Node
  | [] => none
  | .token _ :: cs => Element.nodeAtInList? offset cs
  | .node n :: cs => (n.nodeAt? offset).or (Element.nodeAtInList? offset cs)

end

end TxTree
