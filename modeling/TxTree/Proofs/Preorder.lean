import Mathlib.Data.List.Basic
import TxTree.Tree.Traversal

set_option relaxedAutoImplicit false
set_option autoImplicit false

/-!
# The order of a walk

A walk keeps the trees that are still to be visited on a stack, and so it can stop at any node and
go on later. That it visits the nodes of a tree in pre-order is seen from what is on the stack: the
walk over a stack is one pre-order after the other, in the order of the stack. The child nodes of
the node that was visited stand in front of all others, so that the first of them comes next.

A stack that is taken from at its end does the same if the child nodes are put there from the last
to the first.

Which nodes a tree has is told by their addresses. An address says to which child node to go, again
and again, from the root on. Two nodes may be equal, but no two have the same address; and in
pre-order the addresses grow, since an address is less than all that begin with it.

## Main definitions

* `TxTree.Node.preorder` — the nodes of a tree in pre-order, by recursion.
* `TxTree.Node.visit?` — one step of a walk with a stack that is taken from at its end.
* `TxTree.Node.Yields` — what such a walk yields until its stack is empty.
* `TxTree.Node.follow?` — the node at an address.
* `TxTree.Node.located` — the nodes of a tree with their addresses.

## Main results

* `TxTree.Node.walk_eq_flatMap` — a walk over a stack is one pre-order after the other.
* `TxTree.Node.yields_walk` — the stack may be taken from at its end.
* `TxTree.Node.mem_located_iff`, `TxTree.Node.pairwise_located` — each node has one address.
* `TxTree.Node.descendants_preorder` — a walk visits each node once, in pre-order, and ends.
-/

namespace TxTree

/-! ## Pre-order -/

mutual

/-- **The nodes of a tree in pre-order**: the root, and then those of the trees below it. -/
def Node.preorder : Node → List Node
  | ⟨k, s, cs⟩ => ⟨k, s, cs⟩ :: Element.preorderOfList cs

/-- The nodes of a list of children and below them, from left to right. -/
def Element.preorderOfList : List Element → List Node
  | [] => []
  | .token _ :: cs => Element.preorderOfList cs
  | .node n :: cs => n.preorder ++ Element.preorderOfList cs

end

/-- Tokens among the children are not visited. -/
lemma Element.preorderOfList_eq (cs : List Element) :
    preorderOfList cs = (cs.filterMap node?).flatMap Node.preorder := by
  induction cs with
  | nil => rfl
  | cons c cs ih =>
    cases c with
    | token t => rw [preorderOfList, ih, List.filterMap_cons_none (by rfl)]
    | node n =>
      rw [preorderOfList, ih, List.filterMap_cons_some (b := n) (by rfl), List.flatMap_cons]

namespace Node

/-- In pre-order the root comes first, and then come the pre-orders of its child nodes. -/
lemma preorder_eq (n : Node) : n.preorder = n :: n.childNodes.flatMap preorder := by
  obtain ⟨k, s, cs⟩ := n
  rw [preorder, Element.preorderOfList_eq]
  rfl

/-- **A walk over a stack is one pre-order after the other.**

**Proof sketch.** Induction on the walk. What the child nodes of the first tree stand for on the
stack is what this tree has below its root. -/
theorem walk_eq_flatMap (stack : List Node) : walk stack = stack.flatMap preorder := by
  induction stack using walk.induct with
  | case1 => rw [walk, List.flatMap_nil]
  | case2 n stack ih =>
    rw [walk, ih, List.flatMap_append, List.flatMap_cons, preorder_eq n, List.cons_append]

/-! ## A stack that is taken from at its end -/

/-- **One step of a walk** with a stack that is taken from at its end: the last tree is visited,
and its child nodes are put there from the last to the first. -/
def visit? (stack : List Node) : Option (Node × List Node) :=
  stack.getLast?.map fun n => (n, stack.dropLast ++ n.children.reverse.filterMap Element.node?)

/-- **What a walk yields** from a stack on: what each step visits, until none is left. -/
inductive Yields : List Node → List Node → Prop where
  | stop {stack : List Node} : visit? stack = none → Yields stack []
  | step {stack stack' ns : List Node} {n : Node} :
    visit? stack = some (n, stack') → Yields stack' ns → Yields stack (n :: ns)

/-- What comes next is the last tree, and behind it its child nodes come before all others. -/
lemma visit?_reverse_cons (n : Node) (stack : List Node) :
    visit? (n :: stack).reverse = some (n, (n.childNodes ++ stack).reverse) := by
  rw [visit?, List.reverse_cons, List.getLast?_concat, List.dropLast_concat, Option.map_some,
    List.filterMap_reverse, List.reverse_append]
  rfl

/-- **The walk is the one with the stack the other way round.** -/
theorem yields_walk (stack : List Node) : Yields stack.reverse (walk stack) := by
  induction stack using walk.induct with
  | case1 =>
    rw [walk]
    exact .stop rfl
  | case2 n stack ih =>
    rw [walk]
    exact .step (visit?_reverse_cons n stack) ih

/-- There is only one way to walk. -/
lemma Yields.unique {stack ns ms : List Node} (h : Yields stack ns) (h' : Yields stack ms) :
    ns = ms := by
  induction h generalizing ms with
  | stop hnone =>
    cases h' with
    | stop => rfl
    | step hsome => rw [hnone] at hsome; cases hsome
  | step hsome _ ih =>
    cases h' with
    | stop hnone => rw [hsome] at hnone; cases hnone
    | step hsome' hrest =>
      rw [hsome] at hsome'
      cases hsome'
      rw [ih hrest]

/-! ## Addresses -/

/-- **The node at an address**: each number says to which child node to go from the one before. -/
def follow? : Node → List Nat → Option Node
  | n, [] => some n
  | n, i :: address => n.childNodes[i]?.bind (·.follow? address)

end Node

mutual

/-- **The nodes of a tree with their addresses**, in pre-order. -/
def Node.located : Node → List (List Nat × Node)
  | ⟨k, s, cs⟩ => ([], ⟨k, s, cs⟩) :: Element.locatedFrom 0 cs

/-- The nodes of a list of children and below them with their addresses, where the first child node
has the number `i`. -/
def Element.locatedFrom (i : Nat) : List Element → List (List Nat × Node)
  | [] => []
  | .token _ :: cs => Element.locatedFrom i cs
  | .node n :: cs =>
    n.located.map (fun e => (i :: e.1, e.2)) ++ Element.locatedFrom (i + 1) cs

end

mutual

/-- The nodes with their addresses are the nodes in pre-order. -/
lemma Node.map_snd_located : ∀ n : Node, n.located.map Prod.snd = n.preorder
  | ⟨k, s, cs⟩ => by
    rw [Node.located, Node.preorder, List.map_cons, Element.map_snd_locatedFrom 0 cs]

lemma Element.map_snd_locatedFrom (i : Nat) : ∀ cs : List Element,
    (Element.locatedFrom i cs).map Prod.snd = Element.preorderOfList cs
  | [] => rfl
  | .token _ :: cs => by
    rw [Element.locatedFrom, Element.preorderOfList, Element.map_snd_locatedFrom i cs]
  | .node n :: cs => by
    rw [Element.locatedFrom, Element.preorderOfList, List.map_append, List.map_map,
      Element.map_snd_locatedFrom (i + 1) cs, ← n.map_snd_located]
    rfl

end

/-- An address below a list of children begins with the number of a child node, from which on it is
an address there. -/
lemma Element.mem_locatedFrom_iff {i : Nat} {cs : List Element} {address : List Nat} {m : Node} :
    (address, m) ∈ locatedFrom i cs ↔ ∃ (j : Nat) (rest : List Nat) (n : Node),
      address = (i + j) :: rest ∧ (cs.filterMap node?)[j]? = some n ∧ (rest, m) ∈ n.located := by
  induction cs generalizing i with
  | nil => simp [locatedFrom]
  | cons c cs ih =>
    cases c with
    | token t =>
      rw [locatedFrom, ih, List.filterMap_cons_none (by rfl)]
    | node n =>
      rw [locatedFrom, List.mem_append, List.mem_map, ih,
        List.filterMap_cons_some (b := n) (by rfl)]
      constructor
      · rintro (⟨⟨rest, m'⟩, hmem, heq⟩ | ⟨j, rest, n', rfl, hn', hmem⟩)
        · cases heq
          exact ⟨0, rest, n, rfl, rfl, hmem⟩
        · exact ⟨j + 1, rest, n', by rw [Nat.add_assoc, Nat.add_comm 1], hn', hmem⟩
      · rintro ⟨_ | j, rest, n', rfl, hn', hmem⟩
        · cases hn'
          exact .inl ⟨(rest, m), hmem, rfl⟩
        · exact .inr ⟨j, rest, n', by rw [Nat.add_assoc, Nat.add_comm 1], hn', hmem⟩

namespace Node

/-- **A node with its address is one that is found there.**

**Proof sketch.** Induction on the address. -/
theorem mem_located_iff {n m : Node} {address : List Nat} :
    (address, m) ∈ n.located ↔ n.follow? address = some m := by
  induction address generalizing n with
  | nil =>
    obtain ⟨k, s, cs⟩ := n
    have hbelow : ([], m) ∉ Element.locatedFrom 0 cs := by
      intro hmem
      obtain ⟨j, rest, n', heq, -⟩ := Element.mem_locatedFrom_iff.1 hmem
      cases heq
    rw [located, List.mem_cons, or_iff_left hbelow, Prod.mk.injEq, follow?, Option.some_inj,
      eq_comm (a := m)]
    exact and_iff_right rfl
  | cons i address ih =>
    obtain ⟨k, s, cs⟩ := n
    rw [located, List.mem_cons, or_iff_right (by simp), Element.mem_locatedFrom_iff, follow?,
      Option.bind_eq_some_iff]
    constructor
    · rintro ⟨j, rest, n', heq, hn', hmem⟩
      rw [Nat.zero_add] at heq
      cases heq
      exact ⟨n', hn', ih.1 hmem⟩
    · rintro ⟨n', hn', hfollow⟩
      exact ⟨i, address, n', by rw [Nat.zero_add], hn', ih.2 hfollow⟩

end Node

mutual

/-- **The addresses grow** from each node to all later ones. -/
lemma Node.pairwise_located : ∀ n : Node, (n.located.map Prod.fst).Pairwise (· < ·)
  | ⟨k, s, cs⟩ => by
    rw [Node.located, List.map_cons, List.pairwise_cons]
    refine ⟨fun address hmem => ?_, Element.pairwise_locatedFrom 0 cs⟩
    obtain ⟨⟨_, m⟩, hm, rfl⟩ := List.mem_map.1 hmem
    obtain ⟨j, rest, n, rfl, -⟩ := Element.mem_locatedFrom_iff.1 hm
    exact List.nil_lt_cons _ _

lemma Element.pairwise_locatedFrom (i : Nat) : ∀ cs : List Element,
    ((Element.locatedFrom i cs).map Prod.fst).Pairwise (· < ·)
  | [] => .nil
  | .token _ :: cs => by
    rw [Element.locatedFrom]
    exact Element.pairwise_locatedFrom i cs
  | .node n :: cs => by
    rw [Element.locatedFrom, List.map_append, List.map_map, List.pairwise_append]
    refine ⟨?below, Element.pairwise_locatedFrom (i + 1) cs, ?later⟩
    case below =>
      have hbelow := n.pairwise_located
      rw [List.pairwise_map] at hbelow ⊢
      exact hbelow.imp fun hlt => List.cons_lt_cons_iff.2 (.inr ⟨rfl, hlt⟩)
    case later =>
      -- A later child node has a greater number.
      intro address hmem address' hmem'
      obtain ⟨e, -, rfl⟩ := List.mem_map.1 hmem
      obtain ⟨⟨_, m⟩, hm, rfl⟩ := List.mem_map.1 hmem'
      obtain ⟨j, rest, n', rfl, -⟩ := Element.mem_locatedFrom_iff.1 hm
      exact List.cons_lt_cons_iff.2 (.inl (by omega))

end

/-- **A walk visits each node of a tree once, in pre-order, and ends**: the nodes of the walk are
those of the pre-order; they are what the steps yield, and all that they yield, from a stack that
the root is alone on until it is empty; and they have addresses that grow from each one to the next,
at which these nodes and no others are found in the tree. -/
theorem Node.descendants_preorder (n : Node) :
    n.descendants = n.preorder ∧
    (∀ ns : List Node, Yields [n] ns ↔ ns = n.preorder) ∧
    ∃ located : List (List Nat × Node), located.map Prod.snd = n.descendants ∧
      (located.map Prod.fst).Pairwise (· < ·) ∧
      ∀ (address : List Nat) (m : Node),
        (address, m) ∈ located ↔ n.follow? address = some m := by
  have hwalk : n.descendants = n.preorder := by
    rw [descendants, walk_eq_flatMap, List.flatMap_singleton]
  have hyields : Yields [n] n.preorder := by
    rw [← hwalk]
    exact yields_walk [n]
  refine ⟨hwalk, fun ns => ⟨fun h => h.unique hyields, fun h => h ▸ hyields⟩, n.located, ?_,
    n.pairwise_located, fun _ _ => mem_located_iff⟩
  rw [hwalk, n.map_snd_located]

end TxTree
