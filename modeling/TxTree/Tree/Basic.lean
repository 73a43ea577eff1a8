import TxTree.Token.Basic
import TxTree.Tree.Kind

set_option relaxedAutoImplicit false
set_option autoImplicit false

/-!
# The concrete syntax tree

A node has a kind, a span and children; a child is a node or a token. Nothing in the type ties
spans to children or children to kinds: that a tree that was built or parsed has the right ones is
a fact about the builder and the grammar.

## Main definitions

* `TxTree.Node`, `TxTree.Element` — nodes, and what may be a child of one.
* `TxTree.Node.ofChildren` — the node of a list of children, its span read off them.
* `TxTree.Node.leaves` — the tokens below a node, in order.
* `TxTree.Node.text` — the text that they spell.
-/

namespace TxTree

mutual

/-- An inner node of the tree. -/
inductive Node where
  | mk (kind : NodeKind) (span : Span) (children : List Element)

/-- A child of a node. -/
inductive Element where
  | token (token : Token)
  | node (node : Node)

end

deriving instance Repr for Node, Element

/-! ## Equality -/

mutual

/-- Equality of nodes is decidable. -/
def Node.decEq : (m n : Node) → Decidable (m = n)
  | ⟨k, s, cs⟩, ⟨l, t, ds⟩ =>
    if h : k = l ∧ s = t then
      match Element.decEqList cs ds with
      | isTrue e => isTrue (by rw [h.1, h.2, e])
      | isFalse e => isFalse fun c => e (Node.mk.inj c).2.2
    else
      isFalse fun c => h ⟨(Node.mk.inj c).1, (Node.mk.inj c).2.1⟩

/-- Equality of lists of children is decidable. -/
def Element.decEqList : (cs ds : List Element) → Decidable (cs = ds)
  | [], [] => isTrue rfl
  | [], _ :: _ => isFalse nofun
  | _ :: _, [] => isFalse nofun
  | .token t :: cs, .token u :: ds =>
    if h : t = u then
      match Element.decEqList cs ds with
      | isTrue e => isTrue (by rw [h, e])
      | isFalse e => isFalse fun c => e (List.cons.inj c).2
    else
      isFalse fun c => h (Element.token.inj (List.cons.inj c).1)
  | .node m :: cs, .node n :: ds =>
    match Node.decEq m n with
    | isTrue h =>
      match Element.decEqList cs ds with
      | isTrue e => isTrue (by rw [h, e])
      | isFalse e => isFalse fun c => e (List.cons.inj c).2
    | isFalse h => isFalse fun c => h (Element.node.inj (List.cons.inj c).1)
  | .token _ :: _, .node _ :: _ => isFalse nofun
  | .node _ :: _, .token _ :: _ => isFalse nofun

end

instance : DecidableEq Node := Node.decEq

instance : DecidableEq Element
  | .token t, .token u => decidable_of_iff (t = u) (by simp)
  | .node m, .node n => decidable_of_iff (m = n) (by simp)
  | .token _, .node _ => isFalse nofun
  | .node _, .token _ => isFalse nofun

/-! ## Elements -/

namespace Element

/-- The bytes that a child covers. -/
def span : Element → Span
  | .token t => t.span
  | .node ⟨_, s, _⟩ => s

/-- The node that a child is, unless it is a token. -/
def node? : Element → Option Node
  | .node n => some n
  | .token _ => none

/-- The token that a child is, unless it is a node. -/
def token? : Element → Option Token
  | .token t => some t
  | .node _ => none

/-- Whether a child is white space or a comment. -/
def isTrivia : Element → Bool
  | .token t => t.isTrivia
  | .node _ => false

end Element

/-! ## Nodes -/

namespace Node

/-- The construct that a node stands for. -/
def kind : Node → NodeKind
  | ⟨k, _, _⟩ => k

/-- The bytes that a node covers. -/
def span : Node → Span
  | ⟨_, s, _⟩ => s

/-- The children of a node, from left to right. -/
def children : Node → List Element
  | ⟨_, _, cs⟩ => cs

@[simp] theorem kind_mk (k : NodeKind) (s : Span) (cs : List Element) : (mk k s cs).kind = k := rfl

@[simp] theorem span_mk (k : NodeKind) (s : Span) (cs : List Element) : (mk k s cs).span = s := rfl

@[simp] theorem children_mk (k : NodeKind) (s : Span) (cs : List Element) :
    (mk k s cs).children = cs := rfl

/-- The span from the first child to the last; without children, the empty span at `offset`. -/
def spanOf (children : List Element) (offset : Nat) : Span :=
  match children.head?, children.getLast? with
  | some first, some last => ⟨first.span.start, last.span.stop⟩
  | _, _ => Span.emptyAt offset

/-- **The node of given children**, with the span that they cover. -/
def ofChildren (kind : NodeKind) (children : List Element) (offset : Nat) : Node :=
  ⟨kind, spanOf children offset, children⟩

/-- The root of a text without tokens. -/
instance : Inhabited Node := ⟨ofChildren .file [] 0⟩

end Node

/-! ## Leaves -/

mutual

/-- The tokens below a node, from left to right. -/
def Node.leaves : Node → List Token
  | ⟨_, _, cs⟩ => Element.leavesOfList cs

/-- The tokens of a list of children and below them, from left to right. -/
def Element.leavesOfList : List Element → List Token
  | [] => []
  | .token t :: cs => t :: Element.leavesOfList cs
  | .node n :: cs => n.leaves ++ Element.leavesOfList cs

end

/-- The text that the tokens below a node spell. -/
def Node.text (n : Node) : String := String.join (n.leaves.map (·.text))

@[simp] theorem Element.leavesOfList_append (cs ds : List Element) :
    leavesOfList (cs ++ ds) = leavesOfList cs ++ leavesOfList ds := by
  induction cs with
  | nil => simp [leavesOfList]
  | cons c cs ih => cases c <;> simp [leavesOfList, ih]

end TxTree
