import TxTree.Proofs.Lossless
import TxTree.Tree.View

set_option relaxedAutoImplicit false
set_option autoImplicit false

/-!
# The shape of a tree

The shape of a tree is what is left of it when white space, comments and all places are forgotten:
its nodes with their kinds, and its leaves with their kinds and texts. The grammar sees no more of
a stream than that, and what a move does to the shape of what is gathered is said without a word
about white space.

## Main definitions

* `TxTree.Lexeme` — a token without its place.
* `TxTree.Shape`, `TxTree.Node.shape`, `TxTree.Element.shapes` — trees without white space, comments
  and places.
* `TxTree.Grammar.Gathering.lexemes`, `TxTree.Grammar.Gathering.shapes` — what is to come and what
  is gathered.

## Main results

* `TxTree.Grammar.Gathering.lexemes_bump`, `TxTree.Grammar.Gathering.shapes_bump`,
  `TxTree.Grammar.Gathering.shapes_enclose`, `TxTree.Grammar.Gathering.shapes_behind` — what the
  moves do.
-/

namespace TxTree

/-! ## Trees without places -/

/-- A token without its place. -/
structure Lexeme where
  /-- The kind of the token. -/
  kind : TokenKind
  /-- The characters of the token. -/
  text : String
deriving DecidableEq, Repr, Inhabited

/-- What a token is, wherever it is. -/
def Token.lexeme (t : Token) : Lexeme := ⟨t.kind, t.text⟩

/-- The lexemes of a stream, without white space and comments. -/
def lexemes (tokens : List Token) : List Lexeme := (Grammar.pending tokens).map Token.lexeme

/-- The lexeme of a kind that has one text only. -/
def TokenKind.lexeme (k : TokenKind) : Lexeme := ⟨k, k.name⟩

@[simp] lemma TokenKind.kind_lexeme (k : TokenKind) : k.lexeme.kind = k := rfl

/-- An identifier or a soft keyword. -/
abbrev Name := { l : Lexeme // l.kind.isName = true }

/-- A lexeme of a kind, if there is one. -/
def lexemeIf (kind : TokenKind) (present : Bool) : List Lexeme :=
  if present then [kind.lexeme] else []

/-- A comma, if there is one. -/
abbrev commaIf (comma : Bool) : List Lexeme := lexemeIf .comma comma

/-- **A tree without white space, comments and places.** -/
inductive Shape where
  /-- A token. -/
  | leaf (lexeme : Lexeme)
  /-- A node. -/
  | node (kind : NodeKind) (children : List Shape)

/-- Lexemes as leaves. -/
def leaves (ls : List Lexeme) : List Shape := ls.map .leaf

mutual

/-- **The shape of a node**: white space and comments are left out, and all places are forgotten. -/
def Node.shape : Node → Shape
  | ⟨k, _, cs⟩ => .node k (Element.shapes cs)

/-- The shapes of a list of children. -/
def Element.shapes : List Element → List Shape
  | [] => []
  | .token t :: cs =>
    if t.isTrivia then Element.shapes cs else .leaf t.lexeme :: Element.shapes cs
  | .node n :: cs => n.shape :: Element.shapes cs

end

namespace Element

@[simp] lemma shapes_append (cs ds : List Element) :
    shapes (cs ++ ds) = shapes cs ++ shapes ds := by
  induction cs with
  | nil => simp [shapes]
  | cons c cs ih =>
    cases c with
    | token t =>
      rw [List.cons_append, shapes, shapes]
      split
      · exact ih
      · rw [ih, List.cons_append]
    | node n => rw [List.cons_append, shapes, shapes, ih, List.cons_append]

/-- Of tokens only the pending ones have a shape. -/
@[simp] lemma shapes_map_token (tokens : List Token) :
    shapes (tokens.map .token) = (lexemes tokens).map .leaf := by
  induction tokens with
  | nil => simp [shapes, lexemes]
  | cons t tokens ih =>
    rw [List.map_cons, shapes, ih]
    split
    · next ht => simp [lexemes, Grammar.pending, ht]
    · next ht => simp [lexemes, Grammar.pending, ht]

/-- The shape of a node of given children. -/
@[simp] lemma shapes_ofChildren (kind : NodeKind) (children : List Element) (offset : Nat) :
    shapes [.node (Node.ofChildren kind children offset)] = [.node kind (shapes children)] := by
  simp [shapes, Node.ofChildren, Node.shape]

end Element

/-! ### What a tool reads -/

/-- Whether a shape is a node. -/
def Shape.isNode : Shape → Bool
  | leaf _ => false
  | node _ _ => true

/-- The lexeme of a shape that is a token. -/
def Shape.lexeme? : Shape → Option Lexeme
  | leaf l => some l
  | node _ _ => none

namespace Node

/-- The shape of a node is made of its kind and the shapes of its children. -/
lemma shape_eq (n : Node) : n.shape = .node n.kind (Element.shapes n.children) := by
  obtain ⟨k, span, cs⟩ := n
  rw [shape]
  rfl

/-- The shapes of the child nodes. -/
lemma map_shape_childNodes (n : Node) :
    n.childNodes.map shape = (Element.shapes n.children).filter Shape.isNode := by
  obtain ⟨k, span, cs⟩ := n
  change (cs.filterMap Element.node?).map shape = (Element.shapes cs).filter Shape.isNode
  induction cs with
  | nil => simp [Element.shapes]
  | cons c cs ih =>
    cases c with
    | token t =>
      rw [Element.shapes]
      split <;> exact ih
    | node m =>
      obtain ⟨k, span, ds⟩ := m
      exact congrArg (shape _ :: ·) ih

/-- The lexemes of the child tokens, without white space and comments. -/
lemma map_lexeme_significantTokens (n : Node) :
    n.significantTokens.map Token.lexeme = (Element.shapes n.children).filterMap Shape.lexeme? := by
  obtain ⟨k, span, cs⟩ := n
  change ((cs.filterMap Element.token?).filter (!·.isTrivia)).map Token.lexeme =
    (Element.shapes cs).filterMap Shape.lexeme?
  induction cs with
  | nil => simp [Element.shapes]
  | cons c cs ih =>
    cases c with
    | token t =>
      rw [Element.shapes]
      cases ht : t.isTrivia with
      | true => simpa [Element.token?, ht] using ih
      | false => simpa [Element.token?, ht, Shape.lexeme?] using ih
    | node m =>
      obtain ⟨k, span, ds⟩ := m
      exact ih

end Node

namespace Grammar

/-! ## Lexemes to come -/

/-- What comes next in a list of lexemes. -/
def lookaheadOf (ls : List Lexeme) : Lookahead := ⟨ls.head?.map (·.kind), ls[1]?.map (·.kind)⟩

/-- In white space and comments there are no lexemes. -/
lemma lexemes_eq_nil {tokens : List Token} (h : ∀ t ∈ tokens, t.isTrivia) :
    lexemes tokens = [] := by
  rw [lexemes, pending_eq_nil_iff.2 h, List.map_nil]

/-- The lexemes of a stream from its first significant token. -/
lemma lexemes_of_significant {tokens rest : List Token} {t : Token}
    (h : significant tokens = t :: rest) : lexemes tokens = t.lexeme :: lexemes rest := by
  rw [lexemes, pending_of_significant h, List.map_cons]
  rfl

/-- Where there is a lexeme, there is a significant token. -/
lemma exists_significant_of_lexemes {tokens : List Token} {l : Lexeme} {ls : List Lexeme}
    (h : lexemes tokens = l :: ls) :
    ∃ t rest, significant tokens = t :: rest ∧ t.lexeme = l ∧ lexemes rest = ls := by
  cases hs : significant tokens with
  | nil =>
    rw [lexemes, significant_eq_nil_iff.1 hs] at h
    cases h
  | cons t rest =>
    rw [lexemes_of_significant hs] at h
    exact ⟨t, rest, rfl, (List.cons.inj h).1, (List.cons.inj h).2⟩

namespace Gathering

/-- What is to come, without white space and comments. -/
def lexemes (g : Gathering) : List Lexeme := TxTree.lexemes g.ahead

/-- The shapes of what is gathered. -/
def shapes (g : Gathering) : List Shape := Element.shapes g.children

variable (g : Gathering)

/-- What comes next is seen from the lexemes. -/
lemma lookahead_eq_lookaheadOf : g.lookahead = lookaheadOf g.lexemes := by
  rw [lookahead_eq, lookaheadOf, lexemes, TxTree.lexemes, List.head?_map, List.getElem?_map,
    Option.map_map, Option.map_map]
  rfl

/-! ### Moves -/

@[simp] lemma lexemes_flush : g.flush.lexemes = g.lexemes := by
  rw [lexemes, lexemes, TxTree.lexemes, TxTree.lexemes, flush_ahead, pending_significant]

@[simp] lemma lexemes_fresh : g.fresh.lexemes = g.lexemes := rfl

@[simp] lemma shapes_flush : g.flush.shapes = g.shapes := by
  have htrivia : TxTree.lexemes (g.ahead.takeWhile (·.isTrivia)) = [] :=
    lexemes_eq_nil fun t ht => List.mem_takeWhile_imp ht
  rw [shapes, flush_children, Element.shapes_append, Element.shapes_map_token, htrivia,
    List.map_nil, List.append_nil]
  rfl

@[simp] lemma shapes_fresh : g.fresh.shapes = [] := by
  simp [shapes, fresh, Element.shapes]

@[simp] lemma shapes_enclose (kind : NodeKind) : (g.enclose kind).shapes = [.node kind g.shapes] :=
  Element.shapes_ofChildren ..

/-- What is gathered behind a place has its shapes behind those before the place. -/
@[simp] lemma shapes_behind (g' : Gathering) : (g'.behind g.flush.children).shapes =
    g.shapes ++ g'.shapes := by
  rw [shapes, behind, Element.shapes_append]
  exact congrArg (· ++ g'.shapes) g.shapes_flush

variable {g} {l : Lexeme} {ls : List Lexeme}

/-- The lexeme that is taken is no longer to come, … -/
lemma lexemes_bump (h : g.lexemes = l :: ls) : g.bump.lexemes = ls := by
  rw [lexemes, TxTree.lexemes, pending_bump, List.map_tail]
  exact congrArg List.tail h

/-- … and is gathered as a leaf. -/
lemma shapes_bump (h : g.lexemes = l :: ls) : g.bump.shapes = g.shapes ++ [.leaf l] := by
  obtain ⟨t, rest, hs, rfl, -⟩ := exists_significant_of_lexemes h
  have ht : t.isTrivia = false := not_isTrivia_of_significant hs
  rw [bump_of_cons hs]
  change Element.shapes (g.flush.children ++ [.token t]) = _
  rw [Element.shapes_append]
  change g.flush.shapes ++ _ = _
  rw [shapes_flush]
  simp [Element.shapes, ht]

/-- White space and comments that are left in the end have no shape. -/
lemma shapes_finish (h : pending g.ahead = []) : g.finish.shapes = g.shapes := by
  rw [shapes, finish, attachAll_children, Element.shapes_append, Element.shapes_map_token,
    lexemes_eq_nil (pending_eq_nil_iff.1 h), List.map_nil, List.append_nil]
  rfl

end Gathering

end Grammar

end TxTree
