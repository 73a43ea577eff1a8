import TxTree.Tree.Basic

set_option relaxedAutoImplicit false
set_option autoImplicit false

/-!
# Reading a tree

What a tool asks of a node: the tokens and nodes directly below it, the name it declares, its
fields, cases and parameters, and whether a comma follows one of its children.

## Main definitions

* `TxTree.Node.childNodes`, `TxTree.Node.childTokens`, `TxTree.Node.significantTokens` — the
  children by sort.
* `TxTree.Node.name?` — the token that names the construct.
* `TxTree.Node.declarations`, `TxTree.Node.fields`, `TxTree.Node.variantCases`,
  `TxTree.Node.params`, `TxTree.Node.blockFields`, `TxTree.Node.declaredType?` — the parts of a
  construct.
* `TxTree.Node.hasTrailingComma` — whether a comma follows a child.
-/

namespace TxTree.Node

/-! ## Children by sort -/

/-- The nodes directly below a node. -/
def childNodes (n : Node) : List Node := n.children.filterMap Element.node?

/-- The tokens directly below a node. -/
def childTokens (n : Node) : List Token := n.children.filterMap Element.token?

/-- The tokens directly below a node, without white space and comments. -/
def significantTokens (n : Node) : List Token := n.childTokens.filter (!·.isTrivia)

/-- The child nodes of a kind. -/
def childrenOf (n : Node) (kind : NodeKind) : List Node := n.childNodes.filter (·.kind == kind)

/-- The first child node of a kind. -/
def firstChildOf? (n : Node) (kind : NodeKind) : Option Node := n.childNodes.find? (·.kind == kind)

/-! ## Names -/

/-- Where the name of a construct stands among its own tokens. -/
def nameToken? (kind : NodeKind) (tokens : List Token) : Option Token :=
  match kind with
  -- after the word that opens it, and the star that an input may have
  | .partyDecl | .policyDecl | .recordDecl | .typeDecl | .typeAliasDecl | .txDecl | .assetDecl
  | .inputBlock | .outputBlock | .burnBlock | .mintBlock | .referenceBlock =>
    (tokens.drop 1).find? (·.kind != .star)
  -- after the word that opens it, if it has one
  | .letBinding =>
    match tokens with
    | [] => none
    | t :: rest => if t.kind == .letKw then rest.head? else some t
  -- after the mark of its path
  | .cardanoBlock => (tokens.dropWhile (·.kind != .colonColon))[1]?
  | .fieldAccessExpr => (tokens.dropWhile (·.kind != .dot))[1]?
  -- first
  | .recordField | .variantCase | .txParam | .recordFieldInit | .blockField | .nameRef =>
    tokens.head?
  | _ => none

/-- **The name of a construct**: the token at the place of its name, if that can be a name. -/
def name? (n : Node) : Option Token :=
  (nameToken? n.kind n.significantTokens).filter (·.kind.isName)

/-! ## Parts -/

/-- The declarations directly below the root. -/
def declarations (n : Node) : List Node := n.childNodes.filter (·.kind.isDeclaration)

/-- The fields of a record, an environment, an anonymous record or a case. -/
def fields (n : Node) : List Node := n.childrenOf .recordField

/-- The cases of a type. -/
def variantCases (n : Node) : List Node := n.childrenOf .variantCase

/-- The parameters of a transaction. -/
def params (n : Node) : List Node :=
  match n.firstChildOf? .paramList with
  | some list => list.childrenOf .txParam
  | none => []

/-- The entries of a block: fields, or the bindings of a block of locals. -/
def blockFields (n : Node) : List Node :=
  n.childNodes.filter fun c => c.kind == .blockField || c.kind == .letBinding

/-- The type of a parameter, of a field or behind an alias. -/
def declaredType? (n : Node) : Option Node := n.childNodes.find? (·.kind.isType)

/-- **Whether a comma follows the child node at an index**: as the last token of the child itself,
or as the next element after it, by the kind of the child. -/
def hasTrailingComma (n : Node) (index : Nat) : Bool :=
  match n.children[index]? with
  | some (.node item) =>
    let next :=
      if item.kind.holdsOwnComma then item.children.reverse.find? (!·.isTrivia)
      else (n.children.drop (index + 1)).find? (!·.isTrivia)
    (next.bind Element.token?).any (·.kind == .comma)
  | _ => false

end TxTree.Node
