import TxTree.Grammar.Declarations
import TxTree.Proofs.Phrases
import TxTree.Proofs.Types

set_option relaxedAutoImplicit false
set_option autoImplicit false

/-!
# The syntax of programs

Blocks, bindings and declarations as they are written down, with the lexemes that spell them, the
trees that stand for them, and how deep the expressions and types in them nest. A program is a list
of declarations.

Commas are optional, except between expressions: these would run into each other.

## Main definitions

* `TxTree.BodyItem` — the blocks and bindings of a transaction.
* `TxTree.Declaration` — the declarations.
* `TxTree.Declaration.print`, `TxTree.Declaration.tree`, `TxTree.Declaration.nestings` — the lexemes
  of a declaration, its tree, and how deep it nests.
-/

namespace TxTree

open TokenKind

/-! ## Parts -/

/-- Lexemes in braces. -/
def inBraces (ls : List Lexeme) : List Lexeme := lBrace.lexeme :: ls ++ [rBrace.lexeme]

/-- Shapes in braces. -/
def shapesInBraces (fs : List Shape) : List Shape :=
  .leaf lBrace.lexeme :: fs ++ [.leaf rBrace.lexeme]

/-- A name, if there is one. -/
def nameIf (name : Option Name) : List Lexeme := (name.map (·.1)).toList

/-- `key: value`, with or without a comma. -/
structure Entry (isKey : TokenKind → Bool) where
  /-- The key. -/
  key : { l : Lexeme // isKey l.kind = true }
  /-- The value. -/
  value : Expr
  /-- Whether there is a comma. -/
  comma : Bool

namespace Entry

variable {isKey : TokenKind → Bool}

/-- The lexemes of an entry. -/
def print (e : Entry isKey) : List Lexeme :=
  e.key.1 :: colon.lexeme :: e.value.print ++ commaIf e.comma

/-- The tree of an entry, as a node of a kind. -/
def tree (kind : NodeKind) (e : Entry isKey) : List Shape :=
  [.node kind (leaves [e.key.1, colon.lexeme] ++ e.value.tree ++ leaves (commaIf e.comma))]

end Entry

/-- The fields of blocks, and the bindings of a block of locals. -/
abbrev BlockField := Entry isName

/-- Whether a token may be a key in a block of metadata. -/
def TokenKind.isMetadataKey (k : TokenKind) : Bool := k == .intLiteral || k == .stringLiteral

/-- The entries of a block of metadata. -/
abbrev MetadataField := Entry isMetadataKey

/-! ## Blocks and bindings -/

/-- The blocks that may have a name. -/
inductive NamedBlock where
  /-- An output. -/
  | output
  /-- What is burnt. -/
  | burn
  /-- What is minted. -/
  | mint
  /-- A reference input. -/
  | reference
deriving DecidableEq, Repr

/-- The word that opens a block. -/
def NamedBlock.keyword : NamedBlock → TokenKind
  | output => .outputKw
  | burn => .burnKw
  | mint => .mintKw
  | reference => .referenceKw

/-- The kind of the node of a block. -/
def NamedBlock.kind : NamedBlock → NodeKind
  | output => .outputBlock
  | burn => .burnBlock
  | mint => .mintBlock
  | reference => .referenceBlock

/-- The blocks that have no name. -/
inductive PlainBlock where
  /-- The collateral. -/
  | collateral
  /-- The time of validity. -/
  | validity
deriving DecidableEq, Repr

/-- The word that opens a block. -/
def PlainBlock.keyword : PlainBlock → TokenKind
  | collateral => .collateralKw
  | validity => .validityKw

/-- The kind of the node of a block. -/
def PlainBlock.kind : PlainBlock → NodeKind
  | collateral => .collateralBlock
  | validity => .validityBlock

/-- **The blocks and bindings of a transaction.** -/
inductive BodyItem where
  /-- An input, with or without a star and a name. -/
  | input (star : Bool) (name : Option Name) (fields : List BlockField)
  /-- A block with or without a name. -/
  | named (block : NamedBlock) (name : Option Name) (fields : List BlockField)
  /-- A block without a name. -/
  | plain (block : PlainBlock) (fields : List BlockField)
  /-- A block of locals. -/
  | locals (bindings : List BlockField)
  /-- The signers. -/
  | signers (es : Phrase (.items .curly))
  /-- The metadata. -/
  | metadata (fields : List MetadataField)
  /-- `cardano::name` and fields. -/
  | cardano (name : Name) (fields : List BlockField)
  /-- `let name = value;`. -/
  | binding (name : Name) (value : Expr)

namespace BodyItem

/-- **The lexemes of a block or a binding.** -/
def print : BodyItem → List Lexeme
  | input b n fs =>
    inputKw.lexeme :: lexemeIf .star b ++ nameIf n ++
      inBraces (fs.flatMap Entry.print)
  | named b n fs => b.keyword.lexeme :: nameIf n ++ inBraces (fs.flatMap Entry.print)
  | plain b fs => b.keyword.lexeme :: inBraces (fs.flatMap Entry.print)
  | locals fs => localsKw.lexeme :: inBraces (fs.flatMap Entry.print)
  | signers es => signersKw.lexeme :: inBraces es.print
  | metadata fs => metadataKw.lexeme :: inBraces (fs.flatMap Entry.print)
  | cardano n fs =>
    cardanoKw.lexeme :: colonColon.lexeme :: n.1 :: inBraces (fs.flatMap Entry.print)
  | binding n e => letKw.lexeme :: n.1 :: eq.lexeme :: e.print ++ [semicolon.lexeme]

/-- **The tree of a block or a binding.** -/
def tree : BodyItem → List Shape
  | input b n fs =>
    [.node .inputBlock
      (leaves (inputKw.lexeme :: lexemeIf .star b ++ nameIf n) ++
        shapesInBraces (fs.flatMap (Entry.tree .blockField)))]
  | named b n fs =>
    [.node b.kind (leaves (b.keyword.lexeme :: nameIf n) ++
      shapesInBraces (fs.flatMap (Entry.tree .blockField)))]
  | plain b fs =>
    [.node b.kind (.leaf b.keyword.lexeme ::
      shapesInBraces (fs.flatMap (Entry.tree .blockField)))]
  | locals fs =>
    [.node .localsBlock (.leaf localsKw.lexeme ::
      shapesInBraces (fs.flatMap (Entry.tree .letBinding)))]
  | signers es => [.node .signersBlock (.leaf signersKw.lexeme :: shapesInBraces es.tree)]
  | metadata fs =>
    [.node .metadataBlock (.leaf metadataKw.lexeme ::
      shapesInBraces (fs.flatMap (Entry.tree .blockField)))]
  | cardano n fs =>
    [.node .cardanoBlock (leaves [cardanoKw.lexeme, colonColon.lexeme, n.1] ++
      shapesInBraces (fs.flatMap (Entry.tree .blockField)))]
  | binding n e =>
    [.node .letBinding
      (leaves [letKw.lexeme, n.1, eq.lexeme] ++ e.tree ++ [.leaf semicolon.lexeme])]

/-- How deep the expressions of a block or a binding nest. -/
def nestings : BodyItem → List Nat
  | input _ _ fs | named _ _ fs | plain _ fs | locals fs | cardano _ fs =>
    fs.map (·.value.nesting)
  | metadata fs => fs.map (·.value.nesting)
  | signers es => [es.nesting]
  | binding _ e => [e.nesting]

end BodyItem

/-! ## Types with commas behind them -/

/-- `name: Type`, with or without a comma. -/
structure Param where
  /-- The name. -/
  name : Name
  /-- The type. -/
  type : Ty
  /-- Whether there is a comma. -/
  comma : Bool

namespace Param

/-- The lexemes of a parameter. -/
def print (p : Param) : List Lexeme :=
  p.name.1 :: colon.lexeme :: p.type.print ++ commaIf p.comma

/-- The tree of a parameter. The comma stands behind it. -/
def tree (p : Param) : List Shape :=
  .node .txParam (leaves [p.name.1, colon.lexeme] ++ p.type.tree) :: leaves (commaIf p.comma)

end Param

/-- A type that a case carries, with or without a comma. -/
structure CaseType where
  /-- The type. -/
  type : Ty
  /-- Whether there is a comma. -/
  comma : Bool

namespace CaseType

/-- The lexemes of a type that a case carries. -/
def print (t : CaseType) : List Lexeme := t.type.print ++ commaIf t.comma

/-- Its tree. The comma stands behind it. -/
def tree (t : CaseType) : List Shape := t.type.tree ++ leaves (commaIf t.comma)

end CaseType

/-- What a case of a type carries. -/
inductive Payload where
  /-- Nothing. -/
  | none
  /-- Fields. -/
  | fields (fs : Fields)
  /-- Types. -/
  | types (ts : List CaseType)

namespace Payload

/-- The lexemes of what a case carries. -/
def print : Payload → List Lexeme
  | none => []
  | fields fs => inBraces fs.print
  | types ts => lParen.lexeme :: ts.flatMap CaseType.print ++ [rParen.lexeme]

/-- Its tree. -/
def tree : Payload → List Shape
  | none => []
  | fields fs => shapesInBraces fs.tree
  | types ts =>
    [.node .variantTupleParams
      (.leaf lParen.lexeme :: ts.flatMap CaseType.tree ++ [.leaf rParen.lexeme])]

/-- How deep the types that a case carries nest. -/
def nestings : Payload → List Nat
  | none => []
  | fields fs => [fs.nesting]
  | types ts => ts.map (·.type.nesting)

/-- Whether a case carries nothing. -/
def isNone : Payload → Bool
  | none => true
  | _ => false

end Payload

/-- A case of a type, with or without a comma. -/
structure VariantCase where
  /-- The name. -/
  name : Name
  /-- What the case carries. -/
  payload : Payload
  /-- Whether there is a comma. -/
  comma : Bool

namespace VariantCase

/-- The lexemes of a case. -/
def print (c : VariantCase) : List Lexeme := c.name.1 :: c.payload.print ++ commaIf c.comma

/-- The tree of a case. -/
def tree (c : VariantCase) : List Shape :=
  [.node .variantCase (.leaf c.name.1 :: c.payload.tree ++ leaves (commaIf c.comma))]

/-- Whether a case is told from a field by what stands behind its name. -/
def isTold (c : VariantCase) : Bool := !c.payload.isNone || c.comma

end VariantCase

/-! ## Declarations -/

/-- A lexeme of the path of an import. -/
abbrev PathLexeme :=
  { l : Lexeme //
    (l.kind == .rParen || l.kind == .semicolon || l.kind.isHardDeclarationKeyword) = false }

/-- A hexadecimal number. -/
abbrev HexLiteral := { l : Lexeme // l.kind = .hexLiteral }

/-- What an asset may stand for. -/
abbrev AssetValue := { l : Lexeme // (l.kind == .assetLiteral || l.kind == .hexLiteral) = true }

/-- **The declarations.** -/
inductive Declaration where
  /-- `party Name;`. -/
  | party (name : Name)
  /-- `policy Name = import(path);`. -/
  | policyImport (name : Name) (path : List PathLexeme)
  /-- `policy Name = 0x00;`. -/
  | policyHex (name : Name) (value : HexLiteral)
  /-- `policy Name` and fields. -/
  | policyBlock (name : Name) (fields : List BlockField)
  /-- `type Name = A | B;`. -/
  | typeAlias (name : Name) (first : Ty) (rest : List Ty)
  /-- `type Name` and cases. What stands behind the name of the first case tells that these are
  cases: its payload, its comma, or the closing brace if there is no other case. -/
  | variants (name : Name) (first : VariantCase) (rest : List VariantCase)
    (told : (first.isTold || rest.isEmpty) = true)
  /-- `type Name` and fields. -/
  | fields (name : Name) (fs : Fields)
  /-- `record Name` and fields. -/
  | record (name : Name) (fs : Fields)
  /-- `env` and fields. -/
  | env (fs : Fields)
  /-- `asset Name = 0x00."token";`. -/
  | asset (name : Name) (value : AssetValue)
  /-- `tx name(params)` and a body. -/
  | tx (name : Name) (params : List Param) (body : List BodyItem)

namespace Declaration

/-- The word that opens a declaration. -/
def keyword : Declaration → TokenKind
  | party _ => .partyKw
  | policyImport .. | policyHex .. | policyBlock .. => .policyKw
  | typeAlias .. | variants .. | fields .. => .typeKw
  | record .. => .recordKw
  | env _ => .envKw
  | asset .. => .assetKw
  | tx .. => .txKw

/-- **The kind of the node of a declaration.** -/
def kind : Declaration → NodeKind
  | party _ => .partyDecl
  | policyImport .. | policyHex .. | policyBlock .. => .policyDecl
  | typeAlias .. => .typeAliasDecl
  | variants .. | fields .. => .typeDecl
  | record .. => .recordDecl
  | env _ => .envDecl
  | asset .. => .assetDecl
  | tx .. => .txDecl

/-- **The name of a declaration**, if it has one. -/
def name? : Declaration → Option Name
  | party n | policyImport n _ | policyHex n _ | policyBlock n _ | typeAlias n _ _
  | variants n _ _ _ | fields n _ | record n _ | asset n _ | tx n _ _ => some n
  | env _ => none

/-- The lexemes behind the name. -/
def printBody : Declaration → List Lexeme
  | party _ => [semicolon.lexeme]
  | policyImport _ path =>
    eq.lexeme :: importKw.lexeme :: lParen.lexeme :: path.map (·.1) ++
      [rParen.lexeme, semicolon.lexeme]
  | policyHex _ v => [eq.lexeme, v.1, semicolon.lexeme]
  | policyBlock _ fs => inBraces (fs.flatMap Entry.print)
  | typeAlias _ t ts =>
    eq.lexeme :: t.print ++ ts.flatMap (fun t => pipe.lexeme :: t.print) ++ [semicolon.lexeme]
  | variants _ c cs _ => inBraces ((c :: cs).flatMap VariantCase.print)
  | fields _ fs | record _ fs | env fs => inBraces fs.print
  | asset _ v => [eq.lexeme, v.1, semicolon.lexeme]
  | tx _ ps items =>
    lParen.lexeme :: ps.flatMap Param.print ++ rParen.lexeme ::
      inBraces (items.flatMap BodyItem.print)

/-- The trees behind the name. -/
def treeBody : Declaration → List Shape
  | party _ => [.leaf semicolon.lexeme]
  | policyImport _ path =>
    [.leaf eq.lexeme,
      .node .callExpr (leaves [importKw.lexeme, lParen.lexeme] ++
        [.node .pathExpr (leaves (path.map (·.1))), .leaf rParen.lexeme]),
      .leaf semicolon.lexeme]
  | policyHex _ v => leaves [eq.lexeme, v.1, semicolon.lexeme]
  | policyBlock _ fs => shapesInBraces (fs.flatMap (Entry.tree .blockField))
  | typeAlias _ t ts =>
    .leaf eq.lexeme ::
      (if ts.isEmpty then t.tree
        else [.node .unionType (t.tree ++ ts.flatMap fun t => .leaf pipe.lexeme :: t.tree)]) ++
      [.leaf semicolon.lexeme]
  | variants _ c cs _ => shapesInBraces ((c :: cs).flatMap VariantCase.tree)
  | fields _ fs | record _ fs | env fs => shapesInBraces fs.tree
  | asset _ v => leaves [eq.lexeme, v.1, semicolon.lexeme]
  | tx _ ps items =>
    .node .paramList (.leaf lParen.lexeme :: ps.flatMap Param.tree ++ [.leaf rParen.lexeme]) ::
      shapesInBraces (items.flatMap BodyItem.tree)

/-- **The lexemes of a declaration.** -/
def print (d : Declaration) : List Lexeme := d.keyword.lexeme :: nameIf d.name? ++ d.printBody

/-- **The tree of a declaration.** -/
def tree (d : Declaration) : Shape :=
  .node d.kind (leaves (d.keyword.lexeme :: nameIf d.name?) ++ d.treeBody)

/-- **How deep the expressions and types of a declaration nest.** -/
def nestings : Declaration → List Nat
  | party _ | policyImport .. | policyHex .. | asset .. => []
  | policyBlock _ fs => fs.map (·.value.nesting)
  | typeAlias _ t ts => t.nesting :: ts.map (·.nesting)
  | variants _ c cs _ => (c :: cs).flatMap (·.payload.nestings)
  | fields _ fs | record _ fs | env fs => [fs.nesting]
  | tx _ ps items => ps.map (·.type.nesting) ++ items.flatMap BodyItem.nestings

end Declaration

end TxTree
