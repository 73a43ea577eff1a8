import TxTree.Grammar.Rule

set_option relaxedAutoImplicit false
set_option autoImplicit false

/-!
# The grammar of transaction bodies

A body is made of blocks and bindings. Most blocks are fields `name: value` in braces; those of
locals hold bindings, those of signers plain expressions, and those of metadata have integers or
strings for keys.

## Main definitions

* `TxTree.Grammar.fieldBlock` — fields in braces.
* `TxTree.Grammar.bodyItem` — a block or a binding.
-/

namespace TxTree.Grammar

open Rule

/-! ## Entries -/

/-- The value behind a key: a colon, an expression, and a comma if there is one. -/
def valueAfterKey : Rule := expect .colon "Expected ':'" ++ expression ++ eat .comma

/-- `name: value` in a block. -/
def blockField : Rule :=
  .branch (·.startsWith TokenKind.isName)
    (.node .blockField (.bump ++ valueAfterKey))
    (reject "Expected a field keyword or identifier")

/-- Fields in braces. -/
def fieldBlock : Rule := braced blockField

/-- `name: value` in a block of locals. -/
def localBinding : Rule := .node .letBinding (nameThen "Expected local name" valueAfterKey .done)

/-- What is reported for a key that is neither an integer nor a string. -/
def badKey : String := "Expected integer or string key in metadata block"

/-- `key: value` in a block of metadata. A name in the place of the key is taken for one, and a
missing key is passed by, so that the value is still read. -/
def metadataField : Rule :=
  .node .blockField <|
    .branch (·.startsWith fun k => k == .intLiteral || k == .stringLiteral)
      (.bump ++ valueAfterKey) <|
    .branch (·.startsWith TokenKind.isName)
      (.report badKey ++ .bump ++ valueAfterKey) <|
    .branch (·.starts .colon)
      (.report badKey ++ valueAfterKey) <|
    .report badKey

/-! ## Blocks -/

/-- `input`, a star and a name if there are any, and fields. -/
def inputBlock : Rule :=
  .node .inputBlock (.bump ++ eat .star ++ nameIfAny ++ fieldBlock)

/-- A word, a name if there is one, and fields. -/
def namedBlock (kind : NodeKind) : Rule := .node kind (.bump ++ nameIfAny ++ fieldBlock)

/-- A word and fields. -/
def plainBlock (kind : NodeKind) : Rule := .node kind (.bump ++ fieldBlock)

/-- `locals` and bindings. -/
def localsBlock : Rule := .node .localsBlock (.bump ++ braced localBinding)

/-- `signers` and expressions. -/
def signersBlock : Rule := .node .signersBlock (.bump ++ braced (expression ++ eat .comma))

/-- `metadata` and entries. -/
def metadataBlock : Rule := .node .metadataBlock (.bump ++ braced metadataField)

/-- `cardano::name` and fields. -/
def cardanoBlock : Rule :=
  .node .cardanoBlock (.bump ++
    expectThen .colonColon "Expected '::'"
      (nameThen "Expected cardano block name" fieldBlock .done) .done)

/-- `let name = value;`. -/
def letBinding : Rule :=
  .node .letBinding (.bump ++
    nameThen "Expected variable name"
      (expect .eq "Expected '='" ++ expression ++ expect .semicolon "Expected ';'") .done)

/-- What is reported where neither a block nor a binding begins. -/
def noBodyItem : String :=
  "Expected a tx body block (input, output, burn, mint, locals, collateral, reference, signers, " ++
    "validity, metadata, cardano, let)"

/-- **A block or a binding of a body**, by the word that opens it. -/
def bodyItem : Rule :=
  .branch (·.starts .inputKw) inputBlock <|
  .branch (·.starts .outputKw) (namedBlock .outputBlock) <|
  .branch (·.starts .burnKw) (namedBlock .burnBlock) <|
  .branch (·.starts .mintKw) (namedBlock .mintBlock) <|
  .branch (·.starts .referenceKw) (namedBlock .referenceBlock) <|
  .branch (·.starts .collateralKw) (plainBlock .collateralBlock) <|
  .branch (·.starts .validityKw) (plainBlock .validityBlock) <|
  .branch (·.starts .localsKw) localsBlock <|
  .branch (·.starts .signersKw) signersBlock <|
  .branch (·.starts .metadataKw) metadataBlock <|
  .branch (·.starts .cardanoKw) cardanoBlock <|
  .branch (·.starts .letKw) letBinding <|
  reject noBodyItem

end TxTree.Grammar
