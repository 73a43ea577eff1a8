set_option relaxedAutoImplicit false
set_option autoImplicit false

/-!
# Token kinds

The closed set of token kinds of the Tx3 transaction language. A kind of fixed text is named by
that text; a kind of varying text has a name in capitals. Membership in the sets below (soft
keyword, builtin type, literal, …) is a property of the kind alone.

## Main definitions

* `TxTree.TokenKind` — the kinds; `TxTree.TokenKind.all` lists them in order.
* `TxTree.TokenKind.name`, `TxTree.TokenKind.ofName?` — the name of a kind, and its inverse.
* `TxTree.TokenKind.tag`, `TxTree.TokenKind.ofTag?` — the tag of a kind in encoded data, and its
  inverse.
* `TxTree.TokenKind.keyword?` — the reserved word that a text spells, if any.
* `TxTree.TokenKind.isName` — identifiers and soft keywords: what may stand as a name.
-/

namespace TxTree

/-- The kinds of tokens. -/
inductive TokenKind where
  -- Trivia: runs of white space, and comments.
  | whitespace | lineComment | blockComment
  -- Words that open a declaration.
  | partyKw | policyKw | recordKw | typeKw | txKw | envKw | assetKw
  -- Words that open a block of a transaction body.
  | inputKw | outputKw | burnKw | mintKw | localsKw | collateralKw | referenceKw | signersKw
  | validityKw | metadataKw | cardanoKw
  -- Words that name the fields of blocks.
  | fromKw | toKw | amountKw | datumKw | datumIsKw | redeemerKw | minAmountKw | refKw | scriptKw
  | hashKw | sinceSlotKw | untilSlotKw | drepKw | stakeKw | versionKw | coinKw
  -- Words of control and the two truth values.
  | importKw | letKw | ifKw | elseKw | trueKw | falseKw
  -- The builtin types.
  | intType | bytesType | boolType | unitType | utxoRefType | addressType | valueType | listType
  | mapType
  -- The builtin symbols.
  | ada | fees
  -- Operators.
  | plus | minus | star | slash | eqEq | notEq | lt | le | gt | ge | andAnd | orOr | bang | eq
  | colonColon | spread | question | pipe
  -- Brackets and separators.
  | lBrace | rBrace | lParen | rParen | lBracket | rBracket | comma | semicolon | colon | dot
  -- Literals.
  | intLiteral | hexLiteral | stringLiteral | bytesLiteral | utxoRefLiteral | assetLiteral
  -- Names, and single characters that begin no token.
  | ident | invalid
deriving DecidableEq, Repr, Inhabited

namespace TokenKind

/-- Every kind, in order. -/
def all : List TokenKind :=
  [.whitespace, .lineComment, .blockComment, .partyKw, .policyKw, .recordKw, .typeKw, .txKw,
    .envKw, .assetKw, .inputKw, .outputKw, .burnKw, .mintKw, .localsKw, .collateralKw,
    .referenceKw, .signersKw, .validityKw, .metadataKw, .cardanoKw, .fromKw, .toKw, .amountKw,
    .datumKw, .datumIsKw, .redeemerKw, .minAmountKw, .refKw, .scriptKw, .hashKw, .sinceSlotKw,
    .untilSlotKw, .drepKw, .stakeKw, .versionKw, .coinKw, .importKw, .letKw, .ifKw, .elseKw,
    .trueKw, .falseKw, .intType, .bytesType, .boolType, .unitType, .utxoRefType, .addressType,
    .valueType, .listType, .mapType, .ada, .fees, .plus, .minus, .star, .slash, .eqEq, .notEq,
    .lt, .le, .gt, .ge, .andAnd, .orOr, .bang, .eq, .colonColon, .spread, .question, .pipe,
    .lBrace, .rBrace, .lParen, .rParen, .lBracket, .rBracket, .comma, .semicolon, .colon, .dot,
    .intLiteral, .hexLiteral, .stringLiteral, .bytesLiteral, .utxoRefLiteral, .assetLiteral,
    .ident, .invalid]

/-- No kind is missing from `all`. -/
theorem mem_all (k : TokenKind) : k ∈ all := by cases k <;> decide

/-- What is said of all kinds is decided kind by kind. -/
instance decidableForall (p : TokenKind → Prop) [DecidablePred p] : Decidable (∀ k, p k) :=
  decidable_of_iff (∀ k ∈ all, p k) ⟨fun h k => h k k.mem_all, fun h k _ => h k⟩

/-- The name of a kind: its text if all its tokens have the same, else a word in capitals. -/
def name : TokenKind → String
  | .whitespace => "WHITE_SPACE"
  | .lineComment => "LINE_COMMENT"
  | .blockComment => "BLOCK_COMMENT"
  | .partyKw => "party"
  | .policyKw => "policy"
  | .recordKw => "record"
  | .typeKw => "type"
  | .txKw => "tx"
  | .envKw => "env"
  | .assetKw => "asset"
  | .inputKw => "input"
  | .outputKw => "output"
  | .burnKw => "burn"
  | .mintKw => "mint"
  | .localsKw => "locals"
  | .collateralKw => "collateral"
  | .referenceKw => "reference"
  | .signersKw => "signers"
  | .validityKw => "validity"
  | .metadataKw => "metadata"
  | .cardanoKw => "cardano"
  | .fromKw => "from"
  | .toKw => "to"
  | .amountKw => "amount"
  | .datumKw => "datum"
  | .datumIsKw => "datum_is"
  | .redeemerKw => "redeemer"
  | .minAmountKw => "min_amount"
  | .refKw => "ref"
  | .scriptKw => "script"
  | .hashKw => "hash"
  | .sinceSlotKw => "since_slot"
  | .untilSlotKw => "until_slot"
  | .drepKw => "drep"
  | .stakeKw => "stake"
  | .versionKw => "version"
  | .coinKw => "coin"
  | .importKw => "import"
  | .letKw => "let"
  | .ifKw => "if"
  | .elseKw => "else"
  | .trueKw => "true"
  | .falseKw => "false"
  | .intType => "Int"
  | .bytesType => "Bytes"
  | .boolType => "Bool"
  | .unitType => "Unit"
  | .utxoRefType => "UtxoRef"
  | .addressType => "Address"
  | .valueType => "Value"
  | .listType => "List"
  | .mapType => "Map"
  | .ada => "Ada"
  | .fees => "fees"
  | .plus => "+"
  | .minus => "-"
  | .star => "*"
  | .slash => "/"
  | .eqEq => "=="
  | .notEq => "!="
  | .lt => "<"
  | .le => "<="
  | .gt => ">"
  | .ge => ">="
  | .andAnd => "&&"
  | .orOr => "||"
  | .bang => "!"
  | .eq => "="
  | .colonColon => "::"
  | .spread => "..."
  | .question => "?"
  | .pipe => "|"
  | .lBrace => "\x7b"
  | .rBrace => "\x7d"
  | .lParen => "("
  | .rParen => ")"
  | .lBracket => "["
  | .rBracket => "]"
  | .comma => ","
  | .semicolon => ";"
  | .colon => ":"
  | .dot => "."
  | .intLiteral => "INT_LITERAL"
  | .hexLiteral => "HEX_LITERAL"
  | .stringLiteral => "STRING_LITERAL"
  | .bytesLiteral => "BYTES_LITERAL"
  | .utxoRefLiteral => "UTXO_REF_LITERAL"
  | .assetLiteral => "ASSET_LITERAL"
  | .ident => "IDENTIFIER"
  | .invalid => "BAD_CHARACTER"

/-- The tag that stands for a kind in encoded data. -/
def tag : TokenKind → String
  | .whitespace => "Whitespace"
  | .lineComment => "LineComment"
  | .blockComment => "BlockComment"
  | .partyKw => "Party"
  | .policyKw => "Policy"
  | .recordKw => "Record"
  | .typeKw => "Type"
  | .txKw => "Tx"
  | .envKw => "Env"
  | .assetKw => "Asset"
  | .inputKw => "Input"
  | .outputKw => "Output"
  | .burnKw => "Burn"
  | .mintKw => "Mint"
  | .localsKw => "Locals"
  | .collateralKw => "Collateral"
  | .referenceKw => "Reference"
  | .signersKw => "Signers"
  | .validityKw => "Validity"
  | .metadataKw => "Metadata"
  | .cardanoKw => "Cardano"
  | .fromKw => "From"
  | .toKw => "To"
  | .amountKw => "Amount"
  | .datumKw => "Datum"
  | .datumIsKw => "DatumIs"
  | .redeemerKw => "Redeemer"
  | .minAmountKw => "MinAmount"
  | .refKw => "Ref"
  | .scriptKw => "Script"
  | .hashKw => "Hash"
  | .sinceSlotKw => "SinceSlot"
  | .untilSlotKw => "UntilSlot"
  | .drepKw => "Drep"
  | .stakeKw => "Stake"
  | .versionKw => "Version"
  | .coinKw => "Coin"
  | .importKw => "Import"
  | .letKw => "Let"
  | .ifKw => "If"
  | .elseKw => "Else"
  | .trueKw => "True"
  | .falseKw => "False"
  | .intType => "IntType"
  | .bytesType => "BytesType"
  | .boolType => "BoolType"
  | .unitType => "UnitType"
  | .utxoRefType => "UtxoRefType"
  | .addressType => "AddressType"
  | .valueType => "ValueType"
  | .listType => "ListType"
  | .mapType => "MapType"
  | .ada => "Ada"
  | .fees => "Fees"
  | .plus => "Plus"
  | .minus => "Minus"
  | .star => "Star"
  | .slash => "Slash"
  | .eqEq => "EqEq"
  | .notEq => "NotEq"
  | .lt => "Lt"
  | .le => "Le"
  | .gt => "Gt"
  | .ge => "Ge"
  | .andAnd => "AndAnd"
  | .orOr => "OrOr"
  | .bang => "Bang"
  | .eq => "Eq"
  | .colonColon => "ColonColon"
  | .spread => "Spread"
  | .question => "Question"
  | .pipe => "Pipe"
  | .lBrace => "LBrace"
  | .rBrace => "RBrace"
  | .lParen => "LParen"
  | .rParen => "RParen"
  | .lBracket => "LBracket"
  | .rBracket => "RBracket"
  | .comma => "Comma"
  | .semicolon => "Semicolon"
  | .colon => "Colon"
  | .dot => "Dot"
  | .intLiteral => "IntLiteral"
  | .hexLiteral => "HexLiteral"
  | .stringLiteral => "StringLiteral"
  | .bytesLiteral => "BytesLiteral"
  | .utxoRefLiteral => "UtxoRefLiteral"
  | .assetLiteral => "AssetLiteral"
  | .ident => "Ident"
  | .invalid => "Invalid"

/-- The kind of a name. -/
def ofName? (name : String) : Option TokenKind := all.find? (·.name == name)

/-- The name of a kind leads back to it. -/
theorem ofName?_name (k : TokenKind) : ofName? k.name = some k := by
  have hall : ∀ k ∈ all, ofName? k.name = some k := by decide +kernel
  exact hall k k.mem_all

/-- The kind of a tag. -/
def ofTag? (tag : String) : Option TokenKind := all.find? (·.tag == tag)

/-- The tag of a kind leads back to it. -/
theorem ofTag?_tag (k : TokenKind) : ofTag? k.tag = some k := by
  have hall : ∀ k ∈ all, ofTag? k.tag = some k := by decide +kernel
  exact hall k k.mem_all

/-! ## Sets of kinds -/

/-- White space and comments: kept in the tree, invisible to the grammar. -/
def isTrivia : TokenKind → Bool
  | .whitespace | .lineComment | .blockComment => true
  | _ => false

/-- The words that open a declaration. -/
def isTopLevelKeyword : TokenKind → Bool
  | .partyKw | .policyKw | .recordKw | .typeKw | .txKw | .envKw | .assetKw => true
  | _ => false

/-- The words that open a declaration and are never names; recovery stops at them. -/
def isHardDeclarationKeyword : TokenKind → Bool
  | .partyKw | .policyKw | .recordKw | .typeKw | .txKw => true
  | _ => false

/-- The words that open a block of a transaction body. -/
def isBlockKeyword : TokenKind → Bool
  | .inputKw | .outputKw | .burnKw | .mintKw | .localsKw | .collateralKw | .referenceKw
  | .signersKw | .validityKw | .metadataKw | .cardanoKw => true
  | _ => false

/-- The words that name the fields of blocks. -/
def isFieldKeyword : TokenKind → Bool
  | .fromKw | .toKw | .amountKw | .datumKw | .datumIsKw | .redeemerKw | .minAmountKw | .refKw
  | .scriptKw | .hashKw | .sinceSlotKw | .untilSlotKw | .drepKw | .stakeKw | .versionKw
  | .coinKw => true
  | _ => false

/-- The words of control and the two truth values. -/
def isControlKeyword : TokenKind → Bool
  | .importKw | .letKw | .ifKw | .elseKw | .trueKw | .falseKw => true
  | _ => false

/-- The builtin types. -/
def isBuiltinType : TokenKind → Bool
  | .intType | .bytesType | .boolType | .unitType | .utxoRefType | .addressType | .valueType
  | .listType | .mapType => true
  | _ => false

/-- The builtin types that stand alone: all but those of lists and of maps, which take arguments. -/
def isScalarType (k : TokenKind) : Bool :=
  k.isBuiltinType && !(k == .listType || k == .mapType)

/-- The builtin symbols. -/
def isBuiltinSymbol : TokenKind → Bool
  | .ada | .fees => true
  | _ => false

/-- The operators. -/
def isOperator : TokenKind → Bool
  | .plus | .minus | .star | .slash | .eqEq | .notEq | .lt | .le | .gt | .ge | .andAnd | .orOr
  | .bang | .eq | .colonColon | .spread | .question | .pipe => true
  | _ => false

/-- Brackets and separators. -/
def isPunctuation : TokenKind → Bool
  | .lBrace | .rBrace | .lParen | .rParen | .lBracket | .rBracket | .comma | .semicolon | .colon
  | .dot => true
  | _ => false

/-- The literals. -/
def isLiteral : TokenKind → Bool
  | .intLiteral | .hexLiteral | .stringLiteral | .bytesLiteral | .utxoRefLiteral
  | .assetLiteral => true
  | _ => false

/-- The reserved words: each is the exact text of its kind. -/
def isKeyword (k : TokenKind) : Bool :=
  k.isTopLevelKeyword || k.isBlockKeyword || k.isFieldKeyword || k.isControlKeyword ||
    k.isBuiltinType || k.isBuiltinSymbol

/-- The words that open a block or a declaration only where one is expected, and are names
elsewhere. -/
def isSoftBlockKeyword : TokenKind → Bool
  | .metadataKw | .mintKw | .collateralKw | .referenceKw | .signersKw | .validityKw | .cardanoKw
  | .envKw | .assetKw => true
  | _ => false

/-- **Soft keywords**: reserved words that read as plain names wherever a name is expected. -/
def isSoftKeyword (k : TokenKind) : Bool := k.isSoftBlockKeyword || k.isFieldKeyword

/-- What may stand as a name: an identifier or a soft keyword. -/
def isName (k : TokenKind) : Bool := k == .ident || k.isSoftKeyword

/-- The binary operators of the comparison layer. -/
def isComparison : TokenKind → Bool
  | .eqEq | .notEq | .lt | .le | .gt | .ge => true
  | _ => false

/-- Closing brackets and separators, which no operand passes over while recovering. -/
def isClosing : TokenKind → Bool
  | .rBrace | .rParen | .rBracket | .comma | .semicolon => true
  | _ => false

/-! ## Reserved words -/

/-- The reserved words, in order. -/
def keywords : List TokenKind := all.filter isKeyword

/-- The kind of the reserved word that `text` spells. Case counts: the type of integers is
reserved under its capital, and the same word in small letters is an identifier. -/
def keyword? (text : String) : Option TokenKind := keywords.find? (·.name == text)

instance : ToString TokenKind := ⟨name⟩

end TokenKind

end TxTree
