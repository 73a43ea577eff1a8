set_option relaxedAutoImplicit false
set_option autoImplicit false

/-!
# Node kinds

The closed set of node kinds of the concrete syntax tree: one for each construct of the language,
and one for a token that belongs to none.

## Main definitions

* `TxTree.NodeKind` — the kinds; `TxTree.NodeKind.all` lists them in order.
* `TxTree.NodeKind.name`, `TxTree.NodeKind.ofName?` — the name of a kind, and its inverse.
* `TxTree.NodeKind.tag`, `TxTree.NodeKind.ofTag?` — the tag of a kind in encoded data, and its
  inverse.
-/

namespace TxTree

/-- The kinds of nodes. -/
inductive NodeKind where
  -- The root.
  | file
  -- Declarations.
  | partyDecl | policyDecl | recordDecl | typeDecl | typeAliasDecl | txDecl | envDecl
  | assetDecl
  -- Blocks of a transaction body.
  | inputBlock | outputBlock | burnBlock | mintBlock | localsBlock | collateralBlock
  | referenceBlock | signersBlock | validityBlock | metadataBlock | cardanoBlock
  -- Fields, bindings, cases and lists.
  | recordField | blockField | letBinding | variantCase | txParam | paramList | argList
  -- Expressions and their parts.
  | binaryExpr | unaryExpr | callExpr | recordLiteral | recordFieldInit | nameRef | literal
  | pathExpr | listExpr | mapExpr | spreadExpr | variantExpr | fieldAccessExpr | indexExpr
  | ternaryExpr
  -- Types, and the payload of a variant case.
  | typeRef | listType | mapType | genericType | arrayType | unionType | anonymousRecordType
  | variantTupleParams
  -- A token that was passed over while recovering from an error.
  | error
deriving DecidableEq, Repr, Inhabited

namespace NodeKind

/-- Every kind, in order. -/
def all : List NodeKind :=
  [.file, .partyDecl, .policyDecl, .recordDecl, .typeDecl, .typeAliasDecl, .txDecl, .envDecl,
    .assetDecl, .inputBlock, .outputBlock, .burnBlock, .mintBlock, .localsBlock,
    .collateralBlock, .referenceBlock, .signersBlock, .validityBlock, .metadataBlock,
    .cardanoBlock, .recordField, .blockField, .letBinding, .variantCase, .txParam, .paramList,
    .argList, .binaryExpr, .unaryExpr, .callExpr, .recordLiteral, .recordFieldInit, .nameRef,
    .literal, .pathExpr, .listExpr, .mapExpr, .spreadExpr, .variantExpr, .fieldAccessExpr,
    .indexExpr, .ternaryExpr, .typeRef, .listType, .mapType, .genericType, .arrayType,
    .unionType, .anonymousRecordType, .variantTupleParams, .error]

/-- No kind is missing from `all`. -/
theorem mem_all (k : NodeKind) : k ∈ all := by cases k <;> decide

/-- The name of a kind. -/
def name : NodeKind → String
  | .file => "FILE"
  | .partyDecl => "PARTY_DECL"
  | .policyDecl => "POLICY_DECL"
  | .recordDecl => "RECORD_DECL"
  | .typeDecl => "TYPE_DECL"
  | .typeAliasDecl => "TYPE_ALIAS_DECL"
  | .txDecl => "TX_DECL"
  | .envDecl => "ENV_DECL"
  | .assetDecl => "ASSET_DECL"
  | .inputBlock => "INPUT_BLOCK"
  | .outputBlock => "OUTPUT_BLOCK"
  | .burnBlock => "BURN_BLOCK"
  | .mintBlock => "MINT_BLOCK"
  | .localsBlock => "LOCALS_BLOCK"
  | .collateralBlock => "COLLATERAL_BLOCK"
  | .referenceBlock => "REFERENCE_BLOCK"
  | .signersBlock => "SIGNERS_BLOCK"
  | .validityBlock => "VALIDITY_BLOCK"
  | .metadataBlock => "METADATA_BLOCK"
  | .cardanoBlock => "CARDANO_BLOCK"
  | .recordField => "RECORD_FIELD"
  | .blockField => "BLOCK_FIELD"
  | .letBinding => "LET_BINDING"
  | .variantCase => "VARIANT_CASE"
  | .txParam => "TX_PARAM"
  | .paramList => "PARAM_LIST"
  | .argList => "ARG_LIST"
  | .binaryExpr => "BINARY_EXPR"
  | .unaryExpr => "UNARY_EXPR"
  | .callExpr => "CALL_EXPR"
  | .recordLiteral => "RECORD_LITERAL"
  | .recordFieldInit => "RECORD_FIELD_INIT"
  | .nameRef => "NAME_REF"
  | .literal => "LITERAL"
  | .pathExpr => "PATH_EXPR"
  | .listExpr => "LIST_EXPR"
  | .mapExpr => "MAP_EXPR"
  | .spreadExpr => "SPREAD_EXPR"
  | .variantExpr => "VARIANT_EXPR"
  | .fieldAccessExpr => "FIELD_ACCESS_EXPR"
  | .indexExpr => "INDEX_EXPR"
  | .ternaryExpr => "TERNARY_EXPR"
  | .typeRef => "TYPE_REF"
  | .listType => "LIST_TYPE"
  | .mapType => "MAP_TYPE"
  | .genericType => "GENERIC_TYPE"
  | .arrayType => "ARRAY_TYPE"
  | .unionType => "UNION_TYPE"
  | .anonymousRecordType => "ANONYMOUS_RECORD_TYPE"
  | .variantTupleParams => "VARIANT_TUPLE_PARAMS"
  | .error => "ERROR_ELEMENT"

/-- The tag that stands for a kind in encoded data. -/
def tag : NodeKind → String
  | .file => "File"
  | .partyDecl => "PartyDecl"
  | .policyDecl => "PolicyDecl"
  | .recordDecl => "RecordDecl"
  | .typeDecl => "TypeDecl"
  | .typeAliasDecl => "TypeAliasDecl"
  | .txDecl => "TxDecl"
  | .envDecl => "EnvDecl"
  | .assetDecl => "AssetDecl"
  | .inputBlock => "InputBlock"
  | .outputBlock => "OutputBlock"
  | .burnBlock => "BurnBlock"
  | .mintBlock => "MintBlock"
  | .localsBlock => "LocalsBlock"
  | .collateralBlock => "CollateralBlock"
  | .referenceBlock => "ReferenceBlock"
  | .signersBlock => "SignersBlock"
  | .validityBlock => "ValidityBlock"
  | .metadataBlock => "MetadataBlock"
  | .cardanoBlock => "CardanoBlock"
  | .recordField => "RecordField"
  | .blockField => "BlockField"
  | .letBinding => "LetBinding"
  | .variantCase => "VariantCase"
  | .txParam => "TxParam"
  | .paramList => "ParamList"
  | .argList => "ArgList"
  | .binaryExpr => "BinaryExpr"
  | .unaryExpr => "UnaryExpr"
  | .callExpr => "CallExpr"
  | .recordLiteral => "RecordLiteral"
  | .recordFieldInit => "RecordFieldInit"
  | .nameRef => "NameRef"
  | .literal => "Literal"
  | .pathExpr => "PathExpr"
  | .listExpr => "ListExpr"
  | .mapExpr => "MapExpr"
  | .spreadExpr => "SpreadExpr"
  | .variantExpr => "VariantExpr"
  | .fieldAccessExpr => "FieldAccessExpr"
  | .indexExpr => "IndexExpr"
  | .ternaryExpr => "TernaryExpr"
  | .typeRef => "TypeRef"
  | .listType => "ListType"
  | .mapType => "MapType"
  | .genericType => "GenericType"
  | .arrayType => "ArrayType"
  | .unionType => "UnionType"
  | .anonymousRecordType => "AnonymousRecordType"
  | .variantTupleParams => "VariantTupleParams"
  | .error => "Error"

/-- The kind of a name. -/
def ofName? (name : String) : Option NodeKind := all.find? (·.name == name)

/-- The name of a kind leads back to it. -/
theorem ofName?_name (k : NodeKind) : ofName? k.name = some k := by
  have hall : ∀ k ∈ all, ofName? k.name = some k := by decide +kernel
  exact hall k k.mem_all

/-- The kind of a tag. -/
def ofTag? (tag : String) : Option NodeKind := all.find? (·.tag == tag)

/-- The tag of a kind leads back to it. -/
theorem ofTag?_tag (k : NodeKind) : ofTag? k.tag = some k := by
  have hall : ∀ k ∈ all, ofTag? k.tag = some k := by decide +kernel
  exact hall k k.mem_all

/-! ## Sets of kinds -/

/-- The declarations. -/
def isDeclaration : NodeKind → Bool
  | .partyDecl | .policyDecl | .recordDecl | .typeDecl | .typeAliasDecl | .txDecl | .envDecl
  | .assetDecl => true
  | _ => false

/-- The blocks of a transaction body. -/
def isBlock : NodeKind → Bool
  | .inputBlock | .outputBlock | .burnBlock | .mintBlock | .localsBlock | .collateralBlock
  | .referenceBlock | .signersBlock | .validityBlock | .metadataBlock | .cardanoBlock => true
  | _ => false

/-- The types. -/
def isType : NodeKind → Bool
  | .typeRef | .listType | .mapType | .genericType | .arrayType | .unionType
  | .anonymousRecordType => true
  | _ => false

/-- The nodes that hold the comma after them as their own last child. After parameters of a
transaction, and after types and expressions in lists, the comma is the next sibling. -/
def holdsOwnComma : NodeKind → Bool
  | .recordField | .blockField | .letBinding | .variantCase | .recordFieldInit | .spreadExpr => true
  | _ => false

instance : ToString NodeKind := ⟨name⟩

end NodeKind

end TxTree
