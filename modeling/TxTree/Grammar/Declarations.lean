import TxTree.Grammar.Blocks
import TxTree.Grammar.Expressions
import TxTree.Grammar.Types

set_option relaxedAutoImplicit false
set_option autoImplicit false

/-!
# The grammar of declarations

A file is a list of declarations: parties, policies, types, environments, assets and transactions.

## Main definitions

* `TxTree.Grammar.declaration` — a declaration, by the word that opens it.
* `TxTree.Grammar.file` — a whole file.
* `TxTree.Grammar.nested` — the rules of the nesting levels.
-/

namespace TxTree.Grammar

open Rule

/-! ## Parties, policies and assets -/

/-- The semicolon at the end of a declaration. -/
def semicolon : Rule := expect .semicolon "Expected ';'"

/-- `party Name;`. -/
def partyDecl : Rule :=
  .node .partyDecl (.bump ++ nameThen "Expected party name" semicolon (eat .semicolon))

/-- `import(path)`, the path being whatever stands in the parentheses. -/
def importCall : Rule :=
  .node .callExpr (.bump ++
    expectThen .lParen "Expected '('"
      (.node .pathExpr (.loop (fun l => l.endsList .rParen || l.starts .semicolon) .bump) ++
        expect .rParen "Expected ')'") .done)

/-- `policy Name = import(path);`, `policy Name = 0x00;` or `policy Name` and fields. -/
def policyDecl : Rule :=
  .node .policyDecl (.bump ++
    nameThen "Expected policy name"
      (.branch (·.starts .eq)
        (.bump ++
          .branch (·.starts .importKw) importCall
            (.branch (·.starts .hexLiteral) .bump
              (.report "Expected 'import(path)' or hex literal for policy value")) ++
          semicolon) <|
        .branch (·.starts .lBrace) fieldBlock
          (.report "Expected '=' or '\x7b'"))
      .done)

/-- `asset Name = 0x00."token";` or `asset Name = 0x00;`. -/
def assetDecl : Rule :=
  .node .assetDecl (.bump ++
    nameThen "Expected asset name"
      (expectThen .eq "Expected '='"
        (.branch (·.startsWith fun k => k == .assetLiteral || k == .hexLiteral) .bump
          (.report "Expected asset identifier (hex literal or hex.\"token\")") ++
        semicolon)
        .done)
      .done)

/-! ## Types, records and environments -/

/-- The types that a case carries in parentheses, of which the opening one comes next. -/
def caseTypes : Rule :=
  .node .variantTupleParams (.bump ++
    itemsThrough .rParen "Expected ')'" (type ++ eat .comma))

/-- A case with its fields or types if it has any, and a comma if there is one. -/
def variantCase : Rule :=
  .node .variantCase (nameThen "Expected variant case name"
    (.branch (·.starts .lBrace) recordFields (.branch (·.starts .lParen) caseTypes .done) ++
      eat .comma)
    .done)

/-- Whether the body of a type is a list of cases: it begins with a name and what may follow the
name of a case. -/
def startsCase (l : Lookahead) : Bool :=
  l.startsWith TokenKind.isName &&
    (l.continues .lBrace || l.continues .comma || l.continues .rBrace || l.continues .lParen)

/-- `type Name = Type;`, or `type Name` and cases or fields in braces. -/
def typeDecl : Rule :=
  .mark (.bump ++
    nameThen "Expected type name"
      (.branch (·.starts .eq)
        (.wrap .typeAliasDecl (.bump ++ typeOrUnion ++ semicolon))
        (.wrap .typeDecl
          (expectThen .lBrace "Expected '\x7b'"
            (.branch startsCase
              (.loop (·.endsList .rBrace) variantCase)
              (.loop (·.endsList .rBrace) recordField) ++
            expect .rBrace "Expected '\x7d'")
            .done)))
      (.wrap .typeDecl .done))

/-- `record Name` and fields in braces. -/
def recordDecl : Rule :=
  .mark (.bump ++
    nameThen "Expected type name"
      (.wrap .recordDecl (braced recordField))
      (.wrap .recordDecl .done))

/-- `env` and fields in braces. -/
def envDecl : Rule :=
  .node .envDecl (.bump ++
    .branch (·.starts .lBrace) recordFields (.report "Expected '\x7b'"))

/-! ## Transactions -/

/-- `name: Type`. -/
def txParam : Rule := .node .txParam (nameThen "Expected parameter name" typeAfterName .done)

/-- The parameters in parentheses. The list also ends at an opening brace, so that the body is
read although the list was never closed. -/
def paramList : Rule :=
  .node .paramList
    (expectThen .lParen "Expected '('"
      (.loop (fun l => l.endsList .rParen || l.starts .lBrace) (txParam ++ eat .comma) ++
        expect .rParen "Expected ')'")
      .done)

/-- `tx name(params)` and a body in braces. -/
def txDecl : Rule :=
  .node .txDecl (.bump ++
    nameThen "Expected transaction name" (paramList ++ braced bodyItem) .done)

/-! ## Files -/

/-- **A declaration**, by the word that opens it. -/
def declaration : Rule :=
  .branch (·.starts .partyKw) partyDecl <|
  .branch (·.starts .policyKw) policyDecl <|
  .branch (·.starts .recordKw) recordDecl <|
  .branch (·.starts .typeKw) typeDecl <|
  .branch (·.starts .txKw) txDecl <|
  .branch (·.starts .envKw) envDecl <|
  .branch (·.starts .assetKw) assetDecl <|
  reject "Expected a top-level declaration (party, policy, type, tx, env, asset)"

/-- **A file**: declarations up to the end. -/
def file : Rule := .loop (·.isEnd) declaration

/-- The rules of the nesting levels. -/
def nested : Nesting → Rule
  | .expression => conditional
  | .signed => signedRule
  | .suffixed => suffixRule
  | .type => typeRule
  | .array => arrayRule

end TxTree.Grammar
