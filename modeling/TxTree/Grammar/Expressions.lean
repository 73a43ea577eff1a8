import TxTree.Grammar.Rule

set_option relaxedAutoImplicit false
set_option autoImplicit false

/-!
# The grammar of expressions

From the loosest binding to the tightest: the conditional, the layers of binary operators
(logical, comparison, sum, product), the signs before an operand, the field accesses and indices
behind it, and the operand itself. All operands of one layer share one flat node, which is there
only if the layer has an operator.

An expression that does not begin takes in neither a closing bracket nor a separator, nor a word
that opens a declaration: these belong to what is around it.

## Main definitions

* `TxTree.Grammar.conditional`, `TxTree.Grammar.signedRule`, `TxTree.Grammar.suffixRule` — the
  three nesting levels.
* `TxTree.Grammar.layer` — a layer of binary operators.
* `TxTree.Grammar.operand` — the tightest layer.
-/

namespace TxTree.Grammar

open Rule

/-! ## Lists of parts -/

/-- Expressions with commas between them, up to a closing token. -/
def expressionsThrough (close : TokenKind) (message : String) : Rule :=
  itemsThrough close message (expression ++ eat .comma)

/-- `key: value` and a comma if there is one. -/
def mapEntry : Rule := expression ++ expect .colon "Expected ':'" ++ expression ++ eat .comma

/-- `...name`, or the bare mark. -/
def spreadThen (rest : Rule) : Rule := .node .spreadExpr (.bump ++ nameIfAny ++ rest)

/-- `name: value` in a record, and a comma if there is one; or a spread. -/
def recordInit : Rule :=
  .branch (·.starts .spread) (spreadThen (eat .comma)) <|
  .node .recordFieldInit (nameThen "Expected field name"
    (expect .colon "Expected ':'" ++ expression ++ eat .comma) .done)

/-- The entries of a record between braces, of which the opening one comes next. -/
def recordInits : Rule := .bump ++ itemsThrough .rBrace "Expected '\x7d'" recordInit

/-! ## Operands -/

/-- What is reported where no expression begins. -/
def noExpression : String := "Expected an expression"

/-- What begins with an opening parenthesis: the unit, or an expression in parentheses. -/
def parenthesis : Rule :=
  .branch (·.continues .rParen)
    (.node .literal (.bump ++ .bump))
    (.bump ++ expression ++ expect .rParen "Expected ')'")

/-- `Type::Case` and the entries of the case if it has any. -/
def variant : Rule :=
  .node .variantExpr (.bump ++ .bump ++
    nameThen "Expected variant case name"
      (.branch (·.starts .lBrace) recordInits .done) .done)

/-- A name before its arguments. -/
def call : Rule :=
  .node .callExpr (.bump ++
    .node .argList (.bump ++ expressionsThrough .rParen "Expected ')'"))

/-- The tightest layer. Two tokens of lookahead tell a case, a record, a call and a plain name
apart. -/
def operand : Rule :=
  .branch (·.isEnd) (.report noExpression) <|
  .branch (·.starts .spread) (spreadThen .done) <|
  .branch (·.starts .lParen) parenthesis <|
  .branch (·.starts .lBracket)
    (.node .listExpr (.bump ++ expressionsThrough .rBracket "Expected ']'")) <|
  .branch (·.starts .lBrace)
    (.node .mapExpr (.bump ++ itemsThrough .rBrace "Expected '\x7d'" mapEntry)) <|
  .branch (fun l => l.startsWith TokenKind.isName && l.continues .colonColon) variant <|
  .branch (fun l => l.startsWith TokenKind.isName && l.continues .lBrace)
    (.node .recordLiteral (.bump ++ recordInits)) <|
  .branch (fun l => l.startsWith (fun k => k.isName || k == .ada) && l.continues .lParen) call <|
  .branch (·.startsWith fun k => k.isName || k.isBuiltinSymbol) (.node .nameRef .bump) <|
  .branch (·.startsWith fun k => k.isLiteral || k == .trueKw || k == .falseKw)
    (.node .literal .bump) <|
  .branch (·.startsWith fun k => k.isClosing || k.isHardDeclarationKeyword)
    (.report noExpression) <|
  reject noExpression

/-! ## Suffixes and signs -/

/-- The field accesses and indices behind an operand, one nesting level for each. -/
def suffixes : Rule :=
  .branch (·.startsWith fun k => k == .dot || k == .lBracket) (.nest .suffixed .done) .done

/-- A field access or an index behind an operand, and the further ones. -/
def suffixRule : Rule :=
  .branch (·.starts .dot)
    (.wrap .fieldAccessExpr (.bump ++ name "Expected field name after '.'"))
    (.wrap .indexExpr (.bump ++ expression ++ expect .rBracket "Expected ']'")) ++
  suffixes

/-- An operand with what is behind it. -/
def postfixed : Rule := .mark (operand ++ suffixes)

/-- An operand with the signs before it, one nesting level for each. Where no level may nest any
further the sign is left to the operand. -/
def unary : Rule :=
  .branch (·.startsWith fun k => k == .bang || k == .minus) (.nest .signed postfixed) postfixed

/-- A sign, and the operand behind it. -/
def signedRule : Rule := .node .unaryExpr (.bump ++ unary)

/-! ## Binary operators and the conditional -/

/-- **A layer of binary operators**: operands of the next layer with operators between them, as
one node; or a single operand as it is. -/
def layer (isOperator : TokenKind → Bool) (next : Rule) : Rule :=
  .mark (next ++
    .branch (·.startsWith isOperator)
      (.wrap .binaryExpr (.loop (fun l => !l.startsWith isOperator) (.bump ++ next))) .done)

/-- The operators of products. -/
def isProduct (k : TokenKind) : Bool := k == .star || k == .slash

/-- The operators of sums. -/
def isSum (k : TokenKind) : Bool := k == .plus || k == .minus

/-- The logical operators. -/
def isLogical (k : TokenKind) : Bool := k == .andAnd || k == .orOr

/-- The layers of binary operators. -/
def binary : Rule :=
  layer isLogical (layer TokenKind.isComparison (layer isSum (layer isProduct unary)))

/-- `condition ? yes : no`, or the condition alone. -/
def conditional : Rule :=
  .mark (binary ++
    .branch (·.starts .question)
      (.wrap .ternaryExpr
        (.bump ++ expression ++ expect .colon "Expected ':'" ++ expression)) .done)

end TxTree.Grammar
