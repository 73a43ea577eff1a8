import TxTree.Text.Alphabetic
import TxTree.Text.Blank
import TxTree.Text.Numeric
import TxTree.Token.Basic

set_option relaxedAutoImplicit false
set_option autoImplicit false

/-!
# From text to tokens

Every text is cut into tokens with nothing left over: white space and comments are tokens too,
and a character that begins no token is a token of its own. One rule, `scan`, says for a
character and what follows it which kind of token begins there and how many of the following
characters belong to it; `tokenize` cuts the text by that rule from left to right.

## Main definitions

* `TxTree.scan` — the kind of the token that begins at a character, and its further length.
* `TxTree.tokenize` — the tokens of a text.

## Design

The rules are tried in a fixed order, and each takes as many characters as it can: white space,
comments, strings, bytes, the numbers in base sixteen with what may follow them, numbers, names,
and last the symbols, longest first.
-/

namespace TxTree

namespace Scan

/-! ## Classes of characters -/

/-- The digits of numbers in base sixteen. -/
def isHexDigit (c : Char) : Bool :=
  c.isDigit || ('a' ≤ c && c ≤ 'f') || ('A' ≤ c && c ≤ 'F')

/-- What begins a name. -/
def isNameStart (c : Char) : Bool := Text.isAlphabetic c || c == '_'

/-- What continues a name. -/
def isNameRest (c : Char) : Bool := Text.isAlphabetic c || Text.isNumeric c || c == '_'

/-- The number of characters before the first that fails `p`. -/
def runLength (p : Char → Bool) (cs : List Char) : Nat := (cs.takeWhile p).length

/-! ## Comments and strings -/

/-- The number of characters through the first closing mark of a block comment, or of all if there
is none. -/
def commentLength : List Char → Nat
  | [] => 0
  | '*' :: '/' :: _ => 2
  | _ :: rest => commentLength rest + 1

/-- How a string goes on after its opening quote: whether it is closed, and the number of its
characters. A backslash takes the next character with it unless that ends the line; an open
string stops before the line end. -/
def stringLength : List Char → Bool × Nat
  | [] => (false, 0)
  | '"' :: _ => (true, 1)
  | '\n' :: _ => (false, 0)
  | '\\' :: [] => (false, 1)
  | '\\' :: '\n' :: _ => (false, 1)
  | '\\' :: _ :: rest => let (closed, n) := stringLength rest; (closed, n + 2)
  | _ :: rest => let (closed, n) := stringLength rest; (closed, n + 1)

/-! ## Literals in base sixteen -/

/-- What the mark `#` begins: bytes if a digit follows it. -/
def scanBytes (cs : List Char) : TokenKind × Nat :=
  match runLength isHexDigit cs with
  | 0 => (.invalid, 0)
  | n => (.bytesLiteral, n)

/-- What the digits after `0x` begin. A `#` and a number after them make a reference to an output
of a transaction; a point and a closed string make an asset; anything else leaves them alone. The
answer counts from the `x`. -/
def scanHex (digits : List Char) : TokenKind × Nat :=
  let n := runLength isHexDigit digits
  match digits.drop n with
  | '#' :: rest =>
    match runLength Char.isDigit rest with
    | 0 => (.hexLiteral, n + 1)
    | m => (.utxoRefLiteral, n + 2 + m)
  | '.' :: '"' :: rest =>
    match stringLength rest with
    | (true, m) => (.assetLiteral, n + 3 + m)
    | (false, _) => (.hexLiteral, n + 1)
  | _ => (.hexLiteral, n + 1)

/-! ## Names and symbols -/

/-- The kind of a word: the reserved word that it spells, or else an identifier. -/
def wordKind (word : List Char) : TokenKind :=
  (TokenKind.keyword? (String.ofList word)).getD .ident

/-- The symbol that begins with `c` before `cs`, the longest one. -/
def scanSymbol (c : Char) (cs : List Char) : TokenKind × Nat :=
  match c, cs with
  | '.', '.' :: '.' :: _ => (.spread, 2)
  | ':', ':' :: _ => (.colonColon, 1)
  | '=', '=' :: _ => (.eqEq, 1)
  | '!', '=' :: _ => (.notEq, 1)
  | '<', '=' :: _ => (.le, 1)
  | '>', '=' :: _ => (.ge, 1)
  | '&', '&' :: _ => (.andAnd, 1)
  | '|', '|' :: _ => (.orOr, 1)
  | '+', _ => (.plus, 0)
  | '-', _ => (.minus, 0)
  | '*', _ => (.star, 0)
  | '/', _ => (.slash, 0)
  | '<', _ => (.lt, 0)
  | '>', _ => (.gt, 0)
  | '!', _ => (.bang, 0)
  | '=', _ => (.eq, 0)
  | '?', _ => (.question, 0)
  | '|', _ => (.pipe, 0)
  | '{', _ => (.lBrace, 0)
  | '}', _ => (.rBrace, 0)
  | '(', _ => (.lParen, 0)
  | ')', _ => (.rParen, 0)
  | '[', _ => (.lBracket, 0)
  | ']', _ => (.rBracket, 0)
  | ',', _ => (.comma, 0)
  | ';', _ => (.semicolon, 0)
  | ':', _ => (.colon, 0)
  | '.', _ => (.dot, 0)
  | _, _ => (.invalid, 0)

end Scan

open Scan

/-- **The token that begins at `c` before `cs`**: its kind, and how many characters of `cs` belong
to it. -/
def scan (c : Char) (cs : List Char) : TokenKind × Nat :=
  if Text.isBlank c then
    (.whitespace, runLength Text.isBlank cs)
  else if c == '/' && cs.head? == some '/' then
    (.lineComment, runLength (· != '\n') cs)
  else if c == '/' && cs.head? == some '*' then
    (.blockComment, commentLength (cs.drop 1) + 1)
  else if c == '"' then
    (.stringLiteral, (stringLength cs).2)
  else if c == '#' then
    scanBytes cs
  else if c == '0' && cs.head? == some 'x' && (cs.drop 1).head?.any isHexDigit then
    scanHex (cs.drop 1)
  else if c.isDigit then
    (.intLiteral, runLength Char.isDigit cs)
  else if isNameStart c then
    let n := runLength isNameRest cs
    (wordKind (c :: cs.take n), n)
  else
    scanSymbol c cs

/-- The tokens of the characters that begin at the byte `start`. -/
def tokensFrom (start : Nat) (cs : List Char) : List Token :=
  match cs with
  | [] => []
  | c :: rest =>
    let (kind, n) := scan c rest
    let token := Token.ofText kind (String.ofList (c :: rest.take n)) start
    token :: tokensFrom token.span.stop (rest.drop n)
termination_by cs.length
decreasing_by simp only [List.length_drop, List.length_cons]; omega

/-- **The tokens of a text**, white space and comments among them. -/
def tokenize (text : String) : List Token := tokensFrom 0 text.toList

end TxTree
