import TxTree.Loop
import TxTree.Token.Scan

set_option relaxedAutoImplicit false
set_option autoImplicit false

/-!
# A cursor over the bytes of a text

Tokens can be read with a cursor, which is the number of a byte of the text. It moves on by the
bytes of the characters that it passes, by those of the marks and symbols that it knows, to where a
search ends, or to the end of the text; and after a literal that did not come to its end it goes
back. Nothing but the text tells whether it then stands between two characters. To look at what
comes next is to cut the text at the cursor, and a cut inside a character or behind the end fails.

A loop goes on as long as the cursor comes nearer to the end, and fails if it does not. So each
reading function has an answer only if it came to an end and no cut failed on the way. That they all
do, and that the cursor moves on with each token, is nothing that their definitions say.

## Main definitions

* `TxTree.Cursor.cut?` — the piece of a text between two bytes.
* `TxTree.Cursor.read?` — the kind of the token that begins at the cursor, and where it ends.
* `TxTree.Cursor.nextToken?` — the token that begins at the cursor.
* `TxTree.Cursor.tokenize?` — the tokens of a text.
-/

namespace TxTree.Cursor

open Scan

/-! ## Cuts -/

/-- **The piece of a text between two bytes**, unless one of them is inside a character or behind
the end, or the second is before the first. -/
def cut? (text : String) (start stop : Nat) : Option String :=
  if h : (⟨start⟩ : String.Pos.Raw).IsValid text ∧ (⟨stop⟩ : String.Pos.Raw).IsValid text ∧
      start ≤ stop then
    some (text.extract ⟨⟨start⟩, h.1⟩ ⟨⟨stop⟩, h.2.1⟩)
  else none

/-- The number of bytes before the first place where a mark is spelled. -/
def bytesBefore? (mark : List Char) : List Char → Option Nat
  | [] => if mark.isEmpty then some 0 else none
  | c :: cs =>
    if mark.isPrefixOf (c :: cs) then some 0 else (bytesBefore? mark cs).map (c.utf8Size + ·)

section Reading

variable (text : String)

/-- What is left of the text behind the cursor. -/
def rest? (position : Nat) : Option (List Char) :=
  (cut? text position text.utf8ByteSize).map String.toList

/-- The character so many characters behind the cursor, if there is one. -/
def peek? (position ahead : Nat) : Option (Option Char) := (rest? text position).map (·[ahead]?)

/-! ## Characters -/

/-- The cursor passes the next character, if there is one. -/
def advance? (position : Nat) : Option Nat := do
  match ← peek? text position 0 with
  | none => return position
  | some c => return position + c.utf8Size

/-- The cursor passes characters as long as they satisfy `p`. -/
def advanceWhile? (p : Char → Bool) (position : Nat) : Option Nat :=
  loop? (text.utf8ByteSize - ·) (s := position) fun position => do
    match ← peek? text position 0 with
    | none => return .inr position
    | some c => return if p c then .inl (position + c.utf8Size) else .inr position

/-! ## Comments and strings -/

/-- The cursor passes a block comment: two bytes, and then all through the closing mark, or to the
end of the text. -/
def blockComment? (position : Nat) : Option (TokenKind × Nat) := do
  let position := position + 2
  match bytesBefore? ['*', '/'] (← rest? text position) with
  | some bytes => return (.blockComment, position + (bytes + 2))
  | none => return (.blockComment, text.utf8ByteSize)

/-- The cursor passes what is behind the opening quote of a string; whether there is a closing
one. -/
def stringRest? (position : Nat) : Option (Bool × Nat) :=
  loop? (text.utf8ByteSize - ·) (s := position) fun position => do
    match ← peek? text position 0 with
    | none => return .inr (false, position)
    | some '"' => return .inr (true, ← advance? text position)
    | some '\n' => return .inr (false, position)
    | some '\\' =>
      let position ← advance? text position
      if (← peek? text position 0).any (· != '\n') then
        return .inl (← advance? text position)
      else
        return .inl position
    | some _ => return .inl (← advance? text position)

/-- The cursor passes a string; whether it is closed. -/
def string? (position : Nat) : Option (Bool × Nat) := do
  stringRest? text (← advance? text position)

/-! ## Literals -/

/-- The cursor passes the mark `#`, and the digits behind it. -/
def bytes? (position : Nat) : Option (TokenKind × Nat) := do
  let position ← advance? text position
  if (← peek? text position 0).any isHexDigit then
    return (.bytesLiteral, ← advanceWhile? text isHexDigit position)
  else
    return (.invalid, position)

/-- The cursor passes what makes a reference or an asset of the digits before it. It goes back to
where it was if the string of an asset is not closed. -/
def behindDigits? (position : Nat) : Option (TokenKind × Nat) := do
  let next ← peek? text position 0
  let second ← peek? text position 1
  if next == some '#' && second.any Char.isDigit then
    let behind ← advance? text position
    return (.utxoRefLiteral, ← advanceWhile? text Char.isDigit behind)
  else if next == some '.' && second == some '"' then
    let (closed, stop) ← string? text (← advance? text position)
    return if closed then (.assetLiteral, stop) else (.hexLiteral, position)
  else
    return (.hexLiteral, position)

/-- The cursor passes `0x`, two bytes, and the digits behind it, and what comes next if it belongs
to the literal. -/
def hexFamily? (position : Nat) : Option (TokenKind × Nat) := do
  behindDigits? text (← advanceWhile? text isHexDigit (position + 2))

/-! ## Symbols -/

/-- The symbols of more than one character, and the bytes that each takes up. -/
def wideSymbols : List (String × TokenKind × Nat) :=
  [("...", .spread, 3), ("::", .colonColon, 2), ("==", .eqEq, 2), ("!=", .notEq, 2),
    ("<=", .le, 2), (">=", .ge, 2), ("&&", .andAnd, 2), ("||", .orOr, 2)]

/-- The kind of a symbol of one character. -/
def symbolKind : Option Char → TokenKind
  | some c => (scanSymbol c []).1
  | none => .invalid

/-- The cursor passes the bytes of a long symbol, or else one character. -/
def symbol? (position : Nat) : Option (TokenKind × Nat) := do
  let rest ← rest? text position
  match wideSymbols.find? (·.1.toList.isPrefixOf rest) with
  | some (_, kind, bytes) => return (kind, position + bytes)
  | none =>
    let kind := symbolKind (← peek? text position 0)
    return (kind, ← advance? text position)

/-! ## Tokens -/

/-- **The kind of the token that begins at the cursor** with the character `c`, and where it
ends. -/
def read? (c : Char) (start : Nat) : Option (TokenKind × Nat) := do
  if Text.isBlank c then
    return (.whitespace, ← advanceWhile? text Text.isBlank start)
  else if c == '/' && (← peek? text start 1) == some '/' then
    return (.lineComment, ← advanceWhile? text (· != '\n') start)
  else if c == '/' && (← peek? text start 1) == some '*' then
    blockComment? text start
  else if c == '"' then
    return (.stringLiteral, (← string? text start).2)
  else if c == '#' then
    bytes? text start
  else if c == '0' && (← peek? text start 1) == some 'x' &&
      (← peek? text start 2).any isHexDigit then
    hexFamily? text start
  else if c.isDigit then
    return (.intLiteral, ← advanceWhile? text Char.isDigit start)
  else if isNameStart c then
    let stop ← advanceWhile? text isNameRest start
    return (wordKind (← cut? text start stop).toList, stop)
  else
    symbol? text start

/-- **The token that begins at the cursor**, cut out of the text, and where it ends. -/
def nextToken? (start : Nat) : Option (Token × Nat) := do
  match ← peek? text start 0 with
  | none => return (.ofText .invalid (← cut? text start start) start, start)
  | some c =>
    let (kind, stop) ← read? text c start
    return (.ofText kind (← cut? text start stop) start, stop)

/-- The tokens from the cursor on are read, one after the other, behind those that were. -/
def tokensFrom? (position : Nat) (tokens : List Token) : Option (List Token) :=
  loop? (text.utf8ByteSize - ·.1) (s := (position, tokens)) fun (position, tokens) => do
    if text.utf8ByteSize ≤ position then return .inr tokens
    let (token, stop) ← nextToken? text position
    return .inl (stop, tokens ++ [token])

/-- **The tokens of a text** that a cursor reads from its first byte on. -/
def tokenize? : Option (List Token) := tokensFrom? text 0 []

end Reading

end TxTree.Cursor
