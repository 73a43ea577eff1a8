import TxTree.Span
import TxTree.Token.Kind

set_option relaxedAutoImplicit false
set_option autoImplicit false

/-!
# Tokens

A token is a piece of source text with its kind and its place. Two kinds of token can lack their
closing mark: string literals, which end before a line end or the end of the text, and block
comments, which end with the text.

## Main definitions

* `TxTree.Token` — a kind, a text and a span.
* `TxTree.Token.ofText` — the token of a text that begins at an offset.
* `TxTree.Token.ofText?` — the same, absent where offsets are at their end.
* `TxTree.Token.isUnterminated` — a string literal or block comment without its closing mark.
-/

namespace TxTree

/-- A token: its kind, its exact text, and the bytes that the text takes up. -/
structure Token where
  /-- The kind of the token. -/
  kind : TokenKind
  /-- The characters of the token. -/
  text : String
  /-- The bytes of the token in the source. -/
  span : Span
deriving DecidableEq, Repr, Inhabited

namespace Token

/-- The token of kind `kind` whose text begins at the byte `start`. -/
def ofText (kind : TokenKind) (text : String) (start : Nat) : Token :=
  ⟨kind, text, ⟨start, start + text.utf8ByteSize⟩⟩

/-- The token of kind `kind` whose text begins at the byte `start`, absent if the text would end at
no offset. -/
def ofText? (kind : TokenKind) (text : String) (start : Nat) : Option Token :=
  (Span.ofLength? start text.utf8ByteSize).map fun span => ⟨kind, text, span⟩

/-- White space and comments are trivia. -/
def isTrivia (t : Token) : Bool := t.kind.isTrivia

/-- Whether the characters after an opening quote end with the quote that closes it. A backslash
takes the next character with it. -/
def closesQuote : List Char → Bool
  | [] => false
  | '\\' :: [] => false
  | '\\' :: _ :: rest => closesQuote rest
  | '"' :: rest => rest.isEmpty
  | _ :: rest => closesQuote rest

/-- **Unterminated tokens**: a string literal whose last character is not the quote that closes
it, or a block comment that does not end with a closing mark apart from its opening one. -/
def isUnterminated (t : Token) : Bool :=
  match t.kind with
  | .stringLiteral => !closesQuote (t.text.toList.drop 1)
  | .blockComment => t.text.utf8ByteSize < 4 || !(['*', '/'].isSuffixOf t.text.toList)
  | _ => false

/-- Only strings and block comments have a closing mark to lack. -/
theorem isUnterminated_eq_false {t : Token} (hstring : t.kind ≠ .stringLiteral)
    (hcomment : t.kind ≠ .blockComment) : t.isUnterminated = false := by
  rw [isUnterminated]
  split
  · next hkind => exact absurd hkind hstring
  · next hkind => exact absurd hkind hcomment
  · rfl

theorem ofText?_eq_some_iff {kind : TokenKind} {text : String} {start : Nat} {t : Token} :
    ofText? kind text start = some t ↔
      start + text.utf8ByteSize < Span.offsetBound ∧ t = ofText kind text start := by
  simp only [ofText?, Option.map_eq_some_iff, Span.ofLength?_eq_some_iff, ofText]
  constructor
  · rintro ⟨_, ⟨h, rfl⟩, rfl⟩
    exact ⟨h, rfl⟩
  · rintro ⟨h, rfl⟩
    exact ⟨_, ⟨h, rfl⟩, rfl⟩

end Token

end TxTree
