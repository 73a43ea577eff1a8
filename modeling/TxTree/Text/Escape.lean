import TxTree.Text.GraphemeExtend
import TxTree.Text.Printable

set_option relaxedAutoImplicit false
set_option autoImplicit false

/-!
# Escaped text

To show a text on one line between quotes, each character that would break the line, close the
quotes or leave no mark of its own is written by an escape that starts with a backslash.

## Main definitions

* `TxTree.Text.hex` — a number in base sixteen, small letters, no leading zeros.
* `TxTree.Text.escape` — the escaped form of a text.
-/

namespace TxTree.Text

/-- A number in base sixteen. -/
def hex (n : Nat) : List Char := Nat.toDigits 16 n

/-- The escape of a character by its number. -/
def codeEscape (c : Char) : List Char := "\\u\x7b".toList ++ hex c.toNat ++ ['}']

/-- The escaped form of a character that stands behind others. -/
def escapeChar (c : Char) : List Char :=
  match c with
  | '\x00' => ['\\', '0']
  | '\t' => ['\\', 't']
  | '\r' => ['\\', 'r']
  | '\n' => ['\\', 'n']
  | '\'' => ['\\', '\'']
  | '"' => ['\\', '"']
  | '\\' => ['\\', '\\']
  | c => if isPrintable c then [c] else codeEscape c

/-- The escaped form of the first character: a mark that extends the character before it has none
to extend, and is written by its number. -/
def escapeFirst (c : Char) : List Char :=
  if isGraphemeExtend c then codeEscape c else escapeChar c

/-- **The escaped form of a text.** -/
def escape (text : String) : String :=
  match text.toList with
  | [] => ""
  | c :: rest => String.ofList (escapeFirst c ++ rest.flatMap escapeChar)

end TxTree.Text
