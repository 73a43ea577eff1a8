set_option relaxedAutoImplicit false
set_option autoImplicit false

/-!
# Lines and columns

A line index turns byte offsets of a text into lines and columns, both counted from one. Columns
count characters; an offset inside a character has no count of characters before it, and its
column counts bytes instead. An offset after the end of the text stands for the end.

## Main definitions

* `TxTree.Text.LineIndex` — the lines of a text with the byte at which each begins.
* `TxTree.Text.LineIndex.position` — the line and the column of an offset.
-/

namespace TxTree.Text

/-- A line of a text: the byte at which it begins, and its characters without the line end. -/
structure Line where
  /-- The offset of the first byte of the line. -/
  start : Nat
  /-- The characters of the line. -/
  chars : List Char
deriving DecidableEq, Repr

/-- A line and a column, counted from one. -/
structure Position where
  /-- The number of the line. -/
  line : Nat
  /-- The number of the column. -/
  column : Nat
deriving DecidableEq, Repr

/-- The number of characters that take up the first `bytes` bytes exactly, unless the last of
these bytes lies inside a character or there are not so many. -/
def charsIn? : List Char → Nat → Option Nat
  | _, 0 => some 0
  | [], _ + 1 => none
  | c :: rest, bytes + 1 =>
    if c.utf8Size ≤ bytes + 1 then (charsIn? rest (bytes + 1 - c.utf8Size)).map (· + 1) else none

/-- The lines of a text and its size in bytes. -/
structure LineIndex where
  /-- The lines, from first to last. -/
  lines : List Line
  /-- The size of the text in bytes. -/
  size : Nat
deriving DecidableEq, Repr

namespace LineIndex

/-- The lines of the characters that begin at the byte `start`. There is a line after the last
line end, and it may be empty. -/
def linesFrom (start : Nat) : List Char → List Line
  | [] => [⟨start, []⟩]
  | c :: rest =>
    if c == '\n' then
      ⟨start, []⟩ :: linesFrom (start + 1) rest
    else
      match linesFrom (start + c.utf8Size) rest with
      | [] => [⟨start, [c]⟩]
      | line :: lines => ⟨start, c :: line.chars⟩ :: lines

/-- The line index of a text. -/
def ofText (text : String) : LineIndex := ⟨linesFrom 0 text.toList, text.utf8ByteSize⟩

/-- **The line and the column of an offset**: the last line that begins at or before it, and its
place in that line. -/
def position (index : LineIndex) (offset : Nat) : Position :=
  let offset := min offset index.size
  let before := index.lines.takeWhile (·.start ≤ offset)
  match before.getLast? with
  | none => ⟨1, 1⟩
  | some line =>
    let bytes := offset - line.start
    ⟨before.length, (charsIn? line.chars bytes).getD bytes + 1⟩

end LineIndex

end TxTree.Text
