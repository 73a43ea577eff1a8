set_option relaxedAutoImplicit false
set_option autoImplicit false

/-!
# JSON values and their texts

A JSON value, and the two ways in which it is written: compact, without any space, and pretty,
with each item and member on a line of its own, two spaces deeper than what contains it. Members
keep the order in which they are given.

## Main definitions

* `TxTree.Json` — the values.
* `TxTree.Json.compact`, `TxTree.Json.pretty` — their texts.
* `TxTree.Json.sortKeys` — a value with the members of all its objects in the order of their keys.
-/

namespace TxTree

/-- The values of JSON, as far as they can be told apart after reading. -/
inductive Json where
  | null
  | bool (value : Bool)
  /-- An unsigned integer. -/
  | number (value : Nat)
  /-- Any other number, as it is written. -/
  | numeral (text : String)
  | string (value : String)
  | array (items : List Json)
  | object (members : List (String × Json))
  /-- A string, or an object one of whose keys is a string, that spells half of a surrogate pair
  and so is no text. -/
  | broken
deriving Repr, Inhabited

namespace Json

/-! ## Strings -/

/-- The escape of a control character by its number, in four digits. -/
def controlEscape (c : Char) : List Char :=
  let digits := Nat.toDigits 16 c.toNat
  ['\\', 'u'] ++ List.replicate (4 - digits.length) '0' ++ digits

/-- A character of a string as it is written. -/
def writeChar (c : Char) : List Char :=
  match c with
  | '"' => ['\\', '"']
  | '\\' => ['\\', '\\']
  | '\x08' => ['\\', 'b']
  | '\x0c' => ['\\', 'f']
  | '\n' => ['\\', 'n']
  | '\r' => ['\\', 'r']
  | '\t' => ['\\', 't']
  | c => if c.toNat < 0x20 then controlEscape c else [c]

/-- **A string as it is written**: in quotes, with quotes, backslashes and control characters
escaped. -/
def writeString (s : String) : String :=
  String.ofList ('"' :: s.toList.flatMap writeChar ++ ['"'])

/-- A number as it is written, in base ten. -/
def writeNat (n : Nat) : String := String.ofList (Nat.toDigits 10 n)

/-- The text of a value that holds no others. -/
def writeScalar : Json → String
  | .null => "null"
  | .bool true => "true"
  | .bool false => "false"
  | .number n => writeNat n
  | .numeral text => text
  | .string s => writeString s
  | _ => ""

/-! ## The compact text -/

mutual

/-- A value behind the text `out`, without any space. -/
def write (out : String) : Json → String
  | .array items => writeItems (out ++ "[") items ++ "]"
  | .object members => writeMembers (out ++ "\x7b") members ++ "\x7d"
  | v => out ++ writeScalar v

/-- Items behind the text `out`, with commas between them. -/
def writeItems (out : String) : List Json → String
  | [] => out
  | [v] => write out v
  | v :: rest => writeItems (write out v ++ ",") rest

/-- Members behind the text `out`, with commas between them. -/
def writeMembers (out : String) : List (String × Json) → String
  | [] => out
  | [(k, v)] => write (out ++ writeString k ++ ":") v
  | (k, v) :: rest => writeMembers (write (out ++ writeString k ++ ":") v ++ ",") rest

end

/-- **The compact text of a value.** -/
def compact (v : Json) : String := write "" v

/-! ## The pretty text -/

/-- A line end and the spaces of a depth. -/
def newline (depth : Nat) : String := String.ofList ('\n' :: List.replicate (2 * depth) ' ')

mutual

/-- A value behind the text `out`, on several lines, at a depth. -/
def writePretty (depth : Nat) (out : String) : Json → String
  | .array [] => out ++ "[]"
  | .array items => writePrettyItems (depth + 1) (out ++ "[") items ++ newline depth ++ "]"
  | .object [] => out ++ "\x7b\x7d"
  | .object members =>
    writePrettyMembers (depth + 1) (out ++ "\x7b") members ++ newline depth ++ "\x7d"
  | v => out ++ writeScalar v

/-- Items behind the text `out`, on lines of their own, with commas between them. -/
def writePrettyItems (depth : Nat) (out : String) : List Json → String
  | [] => out
  | [v] => writePretty depth (out ++ newline depth) v
  | v :: rest =>
    writePrettyItems depth (writePretty depth (out ++ newline depth) v ++ ",") rest

/-- Members behind the text `out`, on lines of their own, with commas between them. -/
def writePrettyMembers (depth : Nat) (out : String) : List (String × Json) → String
  | [] => out
  | [(k, v)] => writePretty depth (out ++ newline depth ++ writeString k ++ ": ") v
  | (k, v) :: rest =>
    writePrettyMembers depth
      (writePretty depth (out ++ newline depth ++ writeString k ++ ": ") v ++ ",") rest

end

/-- **The pretty text of a value.** -/
def pretty (v : Json) : String := writePretty 0 "" v

/-! ## The order of members -/

mutual

/-- A value with the members of all its objects in the order of their keys. -/
def sortKeys : Json → Json
  | .array items => .array (sortKeysOfItems items)
  | .object members => .object ((sortKeysOfMembers members).mergeSort fun a b => a.1 ≤ b.1)
  | v => v

/-- Items with their members in order. -/
def sortKeysOfItems : List Json → List Json
  | [] => []
  | v :: rest => v.sortKeys :: sortKeysOfItems rest

/-- Members with the members of their values in order. -/
def sortKeysOfMembers : List (String × Json) → List (String × Json)
  | [] => []
  | (k, v) :: rest => (k, v.sortKeys) :: sortKeysOfMembers rest

end

end Json

end TxTree
