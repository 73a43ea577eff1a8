import TxTree.Json.Basic

set_option relaxedAutoImplicit false
set_option autoImplicit false

/-!
# Reading JSON

A JSON text is cut into lexemes, and a machine puts the lexemes together to a value. The machine
keeps the arrays and objects that are still open on a stack, so that values may nest as deep as
they like.

## Main definitions

* `TxTree.Json.Lexeme`, `TxTree.Json.lex` — the lexemes of a text.
* `TxTree.Json.Machine`, `TxTree.Json.Machine.step` — the machine.
* `TxTree.Json.read?` — the value of a text, if it is one.
-/

namespace TxTree.Json

/-! ## Strings -/

/-- A part of a string: a character, or a unit of sixteen bits given by its number. -/
inductive Piece where
  | char (c : Char)
  | unit (n : Nat)
deriving DecidableEq, Repr

/-- The value of a digit in base sixteen. -/
def hexValue? (c : Char) : Option Nat :=
  if c.isDigit then some (c.toNat - '0'.toNat)
  else if 'a' ≤ c && c ≤ 'f' then some (c.toNat - 'a'.toNat + 10)
  else if 'A' ≤ c && c ≤ 'F' then some (c.toNat - 'A'.toNat + 10)
  else none

/-- The value of four digits in base sixteen. -/
def unit? (a b c d : Char) : Option Nat := do
  let a ← hexValue? a
  let b ← hexValue? b
  let c ← hexValue? c
  let d ← hexValue? d
  return ((a * 16 + b) * 16 + c) * 16 + d

/-- What a character after a backslash stands for. -/
def escaped? : Char → Option Char
  | '"' => some '"'
  | '\\' => some '\\'
  | '/' => some '/'
  | 'b' => some '\x08'
  | 'f' => some '\x0c'
  | 'n' => some '\n'
  | 'r' => some '\r'
  | 't' => some '\t'
  | _ => none

/-- The parts of a string behind its opening quote, and the number of characters through the
closing one. -/
def pieces? : List Char → Option (List Piece × Nat)
  | [] => none
  | '"' :: _ => some ([], 1)
  | '\\' :: 'u' :: a :: b :: c :: d :: rest => do
    let n ← unit? a b c d
    let (ps, k) ← pieces? rest
    return (.unit n :: ps, k + 6)
  | '\\' :: c :: rest => do
    let e ← escaped? c
    let (ps, k) ← pieces? rest
    return (.char e :: ps, k + 2)
  | c :: rest =>
    if c.toNat < 0x20 then none
    else do
      let (ps, k) ← pieces? rest
      return (.char c :: ps, k + 1)

/-- Whether a unit is the first of a pair. -/
def isHighSurrogate (n : Nat) : Bool := 0xd800 ≤ n && n < 0xdc00

/-- Whether a unit is the second of a pair. -/
def isLowSurrogate (n : Nat) : Bool := 0xdc00 ≤ n && n < 0xe000

/-- **The text of the parts of a string.** Two units that make a pair stand for one character; a
half of a pair alone stands for none. -/
def textOf? : List Piece → Option (List Char)
  | [] => some []
  | .char c :: rest => (textOf? rest).map (c :: ·)
  | .unit n :: .unit m :: rest =>
    if isHighSurrogate n then
      if isLowSurrogate m then
        (textOf? rest).map (Char.ofNat (0x10000 + (n - 0xd800) * 0x400 + (m - 0xdc00)) :: ·)
      else none
    else if isLowSurrogate n then none
    else (textOf? (.unit m :: rest)).map (Char.ofNat n :: ·)
  | .unit n :: rest =>
    if isHighSurrogate n || isLowSurrogate n then none
    else (textOf? rest).map (Char.ofNat n :: ·)

/-! ## Numbers -/

/-- The number of digits at the front. -/
def digitCount (cs : List Char) : Nat := (cs.takeWhile Char.isDigit).length

/-- The value of digits in base ten. -/
def valueOf (digits : List Char) : Nat :=
  digits.foldl (fun n c => n * 10 + (c.toNat - '0'.toNat)) 0

/-- The number of characters of the digits of an integer: one zero, or digits that begin with
another. -/
def integerLength? (cs : List Char) : Option Nat :=
  match digitCount cs with
  | 0 => none
  | 1 => some 1
  | n => if cs.head? == some '0' then none else some n

/-- The number of characters of a fraction, if there is one; a point needs digits. -/
def fractionLength? : List Char → Option Nat
  | '.' :: rest => if digitCount rest = 0 then none else some (digitCount rest + 1)
  | _ => some 0

/-- The number of characters of an exponent, if there is one; its mark needs digits. -/
def exponentLength? : List Char → Option Nat
  | [] => some 0
  | e :: rest =>
    if e == 'e' || e == 'E' then
      let sign := if rest.head? == some '+' || rest.head? == some '-' then 1 else 0
      let n := digitCount (rest.drop sign)
      if n = 0 then none else some (n + sign + 1)
    else some 0

/-- **A number** and the number of its characters: an unsigned integer by its value, and any other
as it is written. -/
def number? (cs : List Char) : Option (Json × Nat) := do
  let sign := if cs.head? == some '-' then 1 else 0
  let whole ← integerLength? (cs.drop sign)
  let fraction ← fractionLength? (cs.drop (sign + whole))
  let exponent ← exponentLength? (cs.drop (sign + whole + fraction))
  let length := sign + whole + fraction + exponent
  if length = whole then return (.number (valueOf (cs.take whole)), whole)
  else return (.numeral (String.ofList (cs.take length)), length)

/-! ## Lexemes -/

/-- The lexemes of JSON. -/
inductive Lexeme where
  | openBrace | closeBrace | openBracket | closeBracket | comma | colon
  /-- A number or one of the three words. -/
  | scalar (value : Json)
  /-- A string, and its text if it has one. -/
  | string (text : Option String)
deriving Repr

/-- The white space of JSON. -/
def isSpace (c : Char) : Bool := c == ' ' || c == '\t' || c == '\n' || c == '\r'

/-- The lexeme that begins at `c` before `cs`, and how many characters of `cs` belong to it. -/
def lexeme? (c : Char) (cs : List Char) : Option (Lexeme × Nat) :=
  match c with
  | '{' => some (.openBrace, 0)
  | '}' => some (.closeBrace, 0)
  | '[' => some (.openBracket, 0)
  | ']' => some (.closeBracket, 0)
  | ',' => some (.comma, 0)
  | ':' => some (.colon, 0)
  | '"' => (pieces? cs).map fun (ps, n) => (.string ((textOf? ps).map String.ofList), n)
  | 'n' => if "ull".toList.isPrefixOf cs then some (.scalar .null, 3) else none
  | 't' => if "rue".toList.isPrefixOf cs then some (.scalar (.bool true), 3) else none
  | 'f' => if "alse".toList.isPrefixOf cs then some (.scalar (.bool false), 4) else none
  | c => (number? (c :: cs)).map fun (v, n) => (.scalar v, n - 1)

/-- **The lexemes of a text**, the white space between them left out. -/
def lex (cs : List Char) : Option (List Lexeme) :=
  match cs with
  | [] => some []
  | c :: rest =>
    if isSpace c then lex rest
    else
      match lexeme? c rest with
      | none => none
      | some (l, n) => (lex (rest.drop n)).map (l :: ·)
termination_by cs.length
decreasing_by all_goals simp only [List.length_drop, List.length_cons]; omega

/-! ## The machine -/

/-- An array or object that is still open, what it holds so far in reverse. -/
inductive Container where
  | array (items : List Json)
  /-- An object is broken once one of its keys was; `name` is the last key. -/
  | object (members : List (String × Json)) (isBroken : Bool) (name : String)
deriving Repr

/-- The state of the machine: what may come next, and the containers that are open, from the
inside out. -/
inductive Machine where
  /-- A value. -/
  | value (stack : List Container)
  /-- A value, or the end of the array just opened. -/
  | firstItem (stack : List Container)
  /-- A key, or the end of the object just opened. -/
  | firstKey (members : List (String × Json)) (isBroken : Bool) (stack : List Container)
  /-- A key. -/
  | key (members : List (String × Json)) (isBroken : Bool) (stack : List Container)
  /-- The colon behind a key. -/
  | colon (stack : List Container)
  /-- A comma, or the end of the innermost container. -/
  | next (stack : List Container)
  /-- Nothing. -/
  | finished (value : Json)
deriving Repr

namespace Machine

/-- A value reaches the innermost container, or is the whole. -/
def deliver (v : Json) : List Container → Machine
  | [] => .finished v
  | .array items :: stack => .next (.array (v :: items) :: stack)
  | .object members isBroken name :: stack =>
    .next (.object ((name, v) :: members) isBroken name :: stack)

/-- The value of a container that is closed. -/
def close : Container → Json
  | .array items => .array items.reverse
  | .object members isBroken _ => if isBroken then .broken else .object members.reverse

/-- A value begins. -/
def begin (stack : List Container) : Lexeme → Option Machine
  | .scalar v => some (deliver v stack)
  | .string (some s) => some (deliver (.string s) stack)
  | .string none => some (deliver .broken stack)
  | .openBracket => some (.firstItem (.array [] :: stack))
  | .openBrace => some (.firstKey [] false stack)
  | _ => none

/-- A key is read. -/
def readKey (members : List (String × Json)) (isBroken : Bool) (stack : List Container) :
    Lexeme → Option Machine
  | .string (some k) => some (.colon (.object members isBroken k :: stack))
  | .string none => some (.colon (.object members true "" :: stack))
  | _ => none

/-- **One lexeme**, if it may come next. -/
def step : Machine → Lexeme → Option Machine
  | .value stack, l => begin stack l
  | .firstItem (.array items :: stack), .closeBracket =>
    some (deliver (close (.array items)) stack)
  | .firstItem stack, l => begin stack l
  | .firstKey members isBroken stack, .closeBrace =>
    some (deliver (close (.object members isBroken "")) stack)
  | .firstKey members isBroken stack, l => readKey members isBroken stack l
  | .key members isBroken stack, l => readKey members isBroken stack l
  | .colon stack, .colon => some (.value stack)
  | .next (.array items :: stack), .comma => some (.value (.array items :: stack))
  | .next (.object members isBroken _ :: stack), .comma => some (.key members isBroken stack)
  | .next (.array items :: stack), .closeBracket => some (deliver (close (.array items)) stack)
  | .next (.object members isBroken name :: stack), .closeBrace =>
    some (deliver (close (.object members isBroken name)) stack)
  | _, _ => none

/-- The value that the machine ended with. -/
def result? : Machine → Option Json
  | .finished v => some v
  | _ => none

end Machine

/-- **The value of a JSON text**, if it is one. -/
def read? (text : String) : Option Json := do
  let lexemes ← lex text.toList
  let machine ← lexemes.foldlM Machine.step (.value [])
  machine.result?

end TxTree.Json
