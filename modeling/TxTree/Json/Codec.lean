import TxTree.Json.Basic
import TxTree.Parse

set_option relaxedAutoImplicit false
set_option autoImplicit false

/-!
# Trees and diagnostics as JSON

How the types of the library are encoded as JSON, and how those that are also read are decoded.
A record is an object; it is also read from an array of exactly its fields. Members that are not
fields are passed over, and a field that is missing or given twice makes the record unreadable. A
kind or a severity is a string; it is also read from an object of one member without a value.

## Main definitions

* `TxTree.Span.toJson`, `TxTree.Severity.toJson`, `TxTree.Diagnostic.toJson`,
  `TxTree.TokenKind.toJson`, `TxTree.NodeKind.toJson`, and `ofJson?` for each of them.
* `TxTree.Token.toJson`, `TxTree.Node.toJson`, `TxTree.Parse.toJson` — the results of parsing.
-/

namespace TxTree

/-! ## Shapes -/

namespace Json

/-- The offset that a value stands for. -/
def toOffset? : Json → Option Nat
  | .number n => if n < Span.offsetBound then some n else none
  | _ => none

/-- The text that a value stands for. -/
def toText? : Json → Option String
  | .string s => some s
  | _ => none

/-- The value of a member that is given exactly once. -/
def member? (members : List (String × Json)) (key : String) : Option Json :=
  match members.filter (·.1 == key) with
  | [(_, v)] => some v
  | _ => none

/-- **The fields of a record**, by their names in an object or by their places in an array. -/
def fields? (names : List String) : Json → Option (List Json)
  | .object members => names.mapM (member? members)
  | .array items => if items.length = names.length then some items else none
  | _ => none

/-- **The word that a value stands for**: a string, or the only key of an object, without a
value. -/
def word? : Json → Option String
  | .string s => some s
  | .object [(s, .null)] => some s
  | _ => none

end Json

/-! ## Kinds and severities -/

namespace TokenKind

/-- A kind of token is encoded by its tag. -/
def toJson (k : TokenKind) : Json := .string k.tag

/-- The kind of a tag. -/
def ofJson? (v : Json) : Option TokenKind := v.word?.bind ofTag?

end TokenKind

namespace NodeKind

/-- A kind of node is encoded by its tag. -/
def toJson (k : NodeKind) : Json := .string k.tag

/-- The kind of a tag. -/
def ofJson? (v : Json) : Option NodeKind := v.word?.bind ofTag?

end NodeKind

namespace Severity

/-- A severity is encoded by its name. -/
def toJson (s : Severity) : Json := .string s.name

/-- The severity of a name. -/
def ofJson? (v : Json) : Option Severity :=
  v.word?.bind fun name => [Severity.error, .warning].find? (·.name == name)

end Severity

/-! ## Spans and diagnostics -/

namespace Span

/-- A span is encoded by its two offsets. -/
def toJson (s : Span) : Json := .object [("start", .number s.start), ("end", .number s.stop)]

/-- The span of two offsets. -/
def ofJson? (v : Json) : Option Span := do
  match ← v.fields? ["start", "end"] with
  | [start, stop] => return ⟨← start.toOffset?, ← stop.toOffset?⟩
  | _ => none

end Span

namespace Diagnostic

/-- A diagnostic is encoded by its span, its message and its severity. -/
def toJson (d : Diagnostic) : Json :=
  .object
    [("span", d.span.toJson), ("message", .string d.message), ("severity", d.severity.toJson)]

/-- The diagnostic of a span, a message and a severity. -/
def ofJson? (v : Json) : Option Diagnostic := do
  match ← v.fields? ["span", "message", "severity"] with
  | [span, message, severity] =>
    return ⟨← Span.ofJson? span, ← message.toText?, ← Severity.ofJson? severity⟩
  | _ => none

end Diagnostic

/-! ## Tokens, trees and parses -/

/-- A token is encoded by its kind, its text and its span. -/
def Token.toJson (t : Token) : Json :=
  .object [("kind", t.kind.toJson), ("text", .string t.text), ("span", t.span.toJson)]

mutual

/-- A node is encoded by its kind, its span and its children. -/
def Node.toJson : Node → Json
  | ⟨k, s, cs⟩ =>
    .object
      [("kind", k.toJson), ("span", s.toJson), ("children", .array (Element.toJsonList cs))]

/-- Each child is encoded as the token or the node that it is. -/
def Element.toJsonList : List Element → List Json
  | [] => []
  | .token t :: cs => t.toJson :: Element.toJsonList cs
  | .node n :: cs => n.toJson :: Element.toJsonList cs

end

/-- **A parse as JSON**: its tokens, its tree and its diagnostics. -/
def Parse.toJson (p : Parse) : Json :=
  .object
    [("tokens", .array (p.tokens.map Token.toJson)), ("root", p.root.toJson),
      ("diagnostics", .array (p.diagnostics.map Diagnostic.toJson))]

end TxTree
