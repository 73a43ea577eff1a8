import TxTree.Span
import TxTree.Text.LineIndex

set_option relaxedAutoImplicit false
set_option autoImplicit false

/-!
# Diagnostics

A diagnostic is a finding about a text: where it is, how grave it is, and what it says. Parsing
gathers all of them and never stops at the first.

## Main definitions

* `TxTree.Severity` — errors and warnings.
* `TxTree.Diagnostic` — a span, a message and a severity.
* `TxTree.Diagnostic.render` — a diagnostic with its line and column.
* `TxTree.Diagnostic.sort` — diagnostics by the start of their spans, in a stable order.
-/

namespace TxTree

/-- How grave a finding is. -/
inductive Severity where
  | error
  | warning
deriving DecidableEq, Repr, Inhabited

namespace Severity

/-- The word for a severity. -/
def name : Severity → String
  | .error => "error"
  | .warning => "warning"

instance : ToString Severity := ⟨name⟩

end Severity

/-- A finding about a text. -/
structure Diagnostic where
  /-- The bytes that it is about. -/
  span : Span
  /-- What it says. -/
  message : String
  /-- How grave it is. -/
  severity : Severity
deriving DecidableEq, Repr, Inhabited

namespace Diagnostic

/-- An error at a span. -/
def error (span : Span) (message : String) : Diagnostic := ⟨span, message, .error⟩

/-- Whether a diagnostic is an error. -/
def isError (d : Diagnostic) : Bool := d.severity == .error

/-- A diagnostic as `line:column: severity: message`, at the start of its span. -/
def render (d : Diagnostic) (index : Text.LineIndex) : String :=
  let pos := index.position d.span.start
  toString pos.line ++ ":" ++ toString pos.column ++ ": " ++ d.severity.name ++ ": " ++ d.message

/-- A diagnostic is shown as `severity at span: message`. -/
instance : ToString Diagnostic where
  toString d := d.severity.name ++ " at " ++ toString d.span ++ ": " ++ d.message

/-- **Diagnostics in the order of the text**: by the start of their spans; those that start at one
place stay in the order in which they were found. -/
def sort (ds : List Diagnostic) : List Diagnostic :=
  ds.mergeSort fun d e => d.span.start ≤ e.span.start

end Diagnostic

end TxTree
