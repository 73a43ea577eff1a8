import TxTree.Command.Invocation
import TxTree.Command.Source
import TxTree.Json.Codec
import TxTree.Tree.Dump

set_option relaxedAutoImplicit false
set_option autoImplicit false

/-!
# The commands

The three views of a file: whether it is clean, its tokens, and its tree. Each answers in plain
text or in JSON. Findings are told on the side, with the path, the line and the column; so is the
reason why a file could not be read.

## Main definitions

* `TxTree.Command.Outcome` — what a command prints, and its exit code.
* `TxTree.Command.run` — the outcome of an invocation.
-/

namespace TxTree

/-- The version of the library and of its program. -/
def version : String := "0.1.0"

namespace Command

/-- What a command prints, and its exit code. Each printed text is followed by a line end. -/
structure Outcome where
  /-- The exit code: `0` for success, `1` for a file that is not clean, `2` for no answer. -/
  code : Nat
  /-- What is printed as the answer. -/
  out : List String := []
  /-- What is printed on the side. -/
  err : List String := []
deriving DecidableEq, Repr

/-! ## Colours -/

/-- A text in bold and in the colour of a code, if colours are wanted. -/
def paint (color : Bool) (code : String) (text : String) : String :=
  if color then "\x1b[1;" ++ code ++ "m" ++ text ++ "\x1b[0m" else text

/-- What is amiss is red. -/
def red (color : Bool) (text : String) : String := paint color "31" text

/-- What is well is green. -/
def green (color : Bool) (text : String) : String := paint color "32" text

/-- Warnings are yellow. -/
def yellow (color : Bool) (text : String) : String := paint color "33" text

/-! ## Findings -/

/-- The line of a finding: `path:line:column: severity: message`. -/
def diagnosticLine (color : Bool) (path : String) (index : Text.LineIndex) (d : Diagnostic) :
    String :=
  let pos := index.position d.span.start
  let severity :=
    match d.severity with
    | .error => red color d.severity.name
    | .warning => yellow color d.severity.name
  path ++ ":" ++ toString pos.line ++ ":" ++ toString pos.column ++ ": " ++ severity ++ ": " ++
    d.message

/-- The lines of the findings of a parse. -/
def diagnosticLines (color : Bool) (path source : String) (p : Parse) : List String :=
  p.diagnostics.map (diagnosticLine color path (Text.LineIndex.ofText source))

/-! ## Commands on a text -/

/-- The report of a check in JSON, keys in order. -/
def checkReport (path : String) (p : Parse) : Json :=
  Json.sortKeys <| .object
    [("file", .string path), ("valid", .bool p.isOk), ("errors", .number p.errors.length),
      ("diagnostics", .array (p.diagnostics.map Diagnostic.toJson))]

/-- **Whether a file is clean.** -/
def check (color quiet json : Bool) (path source : String) : Outcome :=
  let p := parse source
  let code := if p.isOk then 0 else 1
  if json then
    { code, out := [(checkReport path p).pretty] }
  else if p.isOk then
    { code, out := if quiet then [] else [green color "✓" ++ " " ++ path ++ " is valid"] }
  else
    let summary :=
      red color "✗" ++ " " ++ toString p.errors.length ++ " syntax error(s) in " ++ path
    { code, err := diagnosticLines color path source p ++ [summary] }

/-- The line of a token: its kind, its escaped text and its span. -/
def tokenLine (t : Token) : String :=
  t.kind.name ++ " '" ++ Text.escape t.text ++ "' " ++ toString t.span

/-- **The tokens of a file**, with or without white space and comments. -/
def tokens (json trivia : Bool) (source : String) : Outcome :=
  let ts := (tokenize source).filter fun t => trivia || !t.isTrivia
  if json then { code := 0, out := [(Json.array (ts.map Token.toJson)).pretty] }
  else { code := 0, out := ts.map tokenLine }

/-- **The tree of a file**, and what is amiss with the file. -/
def tree (color json : Bool) (path source : String) : Outcome :=
  let p := parse source
  if json then { code := 0, out := [p.toJson.pretty] }
  else { code := 0, out := p.root.dumpLines, err := diagnosticLines color path source p }

/-! ## Running -/

/-- How the program is called. -/
def usageLines : List String :=
  ["Usage: tx3-cli [-q] [-v] check FILE [--json]",
    "       tx3-cli [-q] [-v] tokens FILE [--json] [--trivia]",
    "       tx3-cli [-q] [-v] tree FILE [--json]",
    "       tx3-cli [-q] [-v] version",
    "       tx3-cli help [COMMAND]"]

/-- A file that cannot be read leaves nothing to answer. -/
def unreadable (color : Bool) (path : String) (e : ReadError) : Outcome :=
  { code := 2, err := [red color "error:" ++ " cannot read " ++ path ++ ": " ++ e.message] }

/-- The outcome of a command on the text of a file, if it has one. -/
def onFile (color : Bool) (path : String) (source : Except ReadError String)
    (command : String → Outcome) : Outcome :=
  match source with
  | .ok text => command text
  | .error e => unreadable color path e

/-- **The outcome of an invocation**, files being read by `read`. -/
def run (color : Bool) (read : String → Except ReadError String) (i : Invocation) : Outcome :=
  match i.request with
  | .check path json => onFile color path (read path) (check color i.quiet json path)
  | .tokens path json trivia => onFile color path (read path) (tokens json trivia)
  | .tree path json => onFile color path (read path) (tree color json path)
  | .version =>
    { code := 0, out := ["tx3-cli " ++ version ++ " (tx3-core " ++ version ++ ")"] }
  | .programVersion => { code := 0, out := ["tx3-cli " ++ version] }
  | .help => { code := 0, out := usageLines }

/-- The outcome of words that make no invocation. -/
def usage (color : Bool) : Outcome :=
  { code := 2, err := [red color "error:" ++ " unexpected arguments", ""] ++ usageLines }

/-- **The outcome of a command line.** -/
def runArgs (color : Bool) (read : String → Except ReadError String) (args : List String) :
    Outcome :=
  match Invocation.ofArgs? args with
  | some i => run color read i
  | none => usage color

end Command

end TxTree
