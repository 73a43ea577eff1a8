import TxTree.Diagnostic
import TxTree.Tree.Builder

set_option relaxedAutoImplicit false
set_option autoImplicit false

/-!
# The state of a parse

A parse takes tokens off a stream and hands them to a tree builder. White space and comments are
invisible to its decisions, but every one of them reaches the tree: those before a token are
handed over when the token is, or earlier, when a node is opened there. So a node never begins
with white space or a comment.

## Main definitions

* `TxTree.Grammar.State` — the stream, the tree in the making, and the findings so far.
* `TxTree.Grammar.Lookahead` — what a decision may depend on: the kinds of the next two tokens.
* `TxTree.Grammar.State.bump`, `TxTree.Grammar.State.report`, `TxTree.Grammar.State.start`,
  `TxTree.Grammar.State.startAt`, `TxTree.Grammar.State.finishNode`, `TxTree.Grammar.State.skip` —
  the moves of a parse.
-/

namespace TxTree.Grammar

/-- The stream, the tree in the making, and the findings so far. -/
structure State where
  /-- The tokens that are not in the tree yet. -/
  ahead : List Token
  /-- Where the text ends, for findings about what is missing there. -/
  endOffset : Nat
  /-- The number of tokens taken, white space and comments apart. -/
  cursor : Nat := 0
  /-- The tree in the making. -/
  builder : Builder := {}
  /-- The findings, in the order in which they were made. -/
  diagnostics : Array Diagnostic := #[]
  /-- The first step of the builder that was out of place, if there was one. -/
  fault : Option Builder.Fault := none
  /-- The number of nesting levels around the next token. -/
  depth : Nat := 0
deriving DecidableEq, Repr

/-- The kinds of the next two tokens, white space and comments apart. -/
structure Lookahead where
  /-- The kind of the next token; absent at the end. -/
  first : Option TokenKind
  /-- The kind of the token after it. -/
  second : Option TokenKind
deriving DecidableEq, Repr

/-- A stream from its first token that is neither white space nor comment. -/
def significant (tokens : List Token) : List Token := tokens.dropWhile (·.isTrivia)

/-- The end of the last token of a stream, or zero. -/
def endOf (tokens : List Token) : Nat := (tokens.getLast?.map (·.span.stop)).getD 0

namespace State

/-- The state before the first token of a stream. -/
def ofTokens (tokens : List Token) : State := { ahead := tokens, endOffset := endOf tokens }

/-! ## Looking -/

/-- What comes next. -/
def lookahead (s : State) : Lookahead :=
  match significant s.ahead with
  | [] => ⟨none, none⟩
  | t :: rest => ⟨some t.kind, (significant rest).head?.map (·.kind)⟩

/-- The span of the next token; at the end, the empty span there. -/
def currentSpan (s : State) : Span :=
  match significant s.ahead with
  | [] => Span.emptyAt s.endOffset
  | t :: _ => t.span

/-! ## Tokens -/

/-- The finding about a token that lacks its closing mark. -/
def unterminatedMessage : TokenKind → String
  | .stringLiteral => "Unterminated string literal"
  | _ => "Unterminated block comment"

/-- A token reaches the tree; if it lacks its closing mark, that is a finding. -/
def attach (s : State) (t : Token) : State :=
  { s with
    builder := s.builder.token t
    diagnostics :=
      if t.isUnterminated then
        s.diagnostics.push (.error t.span (unterminatedMessage t.kind))
      else s.diagnostics }

/-- Tokens reach the tree one after the other. -/
def attachAll (s : State) (tokens : List Token) : State := tokens.foldl attach s

/-- The white space and comments before the next token reach the tree. -/
def flush (s : State) : State :=
  { s with ahead := significant s.ahead }.attachAll (s.ahead.takeWhile (·.isTrivia))

/-- The next token is taken, with the white space and comments before it. At the end nothing is
taken. -/
def bump (s : State) : State :=
  match significant s.ahead with
  | [] => s
  | t :: rest =>
    let s := s.flush.attach t
    { s with ahead := rest, cursor := s.cursor + 1 }

/-! ## Findings and nodes -/

/-- An error is found at the next token. -/
def report (s : State) (message : String) : State :=
  { s with diagnostics := s.diagnostics.push (.error s.currentSpan message) }

/-- A node is opened at the next token. -/
def start (s : State) (kind : NodeKind) : State :=
  let s := s.flush
  { s with builder := s.builder.start kind }

/-- A node is opened at an earlier place. -/
def startAt (s : State) (place : Checkpoint) (kind : NodeKind) : State :=
  let fault := s.fault.or (s.builder.startAtFault? place)
  { s with builder := s.builder.startAt place kind, fault }

/-- The innermost node is finished. -/
def finishNode (s : State) : State :=
  let fault := s.fault.or s.builder.finishFault?
  { s with builder := s.builder.finishNode, fault }

/-- The next token is passed over: it becomes an error node of its own. -/
def skip (s : State) : State :=
  match s.lookahead.first with
  | none => s
  | some _ => (s.start .error).bump.finishNode

/-! ## Nesting levels -/

/-- A nesting level is entered. -/
def enter (s : State) : State := { s with depth := s.depth + 1 }

/-- A nesting level is left. -/
def leave (s : State) : State := { s with depth := s.depth - 1 }

/-! ## The end -/

/-- All that is left of the stream reaches the tree. -/
def finish (s : State) : State := { s with ahead := [] }.attachAll s.ahead

end State

end TxTree.Grammar
