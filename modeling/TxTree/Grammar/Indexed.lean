import TxTree.Loop
import TxTree.Parse

set_option relaxedAutoImplicit false
set_option autoImplicit false

/-!
# A parse by indices

A stream of tokens need not be taken apart to be parsed. It can be left as it is, together with the
numbers of its tokens that are neither white space nor comments; one index says how many of these
were taken, and another how many tokens reached the tree. The open frames are a stack, of which the
last one is the innermost.

Every look at a token or a frame is then a look behind an index, and fails if nothing is there. So
does a move of the builder that is out of place. A loop goes on until its test holds, and fails if
it takes no token; a nesting level is entered if a counter allows it, and fails if more are entered
than there is room for calls. So there is a tree only if the parse came to an end and nothing failed
on the way.

## Main definitions

* `TxTree.Grammar.Indexed` — the stream, the indices into it, and the stack of frames.
* `TxTree.Grammar.Indexed.emitUntil?`, `TxTree.Grammar.Indexed.bump?`,
  `TxTree.Grammar.Indexed.startAt?`, `TxTree.Grammar.Indexed.finishNode?` — moves that may fail.
* `TxTree.Grammar.Indexed.run?` — what a rule does.
* `TxTree.Grammar.Indexed.descend?` — how far the nesting levels go.
* `TxTree.parseTokens?` — the tree and the diagnostics of a stream of tokens.
-/

namespace TxTree.Grammar

/-- The numbers of the tokens of a stream that are neither white space nor comments. -/
def indices (tokens : List Token) : List Nat :=
  (tokens.zipIdx.filter fun entry => !entry.1.isTrivia).map (·.2)

/-- The stream, the indices into it, and the stack of frames. -/
structure Indexed where
  /-- The tokens of the stream, all of them. -/
  tokens : List Token
  /-- The numbers of those that are neither white space nor comments. -/
  significant : List Nat
  /-- How many of these numbers were passed. -/
  cursor : Nat := 0
  /-- How many of the tokens reached the tree. -/
  emitted : Nat := 0
  /-- The open frames, the innermost last. -/
  stack : List Frame := [⟨.file, #[]⟩]
  /-- The end of the last token that reached the tree. -/
  offset : Nat := 0
  /-- The findings, in the order in which they were made. -/
  diagnostics : Array Diagnostic := #[]
  /-- The number of nesting levels around the next token. -/
  depth : Nat := 0
deriving DecidableEq, Repr

namespace Indexed

/-- Before the first token of a stream. -/
def ofTokens (tokens : List Token) : Indexed := { tokens, significant := indices tokens }

/-! ## Looking -/

/-- The token so many further on, white space and comments apart. -/
def token? (x : Indexed) (ahead : Nat) : Option (Option Token) :=
  match x.significant[x.cursor + ahead]? with
  | none => some none
  | some i => x.tokens[i]?.map some

/-- What comes next. -/
def lookahead? (x : Indexed) : Option Lookahead := do
  return ⟨(← x.token? 0).map (·.kind), (← x.token? 1).map (·.kind)⟩

/-- The span of the next token; at the end, the empty span there. -/
def currentSpan? (x : Indexed) : Option Span := do
  match ← x.token? 0 with
  | none => return Span.emptyAt (endOf x.tokens)
  | some t => return t.span

/-! ## Frames -/

/-- The innermost frame. -/
def top? (x : Indexed) : Option Frame := x.stack[x.stack.length - 1]?

/-- The innermost frame is changed. -/
def modifyTop? (x : Indexed) (f : Frame → Frame) : Option Indexed := do
  return { x with stack := x.stack.set (x.stack.length - 1) (f (← x.top?)) }

/-- A child goes to the innermost frame. -/
def push? (x : Indexed) (child : Element) : Option Indexed :=
  x.modifyTop? fun frame => { frame with children := frame.children.push child }

/-- The current place. -/
def checkpoint (x : Indexed) : Checkpoint :=
  ⟨x.stack.length, (x.stack.getLast?.map (·.children.size)).getD 0⟩

/-- A node is opened at a place, unless that belongs to another depth. -/
def startAt? (x : Indexed) (place : Checkpoint) (kind : NodeKind) : Option Indexed := do
  if place.depth ≠ x.stack.length then failure
  let frame ← x.top?
  let size := min place.size frame.children.size
  let x ← x.modifyTop? fun frame => { frame with children := frame.children.shrink size }
  return { x with stack := x.stack ++ [⟨kind, frame.children.extract size⟩] }

/-- The innermost node is finished, unless there is none but the root. -/
def finishNode? (x : Indexed) : Option Indexed := do
  if x.stack.length ≤ 1 then failure
  let frame ← x.stack.getLast?
  ({ x with stack := x.stack.dropLast } : Indexed).push? (.node (Builder.close frame x.offset))

/-- The root, once all frames are closed. -/
def root? (x : Indexed) : Option Node :=
  loop? (·.stack.length) (s := x) fun x => do
    if 1 < x.stack.length then return .inl (← x.finishNode?)
    return .inr (Builder.close ⟨.file, (x.stack.getLast?.map (·.children)).getD #[]⟩ x.offset)

/-! ## Tokens -/

/-- A token reaches the tree; if it lacks its closing mark, that is a finding. -/
def attach? (x : Indexed) (t : Token) : Option Indexed := do
  let diagnostics :=
    if t.isUnterminated then
      x.diagnostics.push (.error t.span (State.unterminatedMessage t.kind))
    else x.diagnostics
  return { ← x.push? (.token t) with offset := t.span.stop, diagnostics }

/-- The tokens before a number reach the tree. -/
def emitUntil? (x : Indexed) (stop : Nat) : Option Indexed :=
  loop? (stop - ·.emitted) (s := x) fun x => do
    if x.emitted < stop then
      let x ← x.attach? (← x.tokens[x.emitted]?)
      return .inl { x with emitted := x.emitted + 1 }
    return .inr x

/-- The white space and comments before the next token reach the tree. -/
def flush? (x : Indexed) : Option Indexed :=
  x.emitUntil? (x.significant[x.cursor]?.getD x.tokens.length)

/-- The next token is taken, with the white space and comments before it. -/
def bump? (x : Indexed) : Option Indexed := do
  match x.significant[x.cursor]? with
  | none => return x
  | some i =>
    let x ← x.emitUntil? (i + 1)
    return { x with cursor := x.cursor + 1 }

/-! ## Findings and nodes -/

/-- An error is found at the next token. -/
def report? (x : Indexed) (message : String) : Option Indexed := do
  return { x with diagnostics := x.diagnostics.push (.error (← x.currentSpan?) message) }

/-- A node is opened at the next token. -/
def start? (x : Indexed) (kind : NodeKind) : Option Indexed := do
  let x ← x.flush?
  return { x with stack := x.stack ++ [⟨kind, #[]⟩] }

/-- The next token is passed over: it becomes an error node of its own. -/
def skip? (x : Indexed) : Option Indexed := do
  match ← x.token? 0 with
  | none => return x
  | some _ => (← (← x.start? .error).bump?).finishNode?

/-- A token is passed over if none was taken since the cursor was last looked at. -/
def progress? (x : Indexed) (cursor : Nat) : Option Indexed :=
  if x.cursor = cursor then x.skip? else some x

/-- A nesting level is entered. -/
def enter (x : Indexed) : Indexed := { x with depth := x.depth + 1 }

/-- A nesting level is left. -/
def leave (x : Indexed) : Indexed := { x with depth := x.depth - 1 }

/-! ## Running -/

/-- **What a rule does**, with `place` the place last remembered. A nesting level is entered, run by
`deeper` and left, as long as fewer than `limit` are entered. -/
def run? (deeper : Nesting → Checkpoint → Indexed → Option Indexed) (limit : Nat)
    (place : Checkpoint) (x : Indexed) : Rule → Option Indexed
  | .done => some x
  | .seq first second => do run? deeper limit place (← run? deeper limit place x first) second
  | .bump => x.bump?
  | .skip => x.skip?
  | .report message => x.report? message
  | .node kind body => do (← run? deeper limit place (← x.start? kind) body).finishNode?
  | .mark body => do
    let x ← x.flush?
    run? deeper limit x.checkpoint x body
  | .wrap kind body => do (← run? deeper limit place (← x.startAt? place kind) body).finishNode?
  | .branch test yes no => do
    if test (← x.lookahead?) then run? deeper limit place x yes else run? deeper limit place x no
  | .loop stop body => loop? (fun x => x.significant.length - x.cursor) (s := x) fun x => do
    if stop (← x.lookahead?) then return .inr x
    return .inl (← (← run? deeper limit place x body).progress? x.cursor)
  | .nest level otherwise => do
    if x.depth < limit then return (← deeper level place x.enter).leave
    else run? deeper limit place (← x.report? tooDeep) otherwise

/-- **How far levels nest**: with room for so many calls, a level is run by its rule with room for
one call less. A call for which there is no room fails. -/
def descend? (rules : Nesting → Rule) (limit : Nat) :
    (calls : Nat) → Nesting → Checkpoint → Indexed → Option Indexed
  | 0 => fun _ _ _ => none
  | calls + 1 => fun level place x =>
    run? (descend? rules limit calls) limit place x (rules level)

end Indexed

end TxTree.Grammar

namespace TxTree

open Grammar

/-- **The tree of a stream of tokens that a parse by indices makes**, and the diagnostics in the
order of the text. -/
def parseTokens? (tokens : List Token) : Option (Node × List Diagnostic) := do
  let start := Indexed.ofTokens tokens
  let deeper := Indexed.descend? nested maxNesting maxNesting
  let x ← Indexed.run? deeper maxNesting start.checkpoint start file
  let x ← x.emitUntil? tokens.length
  return (← x.root?, Diagnostic.sort x.diagnostics.toList)

end TxTree
