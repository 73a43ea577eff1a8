import TxTree.Grammar.State

set_option relaxedAutoImplicit false
set_option autoImplicit false

/-!
# Rules

The grammar is written as rules: values that say which tokens are expected, which nodes they make
up, and what is reported when something else comes. A rule never fails. Where it does not find
what it expects it reports that and goes on, so that every stream of tokens has a tree.

What makes rules end: a rule contains no other by name, except through a nesting level, and each
level uses up room of which there is a fixed amount; and a loop whose body takes no token passes
over one.

## Main definitions

* `TxTree.Grammar.Rule` — the rules.
* `TxTree.Grammar.Nesting` — the levels that an expression or a type may nest.
* `TxTree.Grammar.Rule.run` — what a rule does to the state of a parse.
* `TxTree.Grammar.descend` — how far the nesting levels go.
-/

namespace TxTree.Grammar

/-- The nesting levels: the constructs that may contain themselves. -/
inductive Nesting where
  /-- An expression. -/
  | expression
  /-- What follows the sign before an operand, and the sign. -/
  | signed
  /-- A field access or an index behind an operand, and the further ones. -/
  | suffixed
  /-- A type. -/
  | type
  /-- A pair of brackets behind a type, and the further ones. -/
  | array
deriving DecidableEq, Repr

/-- The rules of the grammar. -/
inductive Rule where
  /-- Nothing. -/
  | done
  /-- One rule and then another. -/
  | seq (first second : Rule)
  /-- Take the next token. -/
  | bump
  /-- Pass over the next token. -/
  | skip
  /-- Report an error at the next token. -/
  | report (message : String)
  /-- A node from here on. -/
  | node (kind : NodeKind) (body : Rule)
  /-- Remember this place for the nodes that `wrap` makes. -/
  | mark (body : Rule)
  /-- A node from the place last remembered, with all that was parsed since. -/
  | wrap (kind : NodeKind) (body : Rule)
  /-- One of two rules, by what comes next. -/
  | branch (test : Lookahead → Bool) (yes no : Rule)
  /-- A rule over and over, until `stop` holds of what comes next. -/
  | loop (stop : Lookahead → Bool) (body : Rule)
  /-- A nesting level, or another rule when there is no room for it. -/
  | nest (level : Nesting) (otherwise : Rule)

/-- Rules are written one after the other. -/
instance : Append Rule := ⟨Rule.seq⟩

/-! ## Running -/

/-- What is reported where no level may nest any further. -/
def tooDeep : String := "Expression or type nested too deeply"

/-- A step over and over until `stop` holds. A step that takes no token is followed by passing
over one, so there are no more steps than tokens; `bound` is a list at least as long. -/
def iterate (stop : Lookahead → Bool) (step : State → State) (bound : List Token) (s : State) :
    State :=
  match bound with
  | [] => s
  | _ :: bound =>
    if stop s.lookahead then s
    else
      let cursor := s.cursor
      let next := step s
      iterate stop step bound (if next.cursor = cursor then next.skip else next)

/-- **What a rule does** to the state of a parse, with `place` the place last remembered. The
levels that nest in the rule are run by `deeper`; without it there is no room for them. -/
def Rule.run (deeper : Option (Nesting → Checkpoint → State → State)) (place : Checkpoint)
    (s : State) : Rule → State
  | .done => s
  | .seq first second => second.run deeper place (first.run deeper place s)
  | .bump => s.bump
  | .skip => s.skip
  | .report message => s.report message
  | .node kind body => (body.run deeper place (s.start kind)).finishNode
  | .mark body =>
    let s := s.flush
    body.run deeper s.builder.checkpoint s
  | .wrap kind body => (body.run deeper place (s.startAt place kind)).finishNode
  | .branch test yes no =>
    if test s.lookahead then yes.run deeper place s else no.run deeper place s
  | .loop stop body => iterate stop (fun s => body.run deeper place s) s.ahead s
  | .nest level otherwise =>
    match deeper with
    | some go => go level place s
    | none => otherwise.run deeper place (s.report tooDeep)

/-- **How far levels nest**: with room for `room` levels, a level is entered, run by its rule with
room for one less, and left. -/
def descend (rules : Nesting → Rule) : (room : Nat) →
    Option (Nesting → Checkpoint → State → State)
  | 0 => none
  | room + 1 => some fun level place s =>
    ((rules level).run (descend rules room) place s.enter).leave

/-! ## Looking -/

namespace Lookahead

/-- Whether a token of a kind comes next. -/
def starts (kind : TokenKind) (l : Lookahead) : Bool := l.first == some kind

/-- Whether a token of a kind comes after the next. -/
def continues (kind : TokenKind) (l : Lookahead) : Bool := l.second == some kind

/-- Whether the next token is of one of the kinds. -/
def startsWith (p : TokenKind → Bool) (l : Lookahead) : Bool := l.first.any p

/-- Whether nothing comes next. -/
def isEnd (l : Lookahead) : Bool := l.first.isNone

/-- Whether a list that is closed by a kind of token ends here: at that token, at the end of the
stream, or at a word that opens the next declaration, so that a list that was never closed takes
no declaration in. -/
def endsList (close : TokenKind) (l : Lookahead) : Bool :=
  match l.first with
  | none => true
  | some kind => kind == close || kind.isHardDeclarationKeyword

end Lookahead

/-! ## Common rules -/

namespace Rule

/-- Take the next token if it is of a kind. -/
def eat (kind : TokenKind) : Rule := .branch (·.starts kind) .bump .done

/-- Take a token of a kind and go on with one rule, or report its absence and go on with
another. -/
def expectThen (kind : TokenKind) (message : String) (yes no : Rule) : Rule :=
  .branch (·.starts kind) (.bump ++ yes) (.report message ++ no)

/-- Take a token of a kind, or report its absence. -/
def expect (kind : TokenKind) (message : String) : Rule := expectThen kind message .done .done

/-- Take a name and go on with one rule, or report its absence and go on with another. -/
def nameThen (message : String) (yes no : Rule) : Rule :=
  .branch (·.startsWith TokenKind.isName) (.bump ++ yes) (.report message ++ no)

/-- Take a name, or report its absence. -/
def name (message : String) : Rule := nameThen message .done .done

/-- Take a name if one comes next. -/
def nameIfAny : Rule := .branch (·.startsWith TokenKind.isName) .bump .done

/-- Report an error and pass over the token that causes it. -/
def reject (message : String) : Rule := .report message ++ .skip

/-- Items up to the token that closes them, and that token. -/
def itemsThrough (close : TokenKind) (message : String) (item : Rule) : Rule :=
  .loop (·.endsList close) item ++ expect close message

/-- Items in braces, both of which are expected. -/
def braced (item : Rule) : Rule :=
  expectThen .lBrace "Expected '\x7b'" (itemsThrough .rBrace "Expected '\x7d'" item) .done

/-- An expression. -/
def expression : Rule := .nest .expression .done

/-- A type. -/
def type : Rule := .nest .type .done

end Rule

end TxTree.Grammar
