import TxTree.Grammar.Declarations
import TxTree.Token.Scan
import TxTree.Tree.View

set_option relaxedAutoImplicit false
set_option autoImplicit false

/-!
# Parsing

To parse a text is to cut it into tokens and to run the grammar over them. There is always a tree,
and it holds every token; what was amiss with the text is told by the diagnostics.

## Main definitions

* `TxTree.parseTokens` — the tree and the diagnostics of a stream of tokens.
* `TxTree.parse` — the tokens, the tree and the diagnostics of a text.
* `TxTree.Parse.toExcept` — the tree of a clean text, or an account of what is amiss first.
-/

namespace TxTree

/-- The number of levels that expressions and types may nest. -/
def maxNesting : Nat := 128

/-- The state after the last declaration of a stream of tokens. -/
def runFile (tokens : List Token) : Grammar.State :=
  let s := Grammar.State.ofTokens tokens
  Grammar.file.run (Grammar.descend Grammar.nested maxNesting) s.builder.checkpoint s

/-- **The tree of a stream of tokens**, and the diagnostics in the order of the text. -/
def parseTokens (tokens : List Token) : Node × List Diagnostic :=
  let s := (runFile tokens).finish
  (s.builder.finish, Diagnostic.sort s.diagnostics.toList)

/-- What comes of parsing a text. -/
structure Parse where
  /-- The tokens of the text. -/
  tokens : List Token
  /-- The tree over them. -/
  root : Node
  /-- What is amiss, in the order of the text. -/
  diagnostics : List Diagnostic
deriving DecidableEq, Repr

/-- **The tokens, the tree and the diagnostics of a text.** -/
def parse (text : String) : Parse :=
  let tokens := tokenize text
  let (root, diagnostics) := parseTokens tokens
  ⟨tokens, root, diagnostics⟩

/-- That a text is not clean: the number of diagnostics, and the first of them. -/
structure SyntaxError where
  /-- The number of diagnostics. -/
  count : Nat
  /-- The span of the first. -/
  span : Span
  /-- The message of the first. -/
  message : String
deriving DecidableEq, Repr

/-- An account of what is amiss, with its first place. -/
instance : ToString SyntaxError where
  toString e :=
    toString e.count ++ " syntax error(s), first at " ++ toString e.span ++ ": " ++ e.message

namespace Parse

/-- Whether a text is clean. -/
def isOk (p : Parse) : Bool := p.diagnostics.isEmpty

/-- The diagnostics that are errors. -/
def errors (p : Parse) : List Diagnostic := p.diagnostics.filter (·.isError)

/-- **The tree of a clean text**, or an account of what is amiss first. -/
def toExcept (p : Parse) : Except SyntaxError Node :=
  match p.diagnostics with
  | [] => .ok p.root
  | first :: _ => .error ⟨p.diagnostics.length, first.span, first.message⟩

end Parse

end TxTree
