import TxTree.Parse
import TxTree.Proofs.Derivation

set_option relaxedAutoImplicit false
set_option autoImplicit false

/-!
# The derivation of a file

Parsing a stream of tokens follows one derivation of the rule of a file, which begins with nothing
gathered and ends with no token pending; what is left of the stream, white space and comments, is
then gathered behind the declarations. So what is to be shown of every tree and of every list of
diagnostics is shown of that derivation.

## Main definitions

* `TxTree.Grammar.Gathering.finish` — all that is left of the stream is gathered.
* `TxTree.Grammar.Surroundings.root` — what is around the declarations of a file.

## Main results

* `TxTree.Grammar.exists_derives_file` — the derivation of a stream, and the state it leads to.
* `TxTree.Grammar.parseTokens_eq` — the tree and the diagnostics of a stream by its derivation.
-/

namespace TxTree.Grammar

/-- All that is left of the stream is gathered. -/
def Gathering.finish (g : Gathering) : Gathering := { g with ahead := [] }.attachAll g.ahead

/-- Around the declarations of a file there is only its root. -/
def Surroundings.root : Surroundings := ⟨.file, [], [], none, 0⟩

/-- **The derivation of a stream of tokens**: it ends with no token pending, and its state is that
after the last declaration.

**Proof sketch.** The rule of a file is well formed, so that it leads somewhere and running it
does what is derived. It is a loop, which ends where its test says so. -/
theorem exists_derives_file (tokens : List Token) :
    ∃ g, Derives nested maxNesting file (.ofTokens tokens) g ∧
      runFile tokens = Surroundings.root.around g ∧ pending g.ahead = [] := by
  obtain ⟨g, hg⟩ := exists_derives wellFormed_nested file wellFormed_file (.ofTokens tokens)
  refine ⟨g, hg, ?_, ?_⟩
  · exact hg.run_around wellFormed_nested wellFormed_file Surroundings.root _ nofun
  · have hend : g.lookahead.isEnd = true := hg.stop_of_loop
    exact Gathering.lookahead_first_eq_none_iff.1 (Option.isNone_iff_eq_none.1 hend)

/-- All that is left of the stream reaches the tree. -/
lemma Surroundings.around_finish (c : Surroundings) (g : Gathering) :
    (c.around g).finish = c.around g.finish :=
  c.around_attachAll { g with ahead := [] } _

/-- **The tree and the diagnostics of a stream of tokens** are those of its derivation. -/
theorem parseTokens_eq {tokens : List Token} {g : Gathering}
    (h : Derives nested maxNesting file (.ofTokens tokens) g) :
    parseTokens tokens =
      (Node.ofChildren .file g.finish.children g.finish.offset,
        Diagnostic.sort g.finish.diagnostics) := by
  have hrun : runFile tokens = Surroundings.root.around g :=
    h.run_around wellFormed_nested wellFormed_file Surroundings.root _ nofun
  rw [parseTokens, hrun, Surroundings.around_finish]
  rfl

end TxTree.Grammar
