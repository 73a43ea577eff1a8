import TxTree.Proofs.Balance
import TxTree.Proofs.Following
import TxTree.Proofs.Passing
import TxTree.Proofs.Reading

set_option relaxedAutoImplicit false
set_option autoImplicit false

/-!
# The progress of an expression

An expression takes at least one token, unless none begins at what comes next: the stream ends
there, or a closing bracket, a separator or a word that opens a declaration stands there. Then it
takes none and reports just that. All layers of the grammar of expressions agree on this, for each
begins with the next one, and goes on only at a token that is none of these. So a step of a loop
over expressions takes a token, or leaves one that the loop itself has to deal with.

Whatever comes, an expression adds one node at most to the node that it is in: what stands behind
its first operand takes over what is there.

## Main definitions

* `TxTree.Grammar.Lookahead.lacksExpression` — whether no expression begins at what comes next.
* `TxTree.Grammar.State.afterExpression` — the state behind an expression.
* `TxTree.Grammar.Rule.Advances` — whether a rule takes a token where an expression begins.
* `TxTree.Grammar.Rule.Declines` — whether a rule takes none where no expression begins.
* `TxTree.Grammar.State.Declines` — a state, and the one behind an expression that is missing.

## Main results

* `TxTree.Grammar.advances_conditional` — where the level of expressions takes a token.
* `TxTree.Grammar.derives_conditional_of_lacks` — what it does where it takes none.
* `TxTree.Grammar.Derives.length_childNodes_le` — an expression adds one node at most.
* `TxTree.Grammar.afterExpression_progress` — all this of every state of a parse.
-/

namespace TxTree.Grammar

open Gathering Rule

/-- **Whether no expression begins** at what comes next: at the end of the stream, at a closing
bracket, a comma or a semicolon, and at a word that opens a declaration. -/
def Lookahead.lacksExpression (l : Lookahead) : Bool :=
  l.first.all fun k =>
    [.rBrace, .rParen, .rBracket, .comma, .semicolon].contains k || k.isHardDeclarationKeyword

lemma Lookahead.lacksExpression_some (k : TokenKind) (second : Option TokenKind) :
    (Lookahead.mk (some k) second).lacksExpression =
      (k.isClosing || k.isHardDeclarationKeyword) := by
  cases k <;> rfl

/-- **The state behind an expression**, for which there is the room that the nesting counter leaves
of its limit. -/
def State.afterExpression (s : State) (place : Checkpoint) : State :=
  expression.run (descend nested (maxNesting - s.depth)) place s

/-! ## Where an expression takes a token -/

section Advances

variable {r first next : Rule} {room : Nat} {g g' : Gathering}

/-- The cursor never moves back. -/
lemma Derives.cursor_le (h : Derives nested room r g g') : g.cursor ≤ g'.cursor := by
  obtain ⟨n, -, hcursor, -⟩ := h.takes
  omega

/-- **A rule advances** where an expression begins: it takes a token there, whatever room there
is. -/
def Rule.Advances (r : Rule) : Prop :=
  ∀ (room : Nat) (g g' : Gathering), Derives nested room r g g' →
    g.lookahead.lacksExpression = false → g.cursor < g'.cursor

/-- A rule that may not lead on without a token taken takes one. -/
lemma advances_of_idles (h : ∀ l : Lookahead, l.lacksExpression = false → r.idles l = false) :
    r.Advances := by
  intro room g g' hd hg
  refine Nat.lt_of_le_of_ne hd.cursor_le fun hsame => ?_
  have hidles := hd.idles hsame.symm
  rw [h _ hg] at hidles
  cases hidles

/-- What the first of two rules takes is taken. -/
lemma Rule.Advances.append (h : first.Advances) (second : Rule) : (first ++ second).Advances := by
  intro room g g' hd hg
  cases hd with
  | seq h₁ h₂ => exact Nat.lt_of_lt_of_le (h _ _ _ h₁ hg) h₂.cursor_le

/-- To remember a place takes no token, and none comes to stand there. -/
lemma Rule.Advances.mark (h : r.Advances) : (mark r).Advances := by
  intro room g g' hd hg
  cases hd with
  | mark hbody =>
    have hlt := h _ _ _ hbody (by simpa using hg)
    rwa [show g.flush.fresh.cursor = g.cursor from flush_cursor g] at hlt

/-- A choice takes a token if the side that it comes to may not lead on without one. -/
lemma idles_branch_eq_false {test : Lookahead → Bool} {yes no : Rule} {l : Lookahead}
    (hyes : test l = true → yes.idles l = false) (hno : test l = false → no.idles l = false) :
    (Rule.branch test yes no).idles l = false := by
  rw [Rule.idles]
  split
  · next htest => exact hyes htest
  · next htest => exact hno (Bool.eq_false_iff.2 htest)

/-- An operand takes a token, be it only to pass over it, … -/
lemma advances_operand : operand.Advances := by
  refine advances_of_idles fun l hl => ?_
  obtain ⟨_ | k, next⟩ := l
  · cases hl
  · -- Nothing is left to what is around the operand: there is a token, and it is none of those.
    have hother : (k.isClosing || k.isHardDeclarationKeyword) = false := by
      rwa [← Lookahead.lacksExpression_some k next]
    have htaken {test : Lookahead → Bool} {yes no : Rule}
        (hyes : yes.idles ⟨some k, next⟩ = false) (hno : no.idles ⟨some k, next⟩ = false) :
        (Rule.branch test yes no).idles ⟨some k, next⟩ = false :=
      idles_branch_eq_false (fun _ => hyes) fun _ => hno
    refine idles_branch_eq_false nofun fun _ => ?_
    refine htaken rfl <| htaken (htaken rfl rfl) <| htaken rfl <| htaken rfl <| htaken rfl <|
      htaken rfl <| htaken rfl <| htaken rfl <| htaken rfl ?_
    refine idles_branch_eq_false (fun hclosing => ?_) fun _ => rfl
    change (k.isClosing || k.isHardDeclarationKeyword) = true at hclosing
    rw [hother] at hclosing
    cases hclosing

/-- … and so does an operand with what is behind it, … -/
lemma advances_postfixed : postfixed.Advances :=
  (advances_operand.append suffixes).mark

/-- … a sign before an operand, … -/
lemma advances_signedRule : signedRule.Advances := by
  refine advances_of_idles fun l hl => ?_
  obtain ⟨_ | k, next⟩ := l
  · cases hl
  · rfl

/-- … and an operand with signs before it: where a sign may not nest, the operand still takes a
token. -/
lemma advances_unary : unary.Advances := by
  intro room g g' hd hg
  cases hd with
  | yes _ hnest =>
    cases hnest with
    | nest hsigned => exact advances_signedRule _ _ _ hsigned hg
    | full hpostfixed => exact advances_postfixed _ (g.report tooDeep) _ hpostfixed hg
  | no _ hpostfixed => exact advances_postfixed _ _ _ hpostfixed hg

/-- A layer of operators takes the token that its first operand takes. -/
lemma Rule.Advances.layer (h : next.Advances) (isOperator : TokenKind → Bool) :
    (layer isOperator next).Advances :=
  (h.append _).mark

/-- **The level of expressions takes a token** wherever an expression begins. -/
theorem advances_conditional : conditional.Advances :=
  ((advances_unary.layer isProduct |>.layer isSum |>.layer TokenKind.isComparison
    |>.layer isLogical).append _).mark

end Advances

/-! ## Where an expression takes none -/

section Declines

variable {first second next : Rule} {room : Nat} {g : Gathering} {l : Lookahead}

/-- Where no expression begins nothing comes that an expression goes on at. -/
lemma Lookahead.startsWith_eq_false_of_lacks (h : l.lacksExpression = true)
    {p : TokenKind → Bool}
    (hp : ∀ k, p k = true → (k.isClosing || k.isHardDeclarationKeyword) = false) :
    l.startsWith p = false := by
  obtain ⟨_ | k, next⟩ := l
  · rfl
  · refine Bool.eq_false_iff.2 fun hk => ?_
    rw [Lookahead.lacksExpression_some, hp k hk] at h
    cases h

/-- An operand reports that no expression begins. -/
lemma resolve_operand_of_lacks (h : l.lacksExpression = true) :
    operand.resolve l = .report noExpression := by
  obtain ⟨_ | k, next⟩ := l
  · rfl
  · cases k <;> first | rfl | cases h

/-- Where the invisible tokens have been gathered none is left to gather. -/
lemma flush_of_significant (h : significant g.ahead = g.ahead) : g.flush = g := by
  have hnone : g.ahead.takeWhile (·.isTrivia) = [] := by
    rw [← h, takeWhile_significant]
  rw [Gathering.flush, hnone, h]
  rfl

lemma flush_flush (g : Gathering) : g.flush.flush = g.flush :=
  flush_of_significant (by rw [flush_ahead, significant_significant])

lemma flush_flush_fresh (g : Gathering) : g.flush.fresh.flush = g.flush.fresh :=
  flush_of_significant (by
    change significant g.flush.ahead = g.flush.ahead
    rw [flush_ahead, significant_significant])

/-- **A rule declines** where no expression begins: once the invisible tokens have been gathered it
takes no token, gathers nothing, and reports just that no expression begins. -/
def Rule.Declines (r : Rule) : Prop :=
  ∀ (room : Nat) (g : Gathering), g.lookahead.lacksExpression = true →
    Derives nested room r g.flush (g.flush.report noExpression)

lemma declines_operand : operand.Declines := by
  intro room g hg
  apply derives_resolve_iff.1
  rw [lookahead_flush, resolve_operand_of_lacks hg]
  exact .report

/-- A place is remembered behind the invisible tokens; there the first of two rules declines, and
the other does not go on. -/
lemma Rule.Declines.derives_mark (h : first.Declines)
    (hsecond : ∀ l : Lookahead, l.lacksExpression = true → second.resolve l = .done)
    (hg : g.lookahead.lacksExpression = true) :
    Derives nested room (mark (first ++ second)) g (g.flush.report noExpression) := by
  have hlacks : g.flush.fresh.lookahead.lacksExpression = true := by simpa using hg
  have hfirst := h room _ hlacks
  rw [flush_flush_fresh] at hfirst
  have hdone : Derives nested room second (g.flush.fresh.report noExpression)
      (g.flush.fresh.report noExpression) := by
    apply derives_resolve_iff.1
    rw [lookahead_report, hsecond _ hlacks]
    exact .done
  have hmark : Derives nested room (mark (first ++ second)) g
      ((g.flush.fresh.report noExpression).behind g.flush.children) := .mark (.seq hfirst hdone)
  have hresult : (g.flush.fresh.report noExpression).behind g.flush.children =
      g.flush.report noExpression := by
    simp [Gathering.behind, Gathering.report, Gathering.fresh, Gathering.currentSpan]
  rwa [hresult] at hmark

lemma Rule.Declines.mark (h : first.Declines)
    (hsecond : ∀ l : Lookahead, l.lacksExpression = true → second.resolve l = .done) :
    (mark (first ++ second)).Declines := by
  intro room g hg
  have hflush : g.flush.lookahead.lacksExpression = true := by simpa using hg
  have hmark : Derives nested room (.mark (first ++ second)) g.flush
      (g.flush.flush.report noExpression) := h.derives_mark hsecond hflush
  rwa [flush_flush] at hmark

/-- A choice is not made where no expression begins if it waits for another token. -/
lemma resolve_branch_of_lacks {test : Lookahead → Bool} {yes : Rule} {p : TokenKind → Bool}
    (htest : ∀ l, test l = l.startsWith p)
    (hp : ∀ k, p k = true → (k.isClosing || k.isHardDeclarationKeyword) = false)
    (hl : l.lacksExpression = true) : (Rule.branch test yes .done).resolve l = .done := by
  rw [resolve, htest, Lookahead.startsWith_eq_false_of_lacks hl hp]
  rfl

lemma declines_postfixed : postfixed.Declines :=
  declines_operand.mark fun _ hl =>
    resolve_branch_of_lacks (p := opensSuffix) (fun _ => rfl) (by decide) hl

/-- A sign begins an expression, so that none is there. -/
lemma declines_unary : unary.Declines := by
  intro room g hg
  refine .no ?_ (declines_postfixed room g hg)
  rw [lookahead_flush]
  exact Lookahead.startsWith_eq_false_of_lacks hg (by decide)

/-- A layer of operators declines with its first operand. -/
lemma Rule.Declines.layer (h : next.Declines) (isOperator : TokenKind → Bool)
    (hop : ∀ k, isOperator k = true → (k.isClosing || k.isHardDeclarationKeyword) = false) :
    (layer isOperator next).Declines :=
  h.mark fun _ hl => resolve_branch_of_lacks (fun _ => rfl) hop hl

lemma declines_binary : binary.Declines :=
  declines_unary.layer isProduct (by decide)
    |>.layer isSum (by decide)
    |>.layer TokenKind.isComparison (by decide)
    |>.layer isLogical (by decide)

/-- **The level of expressions takes no token** where no expression begins, and reports just
that. -/
theorem derives_conditional_of_lacks (room : Nat) (hg : g.lookahead.lacksExpression = true) :
    Derives nested room conditional g (g.flush.report noExpression) :=
  declines_binary.derives_mark (fun _ hl => resolve_branch_of_lacks
    (fun _ => starts_eq_startsWith .question) (by decide) hl) hg

end Declines

/-! ## What an expression comes to -/

section Expression

variable {room : Nat} {g g' : Gathering}

/-- Where there is room the level of expressions is entered. -/
lemma Derives.conditional_of_expression (h : Derives nested (room + 1) expression g g') :
    Derives nested room conditional g g' := by
  cases h with
  | nest hlevel => exact hlevel

/-- Where there is none, just that is reported. -/
lemma Derives.eq_report_of_expression (h : Derives nested 0 expression g g') :
    g' = g.report tooDeep := by
  cases h with
  | full hdone =>
    cases hdone with
    | done => rfl

/-- Where no expression begins, that is all that the level of expressions leads to. -/
lemma Derives.eq_report_of_lacks (h : Derives nested (room + 1) expression g g')
    (hg : g.lookahead.lacksExpression = true) : g' = g.flush.report noExpression :=
  h.conditional_of_expression.unique wellFormed_nested (wellFormed_nested .expression)
    (derives_conditional_of_lacks room hg)

/-- **An expression adds one node at most**: an operand is one node, with tokens around it if it
stands in parentheses, and what is behind the operand takes that node over. -/
lemma Derives.length_childNodes_le (h : Derives nested room expression g g')
    (hg : g.children = []) : (g'.children.filterMap Element.node?).length ≤ 1 := by
  have hadds : expression.Adds (soundness True) True true (fun _ => True) (operands True) :=
    adds_expression
  have hassures := hadds.assures
    (v := { lookahead := g.lookahead, parts := Element.parts g.children }) trivial
  have hlawful : g.Lawful (soundness True).law := by
    intro n hn
    simp [hg, Element.nodesOfList, Node.walk] at hn
  obtain ⟨w, ⟨-, ps, hps, hparts⟩, hseen, -⟩ := h.assured (kept_soundness True) (fun _ => trivial)
    (.inl trivial) hassures g.seenAs_start hlawful
  have hnodes : g'.children.filterMap Element.node? = ps.filterMap Element.node? := by
    calc g'.children.filterMap Element.node?
        = (Element.parts g'.children).filterMap Element.node? :=
          (Node.ofChildren .file g'.children 0).childNodes_eq
      _ = ps.filterMap Element.node? := by
          rw [hseen.parts_eq, hparts, hg]
          rfl
  rw [hnodes]
  exact (valued_le True hps.2).1

end Expression

/-! ## States behind an expression -/

/-- Every state is that of a gathering in surroundings where nothing is gathered yet. -/
lemma State.exists_around_nil (s : State) :
    ∃ (c : Surroundings) (g : Gathering), c.around g = s ∧ g.children = [] := by
  obtain ⟨c, g, rfl, hplace⟩ := s.holds_checkpoint.exists_around
  rw [Surroundings.checkpoint_around] at hplace
  refine ⟨c, g, rfl, ?_⟩
  simpa [Surroundings.place, Surroundings.past] using hplace

/-- **An expression is declined** from one state to another: the invisible tokens before the next
one reach the innermost node, each with the finding that it brings with it, and behind these there
is one more finding, at the next token. All else is as it was. -/
structure State.Declines (s s' : State) : Prop where
  /-- No token is taken. -/
  cursor_eq : s'.cursor = s.cursor
  /-- Only invisible tokens are gone. -/
  ahead_eq : s'.ahead = significant s.ahead
  /-- They are added to the innermost node, and nothing else is. -/
  children_eq : s'.builder.top.children.toList =
    s.builder.top.children.toList ++ (s.ahead.takeWhile (·.isTrivia)).map .token
  /-- What they lack is reported, and that there is no expression. -/
  diagnostics_eq : s'.diagnostics.toList = s.diagnostics.toList ++
    (s.ahead.takeWhile (·.isTrivia)).flatMap complaints ++
      [.error s.currentSpan "Expected an expression"]
  /-- The nesting counter is as it was. -/
  depth_eq : s'.depth = s.depth
  /-- No step of the builder was out of place. -/
  fault_eq : s'.fault = s.fault

/-- To report behind the invisible tokens that no expression begins is to decline one. -/
lemma Surroundings.declines_around (c : Surroundings) (g : Gathering) :
    (c.around g).Declines (c.around (g.flush.report noExpression)) where
  cursor_eq := flush_cursor g
  ahead_eq := flush_ahead g
  children_eq := by simp [around, Gathering.report]
  diagnostics_eq := by
    rw [around_currentSpan]
    simp [around, Gathering.report, noExpression]
  depth_eq := rfl
  fault_eq := rfl

/-- **Progress of an expression.** Below the limit of nesting an expression leaves the cursor where
it was if and only if none begins at what comes next. Then it reports just that and adds no node;
otherwise the cursor moves on. At the limit it takes nothing and reports just that there is no room.
In any case the innermost node is the same one, with one more child node at most. -/
theorem afterExpression_progress (s : State) (place : Checkpoint) :
    (s.depth < maxNesting →
      ((s.afterExpression place).cursor = s.cursor ↔ s.lookahead.lacksExpression = true) ∧
      (s.lookahead.lacksExpression = true → s.Declines (s.afterExpression place)) ∧
      (s.lookahead.lacksExpression = false → s.cursor < (s.afterExpression place).cursor)) ∧
    (maxNesting ≤ s.depth → s.afterExpression place = { s with
      diagnostics := s.diagnostics.push
        (.error s.currentSpan "Expression or type nested too deeply") }) ∧
    (s.afterExpression place).builder.below = s.builder.below ∧
    (s.afterExpression place).builder.top.kind = s.builder.top.kind ∧
    ∃ added, (s.afterExpression place).builder.top.children.toList =
      s.builder.top.children.toList ++ added ∧ (added.filterMap Element.node?).length ≤ 1 := by
  obtain ⟨c, g, rfl, hg⟩ := s.exists_around_nil
  have hformed : expression.wellFormed false = true := rfl
  obtain ⟨g', hd⟩ : ∃ g', Derives nested (maxNesting - c.depth) expression g g' :=
    exists_derives wellFormed_nested expression hformed g
  have hrun : (c.around g).afterExpression place = c.around g' :=
    hd.run_around wellFormed_nested hformed c place nofun
  rw [hrun]
  refine ⟨fun hroom => ?_, fun hfull => ?_, rfl, rfl, g'.children, ?_, hd.length_childNodes_le hg⟩
  · obtain ⟨room, hsucc⟩ : ∃ room, maxNesting - c.depth = room + 1 :=
      Nat.exists_eq_succ_of_ne_zero (Nat.sub_ne_zero_of_lt hroom)
    rw [hsucc] at hd
    have hlacks (h : g.lookahead.lacksExpression = true) : g' = g.flush.report noExpression :=
      hd.eq_report_of_lacks h
    have hadvances (h : g.lookahead.lacksExpression = false) : g.cursor < g'.cursor :=
      advances_conditional _ _ _ hd.conditional_of_expression h
    refine ⟨⟨fun hsame => ?_, fun h => ?_⟩, fun h => ?_, hadvances⟩
    · cases h : g.lookahead.lacksExpression with
      | true => exact h
      | false => exact absurd hsame (hadvances h).ne'
    · rw [hlacks h]
      exact flush_cursor g
    · rw [hlacks h]
      exact c.declines_around g
  · have hnone : maxNesting - c.depth = 0 := Nat.sub_eq_zero_of_le hfull
    rw [hnone] at hd
    rw [hd.eq_report_of_expression, ← Surroundings.around_report]
    rfl
  · simp [Surroundings.around, hg]

/-- The state before a text, so many nesting levels in. -/
def State.within (depth : Nat) (text : String) : State :=
  { State.ofTokens (tokenize text) with depth }

/-- Behind a comment that is never closed no expression begins. Where there is room for one sign
only, the second one is passed over as an operand. At the limit nothing is taken at all. -/
theorem afterExpression_progress_within :
    ((State.within 0 " /* a").depth < maxNesting ∧
      (State.within 0 " /* a").lookahead.lacksExpression = true ∧
      ((State.within 0 " /* a").afterExpression ⟨1, 0⟩).diagnostics.toList =
        [.error ⟨1, 5⟩ "Unterminated block comment",
          .error ⟨5, 5⟩ "Expected an expression"]) ∧
    ((State.within 126 "--a[0]").depth < maxNesting ∧
      (State.within 126 "--a[0]").lookahead.lacksExpression = false ∧
      0 < ((State.within 126 "--a[0]").afterExpression ⟨1, 0⟩).cursor) ∧
    (maxNesting ≤ (State.within 128 "--a[0]").depth ∧
      ((State.within 128 "--a[0]").afterExpression ⟨1, 0⟩).diagnostics =
        #[.error ⟨0, 1⟩ "Expression or type nested too deeply"]) := by
  have hlacks : (State.within 0 " /* a").lookahead.lacksExpression = true := by decide +kernel
  have hbegins : (State.within 126 "--a[0]").lookahead.lacksExpression = false := by decide +kernel
  refine ⟨⟨by decide, hlacks, ?_⟩, ⟨by decide, hbegins, ?_⟩, ⟨by decide, ?_⟩⟩
  · have hdeclines :=
      ((afterExpression_progress (.within 0 " /* a") ⟨1, 0⟩).1 (by decide)).2.1 hlacks
    rw [hdeclines.diagnostics_eq]
    decide +kernel
  · exact ((afterExpression_progress (.within 126 "--a[0]") ⟨1, 0⟩).1 (by decide)).2.2 hbegins
  · rw [(afterExpression_progress (.within 128 "--a[0]") ⟨1, 0⟩).2.1 (by decide)]
    decide +kernel

end TxTree.Grammar
