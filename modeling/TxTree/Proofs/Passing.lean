import TxTree.Proofs.Integrity
import TxTree.Proofs.Sparing

set_option relaxedAutoImplicit false
set_option autoImplicit false

/-!
# What is passed over in an expression

An expression that does not begin leaves closing brackets and separators to what is around it. But
what is around it may be a list of items in another expression, and the loop of such a list passes
over whatever none of its items takes, unless it is the token that closes the list. So a closing
bracket or a separator is passed over in an expression after all: where it belongs to none of the
lists that are open, or to one that is not the innermost.

Which tokens are passed over directly below a node is read off the rules: where a rule passes over
a token by itself, and where the step of a loop may lead on without a token taken.

## Main definitions

* `TxTree.NodeKind.passesOver` — which tokens may be passed over directly below a node.
* `TxTree.Grammar.Rule.idles` — whether a rule may lead on without a token taken.
* `TxTree.Grammar.Rule.Passes` — whether a rule passes over tokens of given kinds only.
* `TxTree.Grammar.Gathering.Passed` — only such tokens were passed over so far.

## Main results

* `TxTree.Grammar.Derives.passed` — what a rule passes over is what it may.
* `TxTree.parseTokens_passesOver` — which tokens are passed over below the nodes of a tree.
* `TxTree.parseTokens_closing_foreign` — where closing brackets and separators are passed over in
  an expression.
-/

namespace TxTree

/-! ## Tokens that may be passed over -/

namespace NodeKind

/-- The token that closes the items of a node in an expression. -/
def closer? : NodeKind → Option TokenKind
  | .listExpr => some .rBracket
  | .argList => some .rParen
  | .mapExpr | .recordLiteral | .variantExpr => some .rBrace
  | _ => none

/-- The expressions, and what stands below them that is none: the arguments of a call, and the
fields of a record. -/
def isInExpression (k : NodeKind) : Bool :=
  k.isExpression || k == .argList || k == .recordFieldInit

/-- The expressions that have entries of a record. -/
def hasEntries (k : NodeKind) : Bool := k == .recordLiteral || k == .variantExpr

/-- **Which tokens may be passed over** directly below a node: among items any but the token that
closes them, and commas only among entries of a record; elsewhere in an expression none that closes
or separates; and outside of expressions any. -/
def passesOver (k : NodeKind) (t : TokenKind) : Bool :=
  match k.closer? with
  | some close => t != close && (t != .comma || k.hasEntries)
  | none => !(k.isInExpression && t.isClosing)

/-- What closes or separates and may be passed over in an expression is among items, and closes
none of them. -/
lemma exists_closer_of_passesOver {k : NodeKind} {t : TokenKind} (h : k.passesOver t = true)
    (hk : k.isInExpression = true) (ht : t.isClosing = true) :
    ∃ close, k.closer? = some close ∧ t ≠ close ∧ (t = .comma → k.hasEntries = true) := by
  rw [passesOver] at h
  cases hclose : k.closer? with
  | none => simp [hclose, hk, ht] at h
  | some close =>
    rw [hclose] at h
    obtain ⟨hne, hcomma⟩ := Bool.and_eq_true_iff.1 h
    refine ⟨close, rfl, bne_iff_ne.1 hne, fun heq => ?_⟩
    exact (Bool.or_eq_true_iff.1 hcomma).resolve_left fun hne => bne_iff_ne.1 hne heq

/-- What neither closes nor separates may be passed over anywhere. -/
lemma passesOver_of_not_isClosing (k : NodeKind) {t : TokenKind} (h : t.isClosing = false) :
    k.passesOver t = true := by
  have hne {t' : TokenKind} (h' : t'.isClosing = true) : (t != t') = true := by
    rw [bne_iff_ne]
    rintro rfl
    rw [h] at h'
    cases h'
  have hcomma : (t != .comma || k.hasEntries) = true := by rw [hne rfl, Bool.true_or]
  rw [passesOver]
  cases hclose : k.closer? with
  | none => simp [h]
  | some close =>
    have hclosing : close.isClosing = true := by
      cases k <;> cases hclose <;> rfl
    exact Bool.and_eq_true_iff.2 ⟨hne hclosing, hcomma⟩

/-- Outside of expressions all tokens may be passed over. -/
lemma passesOver_of_not_isInExpression {k : NodeKind} (h : k.isInExpression = false)
    (t : TokenKind) : k.passesOver t = true := by
  cases k <;> first | rfl | cases h

/-- What stands below a node of an expression stands in the expression as well, unless it is the
path of an import or a token that was passed over. -/
lemma isInExpression_of_admits {k c : NodeKind} {tokens : List TokenKind} {kinds : List NodeKind}
    (h : k.admits tokens kinds = true) (hk : k.isInExpression = true) (hc : c ∈ kinds) :
    c.isInExpression = true ∨ c = .pathExpr ∨ c = .error := by
  have hnone (h : kinds.isEmpty = true) : c.isInExpression = true := by
    rw [isEmpty_eq_false hc] at h
    cases h
  have hone {k : NodeKind} (h : (kinds == [k]) = true) : c = k := by
    rw [eq_of_beq h] at hc
    exact List.mem_singleton.1 hc
  have hall {p : NodeKind → Bool} (hp : ∀ k, p k = true → k.isInExpression = true)
      (h : kinds.all (orError p) = true) :
      c.isInExpression = true ∨ c = .pathExpr ∨ c = .error :=
    (Bool.or_eq_true_iff.1 (List.all_eq_true.1 h c hc)).imp (hp c) fun h => .inr (eq_of_beq h)
  have hexpression (k : NodeKind) (h : k.isExpression = true) : k.isInExpression = true := by
    rw [isInExpression, h]
    rfl
  have hentry (k : NodeKind) (h : (k == .recordFieldInit || k == .spreadExpr) = true) :
      k.isInExpression = true := by
    obtain h | h := Bool.or_eq_true_iff.1 h <;> exact eq_of_beq h ▸ rfl
  cases k
  case argList | binaryExpr | listExpr | mapExpr => exact hall hexpression h
  case unaryExpr | fieldAccessExpr | indexExpr | ternaryExpr | recordFieldInit =>
    exact hall hexpression (Bool.and_eq_true_iff.1 h).2
  case recordLiteral | variantExpr => exact hall hentry h
  case nameRef | literal | spreadExpr => exact .inl (hnone h)
  case callExpr =>
    rw [admits] at h
    split at h
    · obtain h | h := Bool.or_eq_true_iff.1 h
      · exact .inl (hnone h)
      · exact .inr (.inl (hone h))
    · exact .inl (hone h ▸ rfl)
  all_goals cases hk

end NodeKind

/-! ## Elements -/

namespace Element

/-- Among the elements only tokens of the kinds `ok` were passed over. -/
def PassesOver (ok : TokenKind → Bool) (cs : List Element) : Prop :=
  ∀ e, .node e ∈ cs → e.kind = .error → ∀ t ∈ e.leaves, ok t.kind = true

namespace PassesOver

variable {ok ok' : TokenKind → Bool} {cs ds : List Element}

lemma mono (hok : ∀ k, ok k = true → ok' k = true) (h : PassesOver ok cs) : PassesOver ok' cs :=
  fun e he hk t ht => hok _ (h e he hk t ht)

lemma append (hcs : PassesOver ok cs) (hds : PassesOver ok ds) : PassesOver ok (cs ++ ds) :=
  fun e he => (List.mem_append.1 he).elim (hcs e) (hds e)

lemma map_token (ok : TokenKind → Bool) (tokens : List Token) :
    PassesOver ok (tokens.map .token) := by
  intro e he
  obtain ⟨t, -, ht⟩ := List.mem_map.1 he
  cases ht

/-- A node that is made by the grammar is no token that was passed over. -/
lemma node {n : Node} (hk : n.kind ≠ .error) (ok : TokenKind → Bool) :
    PassesOver ok [.node n] := by
  intro e he herror
  cases List.mem_singleton.1 he
  exact absurd herror hk

end PassesOver

end Element

namespace Grammar

open Element

/-! ## What a rule passes over -/

/-- The tokens that an expression may pass over by itself: those that neither close nor separate. -/
def isPassable (t : TokenKind) : Bool := !t.isClosing

/-- Whether a rule may lead on without a token taken, by what comes next. Of a nesting level it is
not known that it may not. -/
def Rule.idles : Rule → Lookahead → Bool
  | .done, _ | .report _, _ | .nest _ _, _ => true
  | .seq first second, l => first.idles l && second.idles l
  | .bump, l | .skip, l => l.isEnd
  | .node _ body, l | .mark body, l | .wrap _ body, l => body.idles l
  | .branch test yes no, l => if test l then yes.idles l else no.idles l
  | .loop stop _, l => stop l

/-- **Whether a rule passes over tokens of the kinds `ok` only** directly below the node that it is
in, where `P` holds of what comes next, and in the nodes that it makes only those that these may
pass over. Behind a place that is remembered it is not known yet which node takes over what is
there, so that there they must be tokens that any node may pass over. -/
def Rule.Passes (ok : TokenKind → Bool) : Rule → (P : Lookahead → Prop) → Prop
  | .done, _ | .bump, _ | .report _, _ => True
  | .skip, P => ∀ l k, P l → l.first = some k → ok k = true
  | .seq first second, P => first.Passes ok P ∧ second.Passes ok (first.after P)
  | .node kind body, P | .wrap kind body, P => kind ≠ .error ∧ body.Passes kind.passesOver P
  | .mark body, P => body.Passes isPassable P
  | .branch test yes no, P =>
    yes.Passes ok (fun l => P l ∧ test l = true) ∧ no.Passes ok (fun l => P l ∧ test l = false)
  | .loop stop body, _ =>
    (∀ l k, stop l = false → body.idles l = true → l.first = some k → ok k = true) ∧
      body.Passes ok (fun l => stop l = false)
  | .nest _ otherwise, P => otherwise.Passes ok P

/-- **Whether a rule passes over tokens only where all may be passed over**: in an expression, and
behind a place that is remembered, it has neither a loop nor passes over a token by itself. Outside,
where it is free to, it may do both. -/
def Rule.passesFreely : Rule → (free : Bool) → Bool
  | .done, _ | .bump, _ | .report _, _ => true
  | .skip, free => free
  | .seq first second, free => first.passesFreely free && second.passesFreely free
  | .node kind body, _ | .wrap kind body, _ =>
    kind != .error && body.passesFreely !kind.isInExpression
  | .mark body, _ => body.passesFreely false
  | .branch _ yes no, free => yes.passesFreely free && no.passesFreely free
  | .loop _ body, free => free && body.passesFreely free
  | .nest _ otherwise, free => otherwise.passesFreely free

/-- Such a rule passes over what it may. -/
lemma Rule.passes_of_passesFreely {r : Rule} {free : Bool} {ok : TokenKind → Bool}
    (h : r.passesFreely free = true) (hok : free = true → ∀ k, ok k = true) (P : Lookahead → Prop) :
    r.Passes ok P := by
  have hkind (kind : NodeKind) (hfree : (!kind.isInExpression) = true) (k : TokenKind) :
      kind.passesOver k = true :=
    NodeKind.passesOver_of_not_isInExpression (Bool.not_inj hfree) k
  induction r generalizing free ok P with
  | done | bump | report => trivial
  | skip => exact fun _ k _ _ => hok h k
  | seq first second ih₁ ih₂ =>
    obtain ⟨h₁, h₂⟩ := Bool.and_eq_true_iff.1 h
    exact ⟨ih₁ h₁ hok _, ih₂ h₂ hok _⟩
  | node kind body ih | wrap kind body ih =>
    obtain ⟨hne, hbody⟩ := Bool.and_eq_true_iff.1 h
    exact ⟨bne_iff_ne.1 hne, ih hbody (hkind kind) _⟩
  | mark body ih => exact ih h nofun _
  | branch test yes no ih₁ ih₂ =>
    obtain ⟨h₁, h₂⟩ := Bool.and_eq_true_iff.1 h
    exact ⟨ih₁ h₁ hok _, ih₂ h₂ hok _⟩
  | loop stop body ih =>
    obtain ⟨hfree, hbody⟩ := Bool.and_eq_true_iff.1 h
    exact ⟨fun _ k _ _ _ => hok hfree k, ih hbody hok _⟩
  | nest level otherwise ih => exact ih h hok _

/-- So does one that is not free to pass over any, wherever it stands. -/
lemma Rule.passes_of_not_free {r : Rule} (h : r.passesFreely false = true)
    (ok : TokenKind → Bool) (P : Lookahead → Prop) : r.Passes ok P :=
  passes_of_passesFreely h nofun P

/-! ## The grammar -/

section Productions

variable {P : Lookahead → Prop}

/-- **Between the items of a node** a token is passed over if none of them takes it and it does not
close them. This is a comma only where the items are entries of a record; elsewhere each takes the
comma behind it. -/
lemma passes_itemsThrough {kind : NodeKind} {close : TokenKind} {message : String} {item : Rule}
    (hclose : kind.closer? = some close)
    (hcomma : kind.hasEntries = true ∨ ∀ next, item.idles ⟨some .comma, next⟩ = false)
    (hitem : item.passesFreely false = true) :
    (Rule.itemsThrough close message item).Passes kind.passesOver P := by
  refine ⟨⟨?_, Rule.passes_of_not_free hitem _ _⟩, Rule.passes_of_not_free rfl _ _⟩
  rintro ⟨_, next⟩ k hstop hidles rfl
  have hne : k ≠ close := by
    rintro rfl
    simp [Lookahead.endsList] at hstop
  have hentry : k = .comma → kind.hasEntries = true := by
    rintro rfl
    exact hcomma.resolve_right fun h => Bool.eq_false_iff.1 (h next) hidles
  simp only [NodeKind.passesOver, hclose, Bool.and_eq_true, Bool.or_eq_true, bne_iff_ne]
  exact ⟨hne, or_iff_not_imp_left.2 fun h => hentry (not_ne_iff.1 h)⟩

/-- An operand by itself passes over no token that closes or separates. -/
lemma passes_operand : operand.Passes isPassable P := by
  have hfree {r : Rule} (h : r.passesFreely false = true) (P : Lookahead → Prop) :
      r.Passes isPassable P :=
    Rule.passes_of_not_free h _ P
  refine ⟨hfree rfl _, hfree rfl _, hfree rfl _, ?list, ?map, ?variant, ?record, ?call,
    hfree rfl _, hfree rfl _, hfree rfl _, trivial, ?reject⟩
  case list => exact ⟨nofun, trivial, passes_itemsThrough rfl (.inr fun _ => rfl) rfl⟩
  case map => exact ⟨nofun, trivial, passes_itemsThrough rfl (.inr fun _ => rfl) rfl⟩
  case variant =>
    exact ⟨nofun, ⟨trivial, trivial⟩,
      ⟨trivial, ⟨trivial, passes_itemsThrough rfl (.inl rfl) rfl⟩, trivial⟩, trivial, trivial⟩
  case record => exact ⟨nofun, trivial, trivial, passes_itemsThrough rfl (.inl rfl) rfl⟩
  case call =>
    exact ⟨nofun, trivial, nofun, trivial, passes_itemsThrough rfl (.inr fun _ => rfl) rfl⟩
  case reject =>
    rintro l k ⟨-, hother⟩ hfirst
    have hk : (k.isClosing || k.isHardDeclarationKeyword) = false := by
      change l.first.any _ = false at hother
      rwa [hfirst] at hother
    exact congrArg (!·) (Bool.or_eq_false_iff.1 hk).1

end Productions

section Levels

variable (ok : TokenKind → Bool) (P : Lookahead → Prop)

/-- An operand with what is behind it passes over what it may, … -/
lemma passes_postfixed : postfixed.Passes ok P :=
  ⟨passes_operand, Rule.passes_of_not_free rfl _ _⟩

/-- … and so it does with signs before it, … -/
lemma passes_unary : unary.Passes ok P := ⟨passes_postfixed ok _, passes_postfixed ok _⟩

/-- … and so do the layers of operators, since each step of the loop takes one, … -/
lemma passes_layer {isOperator : TokenKind → Bool} {next : Rule}
    (hnext : ∀ ok P, next.Passes ok P) : (layer isOperator next).Passes ok P := by
  refine ⟨hnext _ _, ⟨nofun, ?_, trivial, hnext _ _⟩, trivial⟩
  intro l k _ hidles hfirst
  have hend : l.first.isNone = true := (Bool.and_eq_true_iff.1 hidles).1
  rw [hfirst] at hend
  cases hend

/-- … and the conditional. -/
lemma passes_conditional : conditional.Passes ok P := by
  refine ⟨?_, ⟨nofun, Rule.passes_of_not_free rfl _ _⟩, trivial⟩
  exact passes_layer _ _ fun ok P => passes_layer ok P fun ok P => passes_layer ok P fun ok P =>
    passes_layer ok P passes_unary

/-- **The rules of the nesting levels** pass over what they may. -/
lemma passes_nested (level : Nesting) : (nested level).Passes ok P := by
  cases level with
  | expression => exact passes_conditional ok P
  | signed => exact ⟨nofun, trivial, passes_unary _ _⟩
  | suffixed | type | array => exact Rule.passes_of_not_free rfl _ _

/-- Outside of expressions the rule of a file passes over tokens freely. -/
lemma passesFreely_file : file.passesFreely true = true := rfl

/-- **The rule of a file** passes over what it may. -/
lemma passes_file : file.Passes (fun _ => true) P :=
  Rule.passes_of_passesFreely passesFreely_file (fun _ _ => rfl) P

end Levels

/-! ## What was passed over -/

namespace Gathering

/-- **Only tokens that may be were passed over**: directly below the node that is open those of the
kinds `ok`, and in the nodes that were gathered those that these may pass over. -/
structure Passed (ok : TokenKind → Bool) (g : Gathering) : Prop where
  /-- Directly below the node that is open. -/
  here : PassesOver ok g.children
  /-- In the nodes that were gathered. -/
  below : ∀ n ∈ nodesOfList g.children, PassesOver n.kind.passesOver n.children

variable {ok ok' : TokenKind → Bool} {g g' : Gathering}

lemma Passed.mono (hok : ∀ k, ok k = true → ok' k = true) (h : g.Passed ok) : g.Passed ok' :=
  ⟨h.here.mono hok, h.below⟩

/-- Where nothing is gathered, nothing was passed over. -/
lemma passed_of_children_eq_nil (h : g.children = []) : g.Passed ok := by
  constructor
  · rw [h]
    exact fun _ he => absurd he List.not_mem_nil
  · rw [h, nodesOfList, List.filterMap_nil, Node.walk]
    exact List.forall_mem_nil _

/-- When tokens are gathered, none is passed over. -/
lemma Passed.tokens (h : g.Passed ok) (tokens : List Token)
    (hchildren : g'.children = g.children ++ tokens.map .token) : g'.Passed ok := by
  constructor
  · rw [hchildren]
    exact h.here.append (.map_token ok tokens)
  · rw [hchildren, nodesOfList_append, nodesOfList_map_token, List.append_nil]
    exact h.below

lemma Passed.bump (h : g.Passed ok) : g.bump.Passed ok := by
  cases hs : significant g.ahead with
  | nil =>
    rw [bump_of_nil hs]
    exact h
  | cons t rest =>
    have hflush : g.flush.Passed ok := h.tokens _ (flush_children g)
    rw [bump_of_cons hs]
    exact hflush.tokens [t] rfl

/-- What was passed over since a later place was passed over behind what was before. -/
lemma Passed.behind (h : g.Passed ok) (h' : g'.Passed ok) :
    (g'.behind g.flush.children).Passed ok := by
  have hflush : g.flush.Passed ok := h.tokens _ (flush_children g)
  refine ⟨hflush.here.append h'.here, fun n hn => ?_⟩
  exact (mem_nodesOfList_behind.1 hn).elim (h.below n) (h'.below n)

/-- A node may have passed over what was passed over where it was open. -/
lemma Passed.enclose {kind : NodeKind} (hkind : kind ≠ .error) (h : g.Passed kind.passesOver)
    (ok : TokenKind → Bool) : (g.enclose kind).Passed ok := by
  refine ⟨.node (n := Node.ofChildren kind g.children g.offset) hkind ok, fun n hn => ?_⟩
  obtain rfl | hn := mem_nodesOfList_enclose.1 hn
  · exact h.here
  · exact h.below n hn

/-- A token that may be passed over is. -/
lemma Passed.skip (h : g.Passed ok) (hnext : ∀ k, g.lookahead.first = some k → ok k = true) :
    g.skip.Passed ok := by
  cases hs : significant g.ahead with
  | nil =>
    rw [skip_of_nil hs]
    exact h
  | cons t rest =>
    have hfirst := lookahead_first_of_significant hs
    have hchildren : g.flush.fresh.bump.children = [t].map .token := by
      rw [bump_flush_fresh hs]
      rfl
    rw [skip_of_first hfirst]
    refine h.behind ⟨?_, fun n hn => ?_⟩
    · rintro e he - u hu
      obtain rfl := Element.node.inj (List.mem_singleton.1 he)
      rw [Node.ofChildren, Node.leaves, hchildren, leavesOfList_map_token, List.mem_singleton] at hu
      exact hu ▸ hnext _ hfirst
    · change n ∈ nodesOfList [.node g.skipped] at hn
      rw [skipped, hchildren, nodesOfList_node, nodesOfList_map_token, List.mem_singleton] at hn
      rw [hn]
      exact .map_token _ [t]

end Gathering

open Gathering

section Soundness

variable {rules : Nesting → Rule} {room : Nat} {r : Rule} {g g' : Gathering}

/-- Where a token comes next, taking or passing over one moves the cursor. -/
lemma Gathering.isEnd_of_cursor_eq (hsame : g.skip.cursor = g.cursor ∨ g.bump.cursor = g.cursor) :
    g.lookahead.isEnd = true := by
  cases hs : significant g.ahead with
  | nil =>
    rw [lookahead, hs]
    rfl
  | cons t rest =>
    rw [skip_of_first (lookahead_first_of_significant hs), bump_of_cons hs] at hsame
    change g.flush.fresh.bump.cursor = _ ∨ _ at hsame
    rw [bump_flush_fresh hs] at hsame
    exact absurd (hsame.elim id id) (Nat.succ_ne_self _)

/-- **A rule that leads on without a token taken** is one that may. -/
lemma Derives.idles (h : Derives rules room r g g') (hsame : g'.cursor = g.cursor) :
    r.idles g.lookahead = true := by
  induction h with
  | done | report | nest | full => rfl
  | seq h₁ h₂ ih₁ ih₂ =>
    obtain ⟨m, -, hm, -⟩ := h₁.takes
    obtain ⟨n, -, hn, -⟩ := h₂.takes
    have hnext := ih₂ (by omega)
    rw [h₁.lookahead_eq_of_cursor_eq (by omega)] at hnext
    exact Bool.and_eq_true_iff.2 ⟨ih₁ (by omega), hnext⟩
  | bump => exact isEnd_of_cursor_eq (.inr hsame)
  | skip => exact isEnd_of_cursor_eq (.inl hsame)
  | node _ ih | mark _ ih =>
    have hidles := ih (hsame.trans (flush_cursor _).symm)
    rwa [lookahead_fresh, lookahead_flush] at hidles
  | wrap _ ih => exact ih hsame
  | yes htest _ ih =>
    rw [Rule.idles, htest]
    exact ih hsame
  | no htest _ ih =>
    rw [Rule.idles, htest]
    exact ih hsame
  | stop hstop => exact hstop
  | step hstop h₁ h₂ _ _ =>
    have hloop := h₁.step hstop h₂
    rw [Rule.idles, ← hloop.lookahead_eq_of_cursor_eq hsame]
    exact hloop.stop_of_loop

/-- **What a rule passes over is what it may.** Where a place is remembered, nothing was passed over
since but what any node may pass over, so that a node can take over what is there.

**Proof sketch.** Induction on the derivation, along which it is followed what comes next. A loop
passes over a token where its step takes none, and then the token is one before which the step may
lead on without taking it. -/
theorem Derives.passed (h : Derives nested room r g g') {placed : Bool}
    (hwf : r.wellFormed placed = true) {ok : TokenKind → Bool} {P : Lookahead → Prop}
    (hpasses : r.Passes ok P) (hP : P g.lookahead)
    (hok : ∀ k, isPassable k = true → ok k = true)
    (hplaced : placed = true → ∀ k, ok k = true → isPassable k = true) (hg : g.Passed ok) :
    g'.Passed ok := by
  have hkind (kind : NodeKind) (k : TokenKind) (hk : isPassable k = true) :
      kind.passesOver k = true :=
    kind.passesOver_of_not_isClosing (Bool.not_inj hk)
  induction h generalizing placed ok P with
  | done => exact hg
  | report => exact ⟨hg.here, hg.below⟩
  | seq h₁ _ ih₁ ih₂ =>
    obtain ⟨hwf₁, hwf₂⟩ := Bool.and_eq_true_iff.1 hwf
    exact ih₂ hwf₂ hpasses.2 (h₁.after hP) hok hplaced (ih₁ hwf₁ hpasses.1 hP hok hplaced hg)
  | bump => exact hg.bump
  | skip => exact hg.skip fun k hfirst => hpasses _ k hP hfirst
  | @node _ kind _ _ _ _ ih =>
    have hbody := ih hwf hpasses.2 (by simpa using hP) (hkind kind) nofun
      (passed_of_children_eq_nil rfl)
    exact hg.behind (hbody.enclose hpasses.1 ok)
  | mark _ ih =>
    have hbody := ih hwf hpasses (by simpa using hP) (fun _ => id) (fun _ _ => id)
      (passed_of_children_eq_nil rfl)
    exact hg.behind (hbody.mono hok)
  | @wrap _ kind _ _ _ _ ih =>
    obtain ⟨hplace, hwf⟩ := Bool.and_eq_true_iff.1 hwf
    have hbefore := hg.mono fun k hk => hkind kind k (hplaced hplace k hk)
    exact (ih hwf hpasses.2 hP (hkind kind) nofun hbefore).enclose hpasses.1 ok
  | yes htest _ ih =>
    exact ih (Bool.and_eq_true_iff.1 hwf).1 hpasses.1 ⟨hP, htest⟩ hok hplaced hg
  | no htest _ ih =>
    exact ih (Bool.and_eq_true_iff.1 hwf).2 hpasses.2 ⟨hP, htest⟩ hok hplaced hg
  | stop => exact hg
  | @step room stop body g g₁ g₂ hstop h₁ _ ih₁ ih₂ =>
    have hg₁ := ih₁ (Bool.and_eq_true_iff.1 hwf).2 hpasses.2 hstop hok hplaced hg
    refine ih₂ hwf hpasses (P := fun _ => True) trivial hok hplaced ?_
    rw [Gathering.progress]
    split
    · next hsame =>
      -- No token was taken, so what comes next is what the step saw.
      refine hg₁.skip fun k hfirst => ?_
      rw [h₁.lookahead_eq_of_cursor_eq hsame] at hfirst
      exact hpasses.1 _ k hstop (h₁.idles hsame) hfirst
    · exact hg₁
  | nest _ ih =>
    obtain ⟨hplace, -⟩ := Bool.and_eq_true_iff.1 hwf
    refine ih (wellFormed_nested _) (passes_nested ok _ _) (P := fun _ => True) trivial hok
      (fun hwraps => hplaced ?_) hg
    rwa [hwraps] at hplace
  | full _ ih =>
    exact ih (Bool.and_eq_true_iff.1 hwf).2 hpasses (by simpa using hP) hok hplaced
      ⟨hg.here, hg.below⟩

end Soundness

end Grammar

open Grammar

/-! ## The tree of a stream of tokens -/

/-- **Which tokens are passed over**: in the tree of any stream of tokens, directly below a node
those that its kind may pass over. -/
theorem parseTokens_passesOver (tokens : List Token) :
    ∀ n ∈ (parseTokens tokens).1.descendants, Element.PassesOver n.kind.passesOver n.children := by
  obtain ⟨g, hg, -, -⟩ := exists_derives_file tokens
  have hpassed : g.Passed fun _ => true :=
    hg.passed wellFormed_file (passes_file (P := fun _ => True)) trivial (fun _ _ => rfl) nofun
      (Gathering.passed_of_children_eq_nil rfl)
  have hfinish : g.finish.Passed fun _ => true := hpassed.tokens _ (Gathering.attachAll_children ..)
  intro n hn
  rw [parseTokens_eq hg] at hn
  obtain rfl | hn := Node.mem_descendants_iff.1 hn
  · exact hfinish.here.mono fun _ _ => rfl
  · exact hfinish.below n hn

/-- Below a node of an expression there are only nodes that stand in the expression as well, and
some that have no child nodes. -/
lemma parseTokens_isInExpression (tokens : List Token) {m : Node}
    (hm : m ∈ (parseTokens tokens).1.descendants) (hk : m.kind.isInExpression = true) :
    ∀ n ∈ m.descendants, n ∈ (parseTokens tokens).1.descendants ∧
      (n.kind.isInExpression = true ∨ n.childNodes = []) := by
  obtain ⟨hroot, -, hsound⟩ := parseTokens_sound tokens (.inl trivial)
  have hbelow : m ∈ Element.nodesOfList (parseTokens tokens).1.children := by
    refine (Node.mem_descendants_iff.1 hm).resolve_left ?_
    rintro rfl
    rw [hroot] at hk
    cases hk
  have hleaf (n : Node) (hn : n ∈ Element.nodesOfList (parseTokens tokens).1.children)
      (hk : n.kind = .pathExpr ∨ n.kind = .error) : n.childNodes = [] := by
    have hadmitted := (hsound n hn).1.admitted
    obtain hk | hk := hk <;> rw [hk] at hadmitted <;>
      exact List.map_eq_nil_iff.1 (List.isEmpty_iff.1 hadmitted)
  have hstep (n : Node) (hn : n ∈ Element.nodesOfList (parseTokens tokens).1.children ∧
      (n.kind.isInExpression = true ∨ n.kind = .pathExpr ∨ n.kind = .error)) :
      ∀ c ∈ n.childNodes, c ∈ Element.nodesOfList (parseTokens tokens).1.children ∧
        (c.kind.isInExpression = true ∨ c.kind = .pathExpr ∨ c.kind = .error) := by
    intro c hc
    refine ⟨Node.mem_walk_of_mem_childNodes hn.1 hc, ?_⟩
    obtain hkind | hkind := hn.2
    · exact NodeKind.isInExpression_of_admits (hsound n hn.1).1.admitted hkind
        (List.mem_map_of_mem hc)
    · rw [hleaf n hn.1 hkind] at hc
      cases hc
  intro n hn
  obtain ⟨hn, hkind⟩ := Node.forall_mem_descendants hstep ⟨hbelow, .inl hk⟩ n hn
  exact ⟨Node.mem_descendants_iff.2 (.inr hn), hkind.imp id (hleaf n hn)⟩

/-- **Where closing brackets and separators are passed over in an expression**: only directly below
a list, a map, a list of arguments or the entries of a record, where no item begins with them; the
token is never the one that closes these items, and a comma only among the entries of a record. -/
theorem parseTokens_closing_foreign (tokens : List Token) :
    ∀ m ∈ (parseTokens tokens).1.descendants, m.kind.isInExpression = true →
      ∀ n ∈ m.descendants, ∀ e ∈ n.childNodes, e.kind = .error →
        ∀ t ∈ e.leaves, t.kind.isClosing = true →
          ∃ close, n.kind.closer? = some close ∧ t.kind ≠ close ∧
            (t.kind = .comma → n.kind.hasEntries = true) := by
  intro m hm hk n hn e he herror t ht hclosing
  obtain ⟨hmem, hkind | hnil⟩ := parseTokens_isInExpression tokens hm hk n hn
  · have hpassed := parseTokens_passesOver tokens n hmem e (Element.mem_nodes_iff.1 he) herror t ht
    exact NodeKind.exists_closer_of_passesOver hpassed hkind hclosing
  · rw [hnil] at he
    cases he

/-- The call of a function whose list of arguments is not closed. -/
theorem parseTokens_closing_foreign_call :
    ∃ m ∈ (parseTokens (tokenize "tx t() \x7b let x = f(a; \x7d")).1.descendants,
      m.kind.isInExpression = true ∧ ∃ n ∈ m.descendants, ∃ e ∈ n.childNodes, e.kind = .error ∧
        ∃ t ∈ e.leaves, t.kind.isClosing = true ∧
          ∃ close, n.kind.closer? = some close ∧ t.kind ≠ close ∧
            (t.kind = .comma → n.kind.hasEntries = true) := by
  obtain ⟨tx, htx, l, hl, m, hm, hk, n, hn, e, he, herror, t, ht, hclosing⟩ :
      ∃ tx ∈ (parseTokens (tokenize "tx t() \x7b let x = f(a; \x7d")).1.childNodes,
        ∃ l ∈ tx.childNodes, ∃ m ∈ l.childNodes, m.kind.isInExpression = true ∧
          ∃ n ∈ m.childNodes, ∃ e ∈ n.childNodes, e.kind = .error ∧
            ∃ t ∈ e.leaves, t.kind.isClosing = true := by decide +kernel
  have hm := Node.mem_descendants_trans
    (Node.mem_descendants_trans (Node.mem_descendants_of_mem htx) hl) hm
  have hn := Node.mem_descendants_of_mem hn
  exact ⟨m, hm, hk, n, hn, e, he, herror, t, ht, hclosing,
    parseTokens_closing_foreign _ m hm hk n hn e he herror t ht hclosing⟩

/-- There the semicolon and the brace behind the arguments are passed over. -/
theorem parseTokens_closing_swallowed :
    ∃ m ∈ (parseTokens (tokenize "tx t() \x7b let x = f(a; \x7d")).1.descendants,
      m.kind = .callExpr ∧ ∃ e ∈ m.descendants, e.kind = .error ∧
        ∃ t ∈ e.leaves, t.kind = .semicolon := by
  obtain ⟨tx, htx, l, hl, m, hm, hk, n, hn, e, he, hrest⟩ :
      ∃ tx ∈ (parseTokens (tokenize "tx t() \x7b let x = f(a; \x7d")).1.childNodes,
        ∃ l ∈ tx.childNodes, ∃ m ∈ l.childNodes, m.kind = .callExpr ∧
          ∃ n ∈ m.childNodes, ∃ e ∈ n.childNodes, e.kind = .error ∧
            ∃ t ∈ e.leaves, t.kind = .semicolon := by decide +kernel
  have hm := Node.mem_descendants_trans
    (Node.mem_descendants_trans (Node.mem_descendants_of_mem htx) hl) hm
  exact ⟨m, hm, hk, e, Node.mem_descendants_trans (Node.mem_descendants_of_mem hn) he, hrest⟩

end TxTree
