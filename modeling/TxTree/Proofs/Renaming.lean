import TxTree.Proofs.Findings
import TxTree.Proofs.Following
import TxTree.Proofs.Trivia

set_option relaxedAutoImplicit false
set_option autoImplicit false

/-!
# Soft keywords in the place of identifiers

If identifiers of a stream are replaced by soft keywords, a rule that is impartial goes the same
way in both streams, as long as nothing is amiss in the first. It may tell a soft keyword from an
identifier only where an identifier is refused at once.

## Main definitions

* `TxTree.Token.RenamedTo` — a token, or a soft keyword in the place of an identifier.
* `TxTree.Element.Matches` — trees with the same nodes, the tokens of which correspond.
* `TxTree.Grammar.Rule.Impartial` — rules that read soft keywords as they read identifiers.
* `TxTree.Grammar.Gathering.RenamedTo` — gatherings in which the tokens correspond.

## Main results

* `TxTree.Grammar.Derives.renamed` — what is derived of a stream without errors is derived of one
  where identifiers are replaced.
-/

namespace TxTree

/-! ## Tokens -/

/-- The same kind, or that of a soft keyword in the place of identifiers. -/
def TokenKind.RenamedTo (k k' : TokenKind) : Prop :=
  k' = k ∨ k = .ident ∧ k'.isSoftKeyword = true

/-- **A token in the place of another**: the same one, wherever it stands, or a soft keyword in the
place of an identifier. -/
def Token.RenamedTo (t u : Token) : Prop :=
  u.lexeme = t.lexeme ∨ t.kind = .ident ∧ u.kind.isSoftKeyword = true

instance (t u : Token) : Decidable (t.RenamedTo u) :=
  inferInstanceAs (Decidable (_ ∨ _))

/-- A soft keyword is neither white space nor a comment. -/
lemma TokenKind.isTrivia_of_isSoftKeyword : ∀ k : TokenKind, k.isSoftKeyword = true →
    k.isTrivia = false := by
  decide

/-- A soft keyword has no closing mark to lack. -/
lemma Token.isUnterminated_of_isSoftKeyword {t : Token} (h : t.kind.isSoftKeyword = true) :
    t.isUnterminated = false := by
  obtain ⟨kind, text, span⟩ := t
  cases kind <;> first | rfl | cases h

namespace Token.RenamedTo

variable {t u : Token}

lemma kind (h : t.RenamedTo u) : t.kind.RenamedTo u.kind :=
  h.imp (congrArg Lexeme.kind) id

/-- White space and comments stay what they are. -/
lemma isTrivia_eq (h : t.RenamedTo u) : u.isTrivia = t.isTrivia := by
  unfold Token.isTrivia
  rcases h.kind with hsame | ⟨hident, hsoft⟩
  · rw [hsame]
  · rw [hident, TokenKind.isTrivia_of_isSoftKeyword _ hsoft]
    rfl

/-- Where nothing is amiss with a token, nothing is with the one in its place. -/
lemma complaints_eq_nil (h : t.RenamedTo u) (hclean : Grammar.complaints t = []) :
    Grammar.complaints u = [] := by
  rcases h with hsame | ⟨-, hsoft⟩
  · rw [Grammar.complaints_congr hsame.symm, hclean, List.map_nil]
  · rw [Grammar.complaints, Token.isUnterminated_of_isSoftKeyword hsoft]
    rfl

end Token.RenamedTo

/-! ## Trees -/

/-- **Trees with the same nodes**, the tokens of which correspond one by one. Where the nodes are
does not matter. -/
inductive Element.Matches (R : Token → Token → Prop) : Element → Element → Prop where
  | token {t u : Token} : R t u → Matches R (.token t) (.token u)
  | node {kind : NodeKind} {span span' : Span} {cs ds : List Element} :
    List.Forall₂ (Matches R) cs ds → Matches R (.node ⟨kind, span, cs⟩) (.node ⟨kind, span', ds⟩)

/-- Two trees with the same nodes, the tokens of which correspond one by one. -/
def Node.Matches (R : Token → Token → Prop) (m n : Node) : Prop :=
  Element.Matches R (.node m) (.node n)

/-- Tokens that correspond are trees that do. -/
lemma Element.forall₂_matches_map_token {R : Token → Token → Prop} {ts us : List Token}
    (h : List.Forall₂ R ts us) :
    List.Forall₂ (Element.Matches R) (ts.map .token) (us.map .token) := by
  rw [List.forall₂_map_left_iff, List.forall₂_map_right_iff]
  exact h.imp fun _ _ => .token

namespace Grammar

open Gathering

/-! ## Streams -/

section Streams

variable {ts us : List Token}

/-- The white space and comments at the front correspond, … -/
lemma forall₂_takeWhile (h : List.Forall₂ Token.RenamedTo ts us) :
    List.Forall₂ Token.RenamedTo (ts.takeWhile (·.isTrivia)) (us.takeWhile (·.isTrivia)) := by
  induction h with
  | nil => exact .nil
  | @cons t u ts us htu _ ih =>
    cases ht : t.isTrivia with
    | true =>
      rw [List.takeWhile_cons_of_pos ht, List.takeWhile_cons_of_pos (htu.isTrivia_eq.trans ht)]
      exact .cons htu ih
    | false =>
      have hu := htu.isTrivia_eq.trans ht
      rw [List.takeWhile_cons_of_neg (by simp [ht]), List.takeWhile_cons_of_neg (by simp [hu])]
      exact .nil

/-- … and so does all that is behind them. -/
lemma forall₂_significant (h : List.Forall₂ Token.RenamedTo ts us) :
    List.Forall₂ Token.RenamedTo (significant ts) (significant us) := by
  unfold significant
  induction h with
  | nil => exact .nil
  | @cons t u ts us htu hrest ih =>
    cases ht : t.isTrivia with
    | true =>
      rw [List.dropWhile_cons_of_pos ht, List.dropWhile_cons_of_pos (htu.isTrivia_eq.trans ht)]
      exact ih
    | false =>
      have hu := htu.isTrivia_eq.trans ht
      rw [List.dropWhile_cons_of_neg (by simp [ht]), List.dropWhile_cons_of_neg (by simp [hu])]
      exact .cons htu hrest

/-- So do the tokens that are neither. -/
lemma forall₂_pending (h : List.Forall₂ Token.RenamedTo ts us) :
    List.Forall₂ Token.RenamedTo (pending ts) (pending us) :=
  List.rel_filter (fun t u htu => by simp only [htu.isTrivia_eq]) h

/-- Where nothing is amiss with some tokens, nothing is with those in their places. -/
lemma flatMap_complaints_eq_nil (h : List.Forall₂ Token.RenamedTo ts us)
    (hclean : ts.flatMap complaints = []) : us.flatMap complaints = [] := by
  induction h with
  | nil => rfl
  | cons htu _ ih =>
    rw [List.flatMap_cons, List.append_eq_nil_iff] at hclean ⊢
    exact ⟨htu.complaints_eq_nil hclean.1, ih hclean.2⟩

end Streams

/-! ## Impartial rules -/

/-- What comes next, with soft keywords in the place of identifiers. -/
structure Lookahead.RenamedTo (l m : Lookahead) : Prop where
  /-- The next kinds correspond, … -/
  first : Option.Rel TokenKind.RenamedTo l.first m.first
  /-- … and so do the ones after them. -/
  second : Option.Rel TokenKind.RenamedTo l.second m.second

/-- A test is impartial if it makes no difference between identifiers and soft keywords. -/
def Lookahead.Impartial (test : Lookahead → Bool) : Prop :=
  ∀ l m : Lookahead, l.RenamedTo m → test l = test m

/-- A rule that reports an error at once. -/
def Rule.Reports (r : Rule) : Prop := ∃ message rest, r = .seq (.report message) rest

/-- **Impartial rules**: every choice comes to the same with soft keywords in the place of
identifiers, or reports an error at once, and every loop stops at the same place. -/
def Rule.Impartial : Rule → Prop
  | .done | .bump | .skip | .report _ | .nest _ _ => True
  | .seq first second => first.Impartial ∧ second.Impartial
  | .node _ body | .mark body | .wrap _ body => body.Impartial
  | .branch test yes no =>
    (∀ l m, l.RenamedTo m →
      (Rule.branch test yes no).resolve l = (Rule.branch test yes no).resolve m ∨
        ((Rule.branch test yes no).resolve l).Reports) ∧
      yes.Impartial ∧ no.Impartial
  | .loop stop body => Lookahead.Impartial stop ∧ body.Impartial

section Rules

variable {rules : Nesting → Rule} {room : Nat} {r : Rule} {g g' : Gathering} {l m : Lookahead}

/-- Where an error is reported at once, something is found. -/
lemma Rule.Reports.ne_nil (hr : r.Reports) (h : Derives rules room r g g') :
    g'.diagnostics ≠ [] := by
  obtain ⟨message, rest, rfl⟩ := hr
  cases h with
  | seq hreport hrest =>
    cases hreport
    intro hclean
    have hnil := hrest.clean hclean
    exact List.append_ne_nil_of_right_ne_nil _ (List.cons_ne_nil _ _) hnil

lemma Rule.Impartial.resolve_eq_or (hr : r.Impartial) (h : l.RenamedTo m) :
    r.resolve l = r.resolve m ∨ (r.resolve l).Reports := by
  cases r with
  | branch test yes no => exact hr.1 l m h
  | _ => exact .inl rfl

/-- A choice that leads to no error comes to the same in both streams. -/
lemma Rule.Impartial.resolve_eq (hr : r.Impartial) (h : Derives rules room r g g')
    (hclean : g'.diagnostics = []) (hm : g.lookahead.RenamedTo m) :
    r.resolve g.lookahead = r.resolve m :=
  (hr.resolve_eq_or hm).resolve_right fun hreports =>
    hreports.ne_nil (derives_resolve_iff.2 h) hclean

end Rules

/-! ## Side by side -/

/-- **Gatherings in which the tokens correspond**, those to come and those gathered in the same
nodes; in the second nothing is found. -/
structure Gathering.RenamedTo (g h : Gathering) : Prop where
  /-- As many tokens are taken. -/
  cursor_eq : h.cursor = g.cursor
  /-- The tokens to come correspond. -/
  ahead : List.Forall₂ Token.RenamedTo g.ahead h.ahead
  /-- What is gathered has the same nodes. -/
  children : List.Forall₂ (Element.Matches Token.RenamedTo) g.children h.children
  /-- Nothing is found. -/
  clean : h.diagnostics = []

namespace Gathering.RenamedTo

variable {g h g' h' : Gathering}

/-- What comes next corresponds. -/
lemma lookahead (ha : g.RenamedTo h) : g.lookahead.RenamedTo h.lookahead := by
  have hpending := forall₂_pending ha.ahead
  rw [lookahead_eq, lookahead_eq]
  generalize pending g.ahead = ts at hpending
  generalize pending h.ahead = us at hpending
  cases hpending with
  | nil => exact ⟨.none, .none⟩
  | cons htu hrest =>
    cases hrest with
    | nil => exact ⟨.some htu.kind, .none⟩
    | cons htu' _ => exact ⟨.some htu.kind, .some htu'.kind⟩

/-! ### Moves -/

lemma attachAll (ha : g.RenamedTo h) {ts us : List Token}
    (hts : List.Forall₂ Token.RenamedTo ts us) (hclean : ts.flatMap complaints = []) :
    (g.attachAll ts).RenamedTo (h.attachAll us) := by
  refine ⟨?_, ?_, ?_, ?_⟩
  · rw [attachAll_cursor, attachAll_cursor, ha.cursor_eq]
  · rw [attachAll_ahead, attachAll_ahead]
    exact ha.ahead
  · rw [attachAll_children, attachAll_children]
    exact List.rel_append ha.children (Element.forall₂_matches_map_token hts)
  · rw [attachAll_diagnostics, ha.clean, flatMap_complaints_eq_nil hts hclean]
    rfl

lemma flush (ha : g.RenamedTo h) (hclean : g.flush.diagnostics = []) :
    g.flush.RenamedTo h.flush := by
  rw [flush_diagnostics, List.append_eq_nil_iff] at hclean
  have hbehind : ({ g with ahead := significant g.ahead } : Gathering).RenamedTo
      { h with ahead := significant h.ahead } :=
    ⟨ha.cursor_eq, forall₂_significant ha.ahead, ha.children, ha.clean⟩
  exact hbehind.attachAll (forall₂_takeWhile ha.ahead) hclean.2

lemma fresh (ha : g.RenamedTo h) : g.fresh.RenamedTo h.fresh :=
  ⟨ha.cursor_eq, ha.ahead, .nil, ha.clean⟩

lemma behind (ha : g.RenamedTo h) (ha' : g'.RenamedTo h') :
    (g'.behind g.children).RenamedTo (h'.behind h.children) :=
  ⟨ha'.cursor_eq, ha'.ahead, List.rel_append ha.children ha'.children, ha'.clean⟩

lemma enclose (ha : g.RenamedTo h) (kind : NodeKind) :
    (g.enclose kind).RenamedTo (h.enclose kind) :=
  ⟨ha.cursor_eq, ha.ahead, .cons (.node ha.children) .nil, ha.clean⟩

lemma bump (ha : g.RenamedTo h) (hclean : g.bump.diagnostics = []) :
    g.bump.RenamedTo h.bump := by
  have hnext := forall₂_significant ha.ahead
  cases hg : significant g.ahead with
  | nil =>
    rw [hg, List.forall₂_nil_left_iff] at hnext
    rw [bump_of_nil hg, bump_of_nil hnext]
    exact ha
  | cons t rest =>
    rw [hg, List.forall₂_cons_left_iff] at hnext
    obtain ⟨u, rest', htu, hrest, hh⟩ := hnext
    rw [bump_of_cons hg] at hclean
    obtain ⟨hflush, ht⟩ := List.append_eq_nil_iff.1 hclean
    have hnone : [t].flatMap complaints = [] := List.append_eq_nil_iff.2 ⟨ht, rfl⟩
    have hattach := (ha.flush hflush).attachAll (.cons htu .nil) hnone
    rw [bump_of_cons hg, bump_of_cons hh]
    exact ⟨congrArg (· + 1) ha.cursor_eq, hrest, hattach.children, hattach.clean⟩

lemma skip (ha : g.RenamedTo h) (hclean : g.skip.diagnostics = []) :
    g.skip.RenamedTo h.skip := by
  have hnext := ha.lookahead.first
  unfold Gathering.skip at hclean ⊢
  generalize h.lookahead.first = first at hnext ⊢
  cases hfirst : g.lookahead.first with
  | none =>
    rw [hfirst] at hnext
    cases hnext
    exact ha
  | some k =>
    rw [hfirst] at hnext hclean
    cases hnext
    have hflush := ha.flush (List.prefix_nil.1 (hclean ▸ diagnostics_prefix_bump g.flush.fresh))
    exact hflush.behind ((hflush.fresh.bump hclean).enclose _)

lemma progress (ha : g.RenamedTo h) {cursor : Nat} (hclean : (g.progress cursor).diagnostics = []) :
    (g.progress cursor).RenamedTo (h.progress cursor) := by
  unfold Gathering.progress at hclean ⊢
  rw [ha.cursor_eq]
  split at hclean
  · next hsame =>
    rw [if_pos hsame, if_pos hsame]
    exact ha.skip hclean
  · next hmoved =>
    rw [if_neg hmoved, if_neg hmoved]
    exact ha

/-- What is left of the two streams corresponds. -/
lemma finish (ha : g.RenamedTo h) (hclean : g.finish.diagnostics = []) :
    g.finish.RenamedTo h.finish := by
  unfold Gathering.finish at hclean ⊢
  rw [attachAll_diagnostics, List.append_eq_nil_iff] at hclean
  have hleft : ({ g with ahead := [] } : Gathering).RenamedTo { h with ahead := [] } :=
    ⟨ha.cursor_eq, .nil, ha.children, ha.clean⟩
  exact hleft.attachAll ha.ahead hclean.2

/-- Before the first token nothing is gathered in either stream. -/
lemma ofTokens {ts us : List Token} (h : List.Forall₂ Token.RenamedTo ts us) :
    (Gathering.ofTokens ts).RenamedTo (Gathering.ofTokens us) :=
  ⟨rfl, h, .nil, rfl⟩

end Gathering.RenamedTo

/-! ## Derivations side by side -/

/-- **What is derived of a stream without errors is derived of one where identifiers are replaced**
by soft keywords, and leads to the same nodes.

**Proof sketch.** Induction on the derivation. An impartial rule goes the same way in both streams
wherever no error is reported, and as nothing is found at last, nothing is on the way. -/
theorem Derives.renamed {rules : Nesting → Rule} (hrules : ∀ level, (rules level).Impartial)
    {room : Nat} {r : Rule} {g g' : Gathering} (hd : Derives rules room r g g')
    (hr : r.Impartial) (hclean : g'.diagnostics = []) {h : Gathering} (ha : g.RenamedTo h) :
    ∃ h', Derives rules room r h h' ∧ g'.RenamedTo h' := by
  induction hd generalizing h with
  | done => exact ⟨h, .done, ha⟩
  | seq _ hsecond ih₁ ih₂ =>
    obtain ⟨h₁, hd₁, ha₁⟩ := ih₁ hr.1 (hsecond.clean hclean) ha
    obtain ⟨h₂, hd₂, ha₂⟩ := ih₂ hr.2 hclean ha₁
    exact ⟨h₂, .seq hd₁ hd₂, ha₂⟩
  | bump => exact ⟨h.bump, .bump, ha.bump hclean⟩
  | skip => exact ⟨h.skip, .skip, ha.skip hclean⟩
  | report => exact absurd hclean (List.append_ne_nil_of_right_ne_nil _ (List.cons_ne_nil _ _))
  | node hbody ih =>
    have hflush := ha.flush (hbody.clean hclean)
    obtain ⟨h₁, hd₁, ha₁⟩ := ih hr hclean hflush.fresh
    exact ⟨_, .node hd₁, hflush.behind (ha₁.enclose _)⟩
  | mark hbody ih =>
    have hflush := ha.flush (hbody.clean hclean)
    obtain ⟨h₁, hd₁, ha₁⟩ := ih hr hclean hflush.fresh
    exact ⟨_, .mark hd₁, hflush.behind ha₁⟩
  | wrap _ ih =>
    obtain ⟨h₁, hd₁, ha₁⟩ := ih hr hclean ha
    exact ⟨_, .wrap hd₁, ha₁.enclose _⟩
  | yes htest hyes ih =>
    obtain ⟨h₁, hd₁, ha₁⟩ := ih hr.2.1 hclean ha
    have hchoice := hr.resolve_eq (.yes htest hyes) hclean ha.lookahead
    rw [Rule.resolve, if_pos htest, hr.2.1.resolve_eq hyes hclean ha.lookahead] at hchoice
    exact ⟨h₁, derives_resolve_iff.1 (hchoice ▸ derives_resolve_iff.2 hd₁), ha₁⟩
  | no htest hno ih =>
    obtain ⟨h₁, hd₁, ha₁⟩ := ih hr.2.2 hclean ha
    have hchoice := hr.resolve_eq (.no htest hno) hclean ha.lookahead
    rw [Rule.resolve, if_neg (by simp [htest]), hr.2.2.resolve_eq hno hclean ha.lookahead]
      at hchoice
    exact ⟨h₁, derives_resolve_iff.1 (hchoice ▸ derives_resolve_iff.2 hd₁), ha₁⟩
  | stop hstop => exact ⟨h, .stop ((hr.1 _ _ ha.lookahead).symm.trans hstop), ha⟩
  | @step room stop body g g₁ g₂ hstop hbody hloop ih₁ ih₂ =>
    have hprogress := hloop.clean hclean
    have hstays := diagnostics_prefix_progress g₁ g.cursor
    rw [hprogress, List.prefix_nil] at hstays
    obtain ⟨h₁, hd₁, ha₁⟩ := ih₁ hr.2 hstays ha
    obtain ⟨h₂, hd₂, ha₂⟩ := ih₂ hr hclean (ha₁.progress hprogress)
    rw [← ha.cursor_eq] at hd₂
    exact ⟨h₂, .step ((hr.1 _ _ ha.lookahead).symm.trans hstop) hd₁ hd₂, ha₂⟩
  | nest _ ih =>
    obtain ⟨h₁, hd₁, ha₁⟩ := ih (hrules _) hclean ha
    exact ⟨h₁, .nest hd₁, ha₁⟩
  | full hother _ =>
    have hreported := hother.clean hclean
    exact absurd hreported (List.append_ne_nil_of_right_ne_nil _ (List.cons_ne_nil _ _))

end Grammar

end TxTree
