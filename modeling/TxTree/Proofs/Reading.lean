import TxTree.Proofs.Following
import TxTree.Proofs.Shapes

set_option relaxedAutoImplicit false
set_option autoImplicit false

/-!
# Reading without a finding

A rule reads some lexemes if it takes them, makes shapes of them and finds nothing amiss. What a
rule reads is put together from what its parts read, and nothing needs to be said about white
space, comments and places on the way: that the comments are closed is enough.

## Main definitions

* `TxTree.Grammar.Gathering.Shows` — what is gathered and what is to come, without places.
* `TxTree.Grammar.Reads` — what a rule reads.

## Main results

* `TxTree.Grammar.Reads.seq`, `TxTree.Grammar.Reads.node`, `TxTree.Grammar.Reads.wrap`,
  `TxTree.Grammar.Reads.step`, … — how readings are put together, one law for each kind of rule.
* `TxTree.Grammar.Reads.of_resolve` — a choice reads what it comes to reads.
-/

namespace TxTree

namespace Grammar

/-! ## Looking at lexemes -/

section Looking

variable {p q : TokenKind → Bool} {l : Lookahead} {w w' : List Lexeme}

/-- What comes next is the first lexeme, and then what comes next behind it. -/
lemma lookaheadOf_cons (l : Lexeme) (w : List Lexeme) :
    lookaheadOf (l :: w) = ⟨some l.kind, (lookaheadOf w).first⟩ := by
  cases w <;> rfl

/-- What comes next in a list of lexemes is seen from its first part. -/
lemma startsWith_append (h : (lookaheadOf w).startsWith p = true) :
    (lookaheadOf (w ++ w')).startsWith p = true := by
  cases w with
  | nil => cases h
  | cons l w => exact h

/-- What is of one of some kinds is of one of more. -/
lemma startsWith_mono (hpq : ∀ k, p k = true → q k = true) (h : l.startsWith p = true) :
    l.startsWith q = true := by
  unfold Lookahead.startsWith at h ⊢
  cases hfirst : l.first with
  | none =>
    rw [hfirst] at h
    cases h
  | some k =>
    rw [hfirst] at h
    exact hpq k h

/-- What is of none of some kinds is of none of fewer. -/
lemma startsWith_eq_false_of_imp (hpq : ∀ k, p k = true → q k = true)
    (h : l.startsWith q = false) : l.startsWith p = false :=
  Bool.eq_false_iff.2 fun hp => Bool.eq_false_iff.1 h (startsWith_mono hpq hp)

/-- What is of one of some kinds is of none of others. -/
lemma startsWith_eq_false_of_disjoint (hpq : ∀ k, p k = true → q k = false)
    (h : l.startsWith p = true) : l.startsWith q = false := by
  unfold Lookahead.startsWith at h ⊢
  cases hfirst : l.first with
  | none => rfl
  | some k =>
    rw [hfirst] at h
    exact hpq k h

/-- To start with a token of a kind is to start with one of that kind only. -/
lemma starts_eq_startsWith (kind : TokenKind) : l.starts kind = l.startsWith (· == kind) := by
  unfold Lookahead.starts Lookahead.startsWith
  cases l.first <;> rfl

/-- A list ends where nothing but its closing bracket comes next, … -/
lemma endsList_of_startsWith_ne {close : TokenKind} (h : l.startsWith (· != close) = false) :
    l.endsList close = true := by
  unfold Lookahead.startsWith at h
  unfold Lookahead.endsList
  cases hfirst : l.first with
  | none => rfl
  | some k =>
    rw [hfirst] at h
    rw [Bool.or_eq_true]
    exact .inl (bne_eq_false_iff_eq.1 h ▸ beq_self_eq_true k)

/-- … and goes on where a token comes next that neither closes it nor opens a declaration. -/
lemma endsList_eq_false {close : TokenKind}
    (hp : ∀ k, p k = true → (k == close || k.isHardDeclarationKeyword) = false)
    (h : l.startsWith p = true) : l.endsList close = false := by
  unfold Lookahead.startsWith at h
  unfold Lookahead.endsList
  cases hfirst : l.first with
  | none =>
    rw [hfirst] at h
    cases h
  | some k =>
    rw [hfirst] at h
    exact hp k h

end Looking

end Grammar

/-! ### Names -/

namespace Name

open Grammar

variable (n : Name) (w : List Lexeme)

lemma not_startsWith {p : TokenKind → Bool} (hp : ∀ k, k.isName = true → p k = false) :
    (lookaheadOf (n.1 :: w)).startsWith p = false :=
  hp n.1.kind n.2

lemma not_starts {kind : TokenKind} (hkind : kind.isName = false) :
    (lookaheadOf (n.1 :: w)).starts kind = false := by
  rw [starts_eq_startsWith]
  refine n.not_startsWith w fun k hk => beq_eq_false_iff_ne.2 ?_
  rintro rfl
  rw [hk] at hkind
  cases hkind

/-- No list ends at a name. -/
lemma not_endsList {close : TokenKind} (hclose : close.isName = false) :
    (lookaheadOf (n.1 :: w)).endsList close = false := by
  have hstarts := n.not_starts w hclose
  have hhard : ∀ k : TokenKind, k.isName = true → k.isHardDeclarationKeyword = false := by decide
  exact Bool.or_eq_false_iff.2 ⟨hstarts, hhard _ n.2⟩

end Name

namespace Grammar

/-! ## What a gathering shows -/

/-- **What a gathering shows**: the shapes that are gathered and the lexemes that are to come; and
no string or comment that is to come lacks its closing mark. -/
structure Gathering.Shows (f : List Shape) (w : List Lexeme) (g : Gathering) : Prop where
  /-- The shapes that are gathered. -/
  shapes_eq : g.shapes = f
  /-- The lexemes that are to come. -/
  lexemes_eq : g.lexemes = w
  /-- The closing marks are there. -/
  terminated : ∀ t ∈ g.ahead, t.isUnterminated = false

/-- There is nothing amiss with a token that has its closing mark. -/
lemma complaints_eq_nil {t : Token} (h : t.isUnterminated = false) : complaints t = [] := by
  rw [complaints, h]
  rfl

namespace Gathering.Shows

variable {f : List Shape} {l : Lexeme} {w : List Lexeme} {g : Gathering}

lemma lookahead_eq (h : g.Shows f w) : g.lookahead = lookaheadOf w := by
  rw [lookahead_eq_lookaheadOf, h.lexemes_eq]

lemma flush (h : g.Shows f w) : g.flush.Shows f w := by
  refine ⟨?_, ?_, fun t ht => h.terminated t ?_⟩
  · rw [shapes_flush, h.shapes_eq]
  · rw [lexemes_flush, h.lexemes_eq]
  · rw [flush_ahead] at ht
    exact (List.dropWhile_sublist _).mem ht

lemma fresh (h : g.Shows f w) : g.fresh.Shows [] w :=
  ⟨shapes_fresh g, h.lexemes_eq, h.terminated⟩

/-- White space and comments bring no findings. -/
lemma diagnostics_flush (h : g.Shows f w) : g.flush.diagnostics = g.diagnostics := by
  have hnil : (g.ahead.takeWhile (·.isTrivia)).flatMap complaints = [] := by
    rw [List.flatMap_eq_nil_iff]
    exact fun t ht => complaints_eq_nil (h.terminated t ((List.takeWhile_sublist _).mem ht))
  rw [flush_diagnostics, hnil, List.append_nil]

lemma bump (h : g.Shows f (l :: w)) : g.bump.Shows (f ++ [.leaf l]) w := by
  refine ⟨?_, lexemes_bump h.lexemes_eq, ?_⟩
  · rw [shapes_bump h.lexemes_eq, h.shapes_eq]
  · obtain ⟨t, rest, hs, -, -⟩ := exists_significant_of_lexemes h.lexemes_eq
    intro u hu
    rw [bump_of_cons hs] at hu
    have hmem : u ∈ significant g.ahead := hs ▸ List.mem_cons_of_mem t hu
    exact h.terminated u ((List.dropWhile_sublist _).mem hmem)

/-- A token that is taken brings no findings. -/
lemma diagnostics_bump (h : g.Shows f (l :: w)) : g.bump.diagnostics = g.diagnostics := by
  obtain ⟨t, rest, hs, -, -⟩ := exists_significant_of_lexemes h.lexemes_eq
  have hmem : t ∈ significant g.ahead := hs ▸ List.mem_cons_self
  have ht := complaints_eq_nil (h.terminated t ((List.dropWhile_sublist _).mem hmem))
  rw [bump_of_cons hs]
  change g.flush.diagnostics ++ complaints t = _
  rw [ht, List.append_nil, h.diagnostics_flush]

lemma enclose (h : g.Shows f w) (kind : NodeKind) : (g.enclose kind).Shows [.node kind f] w :=
  ⟨by rw [shapes_enclose, h.shapes_eq], h.lexemes_eq, h.terminated⟩

lemma behind {f' : List Shape} {w' : List Lexeme} {g' : Gathering} (h : g.Shows f w)
    (h' : g'.Shows f' w') : (g'.behind g.flush.children).Shows (f ++ f') w' :=
  ⟨by rw [shapes_behind, h.shapes_eq, h'.shapes_eq], h'.lexemes_eq, h'.terminated⟩

/-- Where fewer lexemes are to come, the cursor has moved. -/
lemma cursor_ne {f' : List Shape} {w' : List Lexeme} {g' : Gathering} {room : Nat} {r : Rule}
    (h : g.Shows f w) (h' : g'.Shows f' w') (hr : Derives nested room r g g')
    (hlt : w'.length < w.length) : g'.cursor ≠ g.cursor := by
  have hlength (k : Gathering) : k.lexemes.length = (pending k.ahead).length := List.length_map _
  obtain ⟨n, hpending, hcursor, -⟩ := hr.takes
  rw [← h.lexemes_eq, ← h'.lexemes_eq, hlength, hlength, hpending, List.length_drop] at hlt
  omega

end Gathering.Shows

/-! ## What a rule reads -/

/-- **What a rule reads**: with room for `room` nesting levels, from wherever `f` is gathered and
`w` is to come it leads to where `f'` is gathered and `w'` is to come, and finds nothing. -/
def Reads (room : Nat) (r : Rule) (f : List Shape) (w : List Lexeme) (f' : List Shape)
    (w' : List Lexeme) : Prop :=
  ∀ g : Gathering, g.Shows f w →
    ∃ g', Derives nested room r g g' ∧ g'.Shows f' w' ∧ g'.diagnostics = g.diagnostics

namespace Reads

variable {room : Nat} {r first second body : Rule} {f f₁ f₂ f' : List Shape} {l : Lexeme}
  {w w₁ w₂ w' : List Lexeme} {ends : Lookahead → Bool}

lemma done : Reads room .done f w f w := fun g hg => ⟨g, .done, hg, rfl⟩

/-- What is read, however it is written. -/
lemma of_eq (h : Reads room r f w₁ f₁ w') (hw : w₁ = w) (hf : f₁ = f') : Reads room r f w f' w' :=
  hw ▸ hf ▸ h

lemma seq (h₁ : Reads room first f w f₁ w₁) (h₂ : Reads room second f₁ w₁ f₂ w₂) :
    Reads room (first ++ second) f w f₂ w₂ := by
  intro g hg
  obtain ⟨g₁, hg₁, hs₁, hd₁⟩ := h₁ g hg
  obtain ⟨g₂, hg₂, hs₂, hd₂⟩ := h₂ g₁ hs₁
  exact ⟨g₂, .seq hg₁ hg₂, hs₂, hd₂.trans hd₁⟩

lemma bump : Reads room .bump f (l :: w) (f ++ [.leaf l]) w :=
  fun g hg => ⟨g.bump, .bump, hg.bump, hg.diagnostics_bump⟩

/-- To take a token and to go on. -/
lemma bump_append (h : Reads room r (f ++ [.leaf l]) w f' w') :
    Reads room (.bump ++ r) f (l :: w) f' w' := bump.seq h

/-- What is read inside becomes one node. -/
lemma node {kind : NodeKind} (h : Reads room body [] w f' w') :
    Reads room (.node kind body) f w (f ++ [.node kind f']) w' := by
  intro g hg
  obtain ⟨g', hg', hs', hd'⟩ := h _ hg.flush.fresh
  exact ⟨_, .node hg', hg.behind (hs'.enclose kind), hd'.trans hg.diagnostics_flush⟩

/-- What is read since a new place stands behind what was there. -/
lemma mark (h : Reads room body [] w f' w') : Reads room (.mark body) f w (f ++ f') w' := by
  intro g hg
  obtain ⟨g', hg', hs', hd'⟩ := h _ hg.flush.fresh
  exact ⟨_, .mark hg', hg.behind hs', hd'.trans hg.diagnostics_flush⟩

/-- What was there becomes one node with what is read. -/
lemma wrap {kind : NodeKind} (h : Reads room body f w f' w') :
    Reads room (.wrap kind body) f w [.node kind f'] w' := by
  intro g hg
  obtain ⟨g', hg', hs', hd'⟩ := h g hg
  exact ⟨_, .wrap hg', hs'.enclose kind, hd'⟩

/-- **A choice reads what it comes to reads.** -/
lemma of_resolve (h : Reads room (r.resolve (lookaheadOf w)) f w f' w') :
    Reads room r f w f' w' := by
  intro g hg
  obtain ⟨g', hg', hs', hd'⟩ := h g hg
  rw [← hg.lookahead_eq] at hg'
  exact ⟨g', derives_resolve_iff.1 hg', hs', hd'⟩

/-- A choice reads what it comes to where a token of some kind comes next. -/
lemma of_resolve_cons {r' : Rule} (hr : r.resolve ⟨some l.kind, (lookaheadOf w).first⟩ = r')
    (h : Reads room r' f (l :: w) f' w') : Reads room r f (l :: w) f' w' := by
  refine of_resolve ?_
  rw [lookaheadOf_cons, hr]
  exact h

lemma yes {test : Lookahead → Bool} {no : Rule} (htest : test (lookaheadOf w) = true)
    (h : Reads room r f w f' w') : Reads room (.branch test r no) f w f' w' := by
  intro g hg
  obtain ⟨g', hg', hs', hd'⟩ := h g hg
  exact ⟨g', .yes (hg.lookahead_eq ▸ htest) hg', hs', hd'⟩

lemma no {test : Lookahead → Bool} {yes : Rule} (htest : test (lookaheadOf w) = false)
    (h : Reads room r f w f' w') : Reads room (.branch test yes r) f w f' w' := by
  intro g hg
  obtain ⟨g', hg', hs', hd'⟩ := h g hg
  exact ⟨g', .no (hg.lookahead_eq ▸ htest) hg', hs', hd'⟩

lemma stop (hstop : ends (lookaheadOf w) = true) : Reads room (.loop ends body) f w f w :=
  fun g hg => ⟨g, .stop (hg.lookahead_eq ▸ hstop), hg, rfl⟩

/-- Where nothing but the closing bracket of a list comes next, the list has no more items. -/
lemma noMore {close : TokenKind} (hw : (lookaheadOf w).startsWith (· != close) = false) :
    Reads room (.loop (·.endsList close) body) f ([] ++ w) (f ++ []) w :=
  (stop (endsList_of_startsWith_ne hw)).of_eq rfl (List.append_nil f).symm

/-- A loop reads what its body reads, if that is anything, and then again what it reads. -/
lemma step (hstop : ends (lookaheadOf w) = false) (hbody : Reads room body f w f₁ w₁)
    (hlt : w₁.length < w.length) (hloop : Reads room (.loop ends body) f₁ w₁ f₂ w₂) :
    Reads room (.loop ends body) f w f₂ w₂ := by
  intro g hg
  obtain ⟨g₁, hg₁, hs₁, hd₁⟩ := hbody g hg
  obtain ⟨g₂, hg₂, hs₂, hd₂⟩ := hloop g₁ hs₁
  have hprogress : g₁.progress g.cursor = g₁ := by
    rw [Gathering.progress, if_neg (hg.cursor_ne hs₁ hg₁ hlt)]
  rw [← hprogress] at hg₂
  exact ⟨g₂, .step (hg.lookahead_eq ▸ hstop) hg₁ hg₂, hs₂, hd₂.trans hd₁⟩

/-- A nesting level takes up room. -/
lemma nest {level : Nesting} {otherwise : Rule} (h : Reads room (nested level) f w f' w') :
    Reads (room + 1) (.nest level otherwise) f w f' w' := by
  intro g hg
  obtain ⟨g', hg', hs', hd'⟩ := h g hg
  exact ⟨g', .nest hg', hs', hd'⟩

/-- **A loop reads a list** if its body reads each item of the list wherever a further item or the
end of the list may come next.

**Proof sketch.** Induction on the list. An item has lexemes, for where one begins the loop does not
stop, and with nothing to come it does. -/
lemma loop {α : Type} {print : α → List Lexeme} {tree : α → List Shape}
    (next : List Lexeme → Prop) (hends : ends ⟨none, none⟩ = true) {xs : List α}
    (hopen : ∀ x ∈ xs, ∀ w, ends (lookaheadOf (print x ++ w)) = false ∧ next (print x ++ w))
    (hitem : ∀ x ∈ xs, ∀ f w, next w → Reads room body f (print x ++ w) (f ++ tree x) w)
    (hstop : ends (lookaheadOf w) = true) (hnext : next w) :
    Reads room (.loop ends body) f (xs.flatMap print ++ w) (f ++ xs.flatMap tree) w := by
  induction xs generalizing f with
  | nil => exact (stop hstop).of_eq rfl (List.append_nil f).symm
  | cons x xs ih =>
    rw [List.forall_mem_cons] at hopen hitem
    have hrest : next (xs.flatMap print ++ w) := by
      cases xs with
      | nil => exact hnext
      | cons y ys =>
        rw [List.flatMap_cons, List.append_assoc]
        exact (hopen.2 y List.mem_cons_self _).2
    have hpos : 0 < (print x).length := by
      rw [List.length_pos_iff]
      intro hnil
      have hfalse := (hopen.1 []).1
      rw [hnil] at hfalse
      exact Bool.false_ne_true (hfalse.symm.trans hends)
    have hall := step (hopen.1 _).1 (hitem.1 f _ hrest) (by simp; omega) (ih hopen.2 hitem.2)
    exact hall.of_eq (by simp) (by simp)

/-! ### Common rules -/

lemma expectThen {kind : TokenKind} {message : String} {no : Rule} (hkind : l.kind = kind)
    (h : Reads room r (f ++ [.leaf l]) w f' w') :
    Reads room (Rule.expectThen kind message r no) f (l :: w) f' w' :=
  yes (beq_iff_eq.2 (congrArg some hkind)) (bump_append h)

lemma expect {kind : TokenKind} {message : String} (hkind : l.kind = kind) :
    Reads room (Rule.expect kind message) f (l :: w) (f ++ [.leaf l]) w :=
  expectThen hkind done

lemma nameThen {message : String} {no : Rule} (hname : l.kind.isName = true)
    (h : Reads room r (f ++ [.leaf l]) w f' w') :
    Reads room (Rule.nameThen message r no) f (l :: w) f' w' :=
  yes hname (bump_append h)

lemma name {message : String} (hname : l.kind.isName = true) :
    Reads room (Rule.name message) f (l :: w) (f ++ [.leaf l]) w :=
  nameThen hname done

lemma eat {kind : TokenKind} (hkind : l.kind = kind) :
    Reads room (Rule.eat kind) f (l :: w) (f ++ [.leaf l]) w :=
  yes (beq_iff_eq.2 (congrArg some hkind)) bump

/-- What does not come next is not taken. -/
lemma eat_none {kind : TokenKind} (h : (lookaheadOf w).starts kind = false) :
    Reads room (Rule.eat kind) f w f w := no h done

/-- A token is taken if it is there. -/
lemma lexemeIf {kind : TokenKind} (present : Bool) (hw : (lookaheadOf w).starts kind = false) :
    Reads room (Rule.eat kind) f (TxTree.lexemeIf kind present ++ w)
      (f ++ leaves (TxTree.lexemeIf kind present)) w := by
  cases present with
  | false => exact (eat_none hw).of_eq rfl (List.append_nil f).symm
  | true => exact eat rfl

end Reads

end Grammar

end TxTree
