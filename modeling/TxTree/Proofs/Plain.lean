import TxTree.Proofs.Lossless
import TxTree.Proofs.Productions
import TxTree.Tree.Traversal

set_option relaxedAutoImplicit false
set_option autoImplicit false

/-!
# What is inside a declaration

Behind the word that opens a declaration only plain elements are gathered: none of their leaves
opens a declaration, and none of their nodes is one. That the grammar gathers nothing else has two
reasons, both of which can be read off its rules: where a token is taken it is none of those words,
and no kind of node that is made there is that of a declaration.

## Main definitions

* `TxTree.Element.Plain` — a list of elements without declarations and the words that open them.
* `TxTree.Grammar.Rule.isInner` — whether all nodes that a rule makes are plain.
* `TxTree.Grammar.Gathering.PlainBehind` — what is gathered is plain, but for what was before.

## Main results

* `TxTree.Node.tail_descendants` — the nodes below a node are those at and below its child nodes.
* `TxTree.Grammar.Derives.plainBehind` — a sparing rule gathers plain elements only.
-/

namespace TxTree

/-! ## Nodes below a list of elements -/

namespace Node

/-- A walk over two stacks is a walk over the one and then over the other.

**Proof sketch.** Induction on the walk over the first stack. -/
lemma walk_append (ns ms : List Node) : walk (ns ++ ms) = walk ns ++ walk ms := by
  induction ns using walk.induct with
  | case1 =>
    rw [List.nil_append, walk, List.nil_append]
  | case2 n stack ih =>
    rw [List.cons_append, walk, ← List.append_assoc, ih, walk, List.cons_append]

/-- **The nodes below a node** are those at and below its child nodes. -/
lemma tail_descendants (n : Node) : n.descendants.tail = walk n.childNodes := by
  rw [descendants, walk, List.append_nil, List.tail_cons]

end Node

namespace Element

/-- The nodes in a list of elements and below them. -/
def nodesOfList (cs : List Element) : List Node := Node.walk (cs.filterMap node?)

@[simp] lemma nodesOfList_append (cs ds : List Element) :
    nodesOfList (cs ++ ds) = nodesOfList cs ++ nodesOfList ds := by
  rw [nodesOfList, List.filterMap_append, Node.walk_append]
  rfl

/-- There is no node in a list of tokens. -/
@[simp] lemma nodesOfList_map_token (tokens : List Token) :
    nodesOfList (tokens.map .token) = [] := by
  have hnone : (tokens.map Element.token).filterMap node? = [] := by simp [node?]
  rw [nodesOfList, hnone, Node.walk]

/-- In a list of one node there is that node, and what is below it. -/
@[simp] lemma nodesOfList_node (kind : NodeKind) (cs : List Element) (offset : Nat) :
    nodesOfList [.node (Node.ofChildren kind cs offset)] =
      Node.ofChildren kind cs offset :: nodesOfList cs := by
  change Node.walk [Node.ofChildren kind cs offset] = _
  rw [Node.walk, List.append_nil]
  rfl

/-- **Plain elements**: no leaf opens a declaration, and no node is one. -/
structure Plain (cs : List Element) : Prop where
  /-- No leaf is a word that opens a declaration and is never a name. -/
  leaves : ∀ t ∈ leavesOfList cs, t.kind.isHardDeclarationKeyword = false
  /-- No node is a declaration. -/
  nodes : ∀ n ∈ nodesOfList cs, n.kind.isDeclaration = false

namespace Plain

lemma append {cs ds : List Element} (hcs : Plain cs) (hds : Plain ds) : Plain (cs ++ ds) := by
  constructor
  · intro t ht
    rw [leavesOfList_append, List.mem_append] at ht
    exact ht.elim (hcs.leaves t) (hds.leaves t)
  · intro n hn
    rw [nodesOfList_append, List.mem_append] at hn
    exact hn.elim (hcs.nodes n) (hds.nodes n)

/-- Tokens that open no declaration are plain. -/
lemma map_token {tokens : List Token}
    (h : ∀ t ∈ tokens, t.kind.isHardDeclarationKeyword = false) : Plain (tokens.map .token) := by
  refine ⟨?_, ?_⟩
  · rwa [Grammar.leavesOfList_map_token]
  · rw [nodesOfList_map_token]
    exact nofun

/-- A node of plain elements that is no declaration is plain. -/
lemma node {kind : NodeKind} {cs : List Element} (hkind : kind.isDeclaration = false)
    (hcs : Plain cs) (offset : Nat) : Plain [.node (Node.ofChildren kind cs offset)] := by
  refine ⟨?_, ?_⟩
  · rw [Grammar.leavesOfList_ofChildren]
    exact hcs.leaves
  · rw [nodesOfList_node, List.forall_mem_cons]
    exact ⟨hkind, hcs.nodes⟩

end Plain

end Element

namespace Grammar

open Element

/-! ## Rules that make plain nodes -/

/-- Whether all nodes that a rule makes are of other kinds than declarations. -/
def Rule.isInner : Rule → Bool
  | .done | .bump | .skip | .report _ => true
  | .seq first second => first.isInner && second.isInner
  | .node kind body | .wrap kind body => !kind.isDeclaration && body.isInner
  | .mark body => body.isInner
  | .branch _ yes no => yes.isInner && no.isInner
  | .loop _ body => body.isInner
  | .nest _ otherwise => otherwise.isInner

/-- The rules of the nesting levels make no declaration. -/
lemma isInner_nested (level : Nesting) : (nested level).isInner = true := by
  cases level <;> rfl

/-! ## Plain gatherings -/

/-- White space and comments open no declaration. -/
lemma soft_of_isTrivia {t : Token} (h : t.isTrivia = true) : Soft t.kind := by
  obtain ⟨kind, text, span⟩ := t
  cases kind <;> first | rfl | cases h

/-- The white space and comments at the front of a stream are plain. -/
lemma plain_takeWhile (tokens : List Token) :
    Plain ((tokens.takeWhile (·.isTrivia)).map .token) :=
  .map_token fun _ ht => soft_of_isTrivia (List.mem_takeWhile_imp ht)

namespace Gathering

/-- What is gathered is plain, but for what was before. -/
def PlainBehind (before : List Element) (g : Gathering) : Prop :=
  ∃ cs, g.children = before ++ cs ∧ Plain cs

variable {before : List Element} {g : Gathering}

/-- Where nothing is gathered since a place, all is plain. -/
lemma plainBehind_fresh (g : Gathering) : g.fresh.PlainBehind [] :=
  ⟨[], rfl, ⟨nofun, by simp [nodesOfList, Node.walk]⟩⟩

lemma PlainBehind.flush (h : g.PlainBehind before) : g.flush.PlainBehind before := by
  obtain ⟨cs, hg, hcs⟩ := h
  refine ⟨cs ++ (g.ahead.takeWhile (·.isTrivia)).map .token, ?_, hcs.append (plain_takeWhile _)⟩
  rw [flush_children, hg, List.append_assoc]

/-- A token that opens no declaration is plain. -/
lemma PlainBehind.bump (h : g.PlainBehind before) (hnext : g.lookahead.Allows Soft) :
    g.bump.PlainBehind before := by
  obtain ⟨kind, hfirst, hkind⟩ := hnext
  cases hs : significant g.ahead with
  | nil =>
    rw [bump_of_nil hs]
    exact h
  | cons t rest =>
    obtain ⟨cs, hg, hcs⟩ := h.flush
    have ht : Soft t.kind := by
      rw [lookahead, hs] at hfirst
      cases hfirst
      exact hkind
    have hplain : Plain ([t].map .token) :=
      .map_token fun u hu => List.mem_singleton.1 hu ▸ ht
    refine ⟨cs ++ [t].map .token, ?_, hcs.append hplain⟩
    rw [bump_of_cons hs, ← List.append_assoc, ← hg]
    rfl

/-- What is plain since a later place is plain behind what was before. -/
lemma PlainBehind.behind {g₁ : Gathering} (h : g.PlainBehind before) (h₁ : g₁.PlainBehind []) :
    (g₁.behind g.flush.children).PlainBehind before := by
  obtain ⟨cs, hg, hcs⟩ := h.flush
  obtain ⟨ds, hg₁, hds⟩ := h₁
  refine ⟨cs ++ ds, ?_, hcs.append hds⟩
  rw [Gathering.behind, hg, hg₁, List.nil_append, List.append_assoc]

lemma PlainBehind.enclose (h : g.PlainBehind []) {kind : NodeKind}
    (hkind : kind.isDeclaration = false) : (g.enclose kind).PlainBehind [] := by
  obtain ⟨cs, hg, hcs⟩ := h
  refine ⟨_, rfl, ?_⟩
  rw [hg, List.nil_append]
  exact hcs.node hkind _

lemma PlainBehind.skip (h : g.PlainBehind before) (hnext : g.lookahead.Allows Soft) :
    g.skip.PlainBehind before := by
  obtain ⟨kind, hfirst, hkind⟩ := hnext
  rw [skip_of_first hfirst]
  refine h.behind (.enclose ((plainBehind_fresh _).bump ⟨kind, ?_, hkind⟩) rfl)
  rw [lookahead_fresh, lookahead_flush, hfirst]

end Gathering

/-! ## Plain derivations -/

/-- **A sparing rule gathers plain elements only**, and what was before stays where it was, unless
the rule takes it over, when it must be plain itself.

**Proof sketch.** Induction on the derivation. What comes next is followed along with it, so that
no word that opens a declaration is taken: a loop that goes round is not at its end, and a step of
it that takes no token is followed by passing over the one that it saw. -/
theorem Derives.plainBehind {room : Nat} {r : Rule} {g g' : Gathering}
    (h : Derives nested room r g g') {placed : Bool} (hwf : r.wellFormed placed = true)
    (hinner : r.isInner = true) {P : Lookahead → Prop} (hspares : r.Spares Soft P)
    (hP : P g.lookahead) {before : List Element} (hbefore : placed = true → before = [])
    (hg : g.PlainBehind before) : g'.PlainBehind before := by
  induction h generalizing placed P before with
  | done => exact hg
  | seq h₁ _ ih₁ ih₂ =>
    rw [Rule.wellFormed, Bool.and_eq_true] at hwf
    rw [Rule.isInner, Bool.and_eq_true] at hinner
    exact ih₂ hwf.2 hinner.2 hspares.2 (h₁.after hP) hbefore
      (ih₁ hwf.1 hinner.1 hspares.1 hP hbefore hg)
  | bump => exact hg.bump (hspares _ hP)
  | skip => exact hg.skip (hspares _ hP)
  | report => exact hg
  | node _ ih =>
    rw [Rule.isInner, Bool.and_eq_true, Bool.not_eq_true'] at hinner
    exact hg.behind ((ih hwf hinner.2 hspares (by simpa using hP) (fun _ => rfl)
      (Gathering.plainBehind_fresh _)).enclose hinner.1)
  | mark _ ih =>
    exact hg.behind (ih hwf hinner hspares (by simpa using hP) (fun _ => rfl)
      (Gathering.plainBehind_fresh _))
  | wrap _ ih =>
    rw [Rule.wellFormed, Bool.and_eq_true] at hwf
    rw [Rule.isInner, Bool.and_eq_true, Bool.not_eq_true'] at hinner
    -- The node takes over all that is there, so that nothing was before.
    obtain rfl := hbefore hwf.1
    refine (ih hwf.2 hinner.2 hspares hP (fun h => ?_) hg).enclose hinner.1
    exact absurd h Bool.false_ne_true
  | yes htest _ ih =>
    rw [Rule.wellFormed, Bool.and_eq_true] at hwf
    rw [Rule.isInner, Bool.and_eq_true] at hinner
    exact ih hwf.1 hinner.1 hspares.2.1 ⟨hP, htest⟩ hbefore hg
  | no htest _ ih =>
    rw [Rule.wellFormed, Bool.and_eq_true] at hwf
    rw [Rule.isInner, Bool.and_eq_true] at hinner
    exact ih hwf.2 hinner.2 hspares.2.2 ⟨hP, htest⟩ hbefore hg
  | stop => exact hg
  | @step room stop body g g₁ g₂ hstop h₁ _ ih₁ ih₂ =>
    have hwf' := hwf
    rw [Rule.wellFormed, Bool.and_eq_true] at hwf'
    have hg₁ := ih₁ hwf'.2 hinner hspares.2.2 hstop hbefore hg
    refine ih₂ hwf hinner hspares (P := fun _ => True) trivial hbefore ?_
    rw [Gathering.progress]
    split
    · next hsame =>
      -- No token was taken, so what comes next is what the test of the loop saw.
      refine hg₁.skip ?_
      rw [h₁.lookahead_eq_of_cursor_eq hsame]
      exact hspares.2.1 _ hstop
    · exact hg₁
  | @nest room level otherwise g g₁ _ ih =>
    rw [Rule.wellFormed, Bool.and_eq_true, Bool.or_eq_true, Bool.not_eq_true'] at hwf
    refine ih (wellFormed_nested level) (isInner_nested level) (spares_nested level)
      (hspares.1 _ hP) (fun hwraps => hbefore (hwf.1.resolve_left (by simp [hwraps]))) hg
  | full _ ih =>
    rw [Rule.wellFormed, Bool.and_eq_true] at hwf
    exact ih hwf.2 hinner hspares.2 (by simpa using hP) hbefore hg

end Grammar

end TxTree
