import Mathlib.Data.List.Forall2
import TxTree.Proofs.Plain

set_option relaxedAutoImplicit false
set_option autoImplicit false

/-!
# Every declaration is found

Whatever is wrong with a file, each word that opens a declaration and is never a name begins a
declaration of its kind, directly below the root, and no declaration is anywhere else. So one
mistake never makes more than the declaration that it is in unreadable.

## Main definitions

* `TxTree.TokenKind.opens` — the kinds of node that a token at the start of a declaration opens.
* `TxTree.Grammar.Rule.Declares` — the shape that all declarations have in common.
* `TxTree.Element.Declared` — what stands directly below the root of a file.

## Main results

* `TxTree.Grammar.Derives.declares` — a declaration is one node, headed by the word that opens it.
* `TxTree.Grammar.Derives.headed_declaration` — so is what stands in the place of one.
* `TxTree.declarations_resynchronise` — every word that opens a declaration is the first token of
  one, and every declaration is directly below the root.
-/

namespace TxTree

/-- The kinds of node that a token opens at the start of a declaration; a token that begins no
declaration is passed over. -/
def TokenKind.opens : TokenKind → List NodeKind
  | .partyKw => [.partyDecl]
  | .policyKw => [.policyDecl]
  | .recordKw => [.recordDecl]
  | .typeKw => [.typeDecl, .typeAliasDecl]
  | .txKw => [.txDecl]
  | .envKw => [.envDecl]
  | .assetKw => [.assetDecl]
  | _ => [.error]

/-- The declarations that open with a word that is never a name. -/
def NodeKind.isHardDeclaration : NodeKind → Bool
  | .partyDecl | .policyDecl | .recordDecl | .typeDecl | .typeAliasDecl | .txDecl => true
  | _ => false

/-- The words that are never names, and no other tokens, open the declarations that go with
them. -/
lemma isHardDeclaration_of_mem_opens {word : TokenKind} {kind : NodeKind} (h : kind ∈ word.opens) :
    kind.isHardDeclaration = word.isHardDeclarationKeyword := by
  cases word <;> simp only [TokenKind.opens, List.mem_cons, List.not_mem_nil, or_false] at h <;>
    first
    | (subst h; rfl)
    | (rcases h with rfl | rfl <;> rfl)

namespace Grammar

open Element Rule Lookahead

/-! ## The shape of a declaration -/

/-- Whether a rule ends by making a node of one of the kinds, and before that only adds to what is
gathered. -/
def Rule.closesAs (kinds : List NodeKind) : Rule → Bool
  | .seq first second => first.wellFormed false && first.isInner && second.closesAs kinds
  | .branch _ yes no => yes.closesAs kinds && no.closesAs kinds
  | .wrap kind body => kinds.contains kind && body.wellFormed false && body.isInner
  | _ => false

/-- **The shape that all declarations have in common**: a token is taken and then no other that
opens a declaration, and all is one node, of which the kind is known before or after. -/
inductive Rule.Declares (kinds : List NodeKind) : Rule → Prop where
  | node {kind : NodeKind} {rest : Rule} : kind ∈ kinds → rest.Sparing →
    rest.wellFormed false = true → rest.isInner = true → Declares kinds (.node kind (.bump ++ rest))
  | mark {rest : Rule} : rest.Sparing → rest.closesAs kinds = true →
    Declares kinds (.mark (.bump ++ rest))

lemma declares_partyDecl : partyDecl.Declares [.partyDecl] :=
  .node (by decide) (sparing_nameThen sparing_semicolon (sparing_eat (by decide)) _) rfl rfl

lemma declares_policyDecl : policyDecl.Declares [.policyDecl] := by
  refine .node (by decide) (sparing_nameThen (spares_starts (by decide) ?value
    (spares_starts (by decide) (sparing_fieldBlock.spares _) (sparing_report _))) sparing_done _)
    rfl rfl
  case value =>
    refine Rule.Spares.append (Rule.Spares.append (spares_bump_of_starts (by decide)) ?_)
      sparing_semicolon
    exact spares_starts (by decide) spares_importCall
      (spares_starts (by decide) (spares_bump_of_starts (by decide)) (sparing_report _))

lemma declares_assetDecl : assetDecl.Declares [.assetDecl] := by
  refine .node (by decide) (sparing_nameThen (sparing_expectThen (by decide) ?identifier
    sparing_done _) sparing_done _) rfl rfl
  case identifier =>
    exact Rule.Sparing.append (spares_startsWith (by decide)
      (spares_bump_of_startsWith (by decide)) (sparing_report _)) sparing_semicolon

lemma declares_typeDecl : typeDecl.Declares [.typeDecl, .typeAliasDecl] := by
  refine .mark (sparing_nameThen (spares_starts (by decide) (.wrap ?synonym _) (.wrap ?body _))
    (.wrap sparing_done _) _) rfl
  case synonym =>
    exact ((spares_bump_of_starts (by decide)).append sparing_typeOrUnion).append sparing_semicolon
  case body =>
    refine sparing_expectThen (by decide) (Rule.Sparing.append
      (blind_startsCase.spares_branch ?_ ?_) (sparing_expect (by decide) _)) sparing_done _
    · exact spares_loop (blind_endsList _) (fun _ => allows_of_not_endsList)
        (sparing_variantCase.spares _)
    · exact spares_loop (blind_endsList _) (fun _ => allows_of_not_endsList)
        (sparing_recordField.spares _)

lemma declares_recordDecl : recordDecl.Declares [.recordDecl] :=
  .mark (sparing_nameThen (.wrap (sparing_braced (sparing_recordField.spares _)) _)
    (.wrap sparing_done _) _) rfl

lemma declares_envDecl : envDecl.Declares [.envDecl] :=
  .node (by decide) (spares_starts (by decide) spares_recordFields (sparing_report _)) rfl rfl

lemma declares_txDecl : txDecl.Declares [.txDecl] :=
  .node (by decide) (sparing_nameThen (sparing_paramList.append (sparing_braced spares_bodyItem))
    sparing_done _) rfl rfl

/-- Where a token comes next, any may be taken. -/
lemma allows_of_not_isEnd {l : Lookahead} (h : l.isEnd = false) : l.Allows fun _ => True := by
  obtain ⟨_ | first, second⟩ := l
  · cases h
  · exact ⟨first, rfl, trivial⟩

/-- A declaration is sparing at the token that opens it, which may be any. -/
lemma Rule.Declares.spares {kinds : List NodeKind} {r : Rule} (h : r.Declares kinds) :
    r.Spares (fun _ => True) fun l => l.isEnd = false := by
  cases h with
  | node _ hrest _ _ =>
    exact ⟨fun _ => allows_of_not_isEnd, (hrest.spares _).mono (fun _ _ => trivial) fun _ => id⟩
  | mark hrest _ =>
    exact ⟨fun _ => allows_of_not_isEnd, (hrest.spares _).mono (fun _ _ => trivial) fun _ => id⟩

/-- A choice by the token that opens a declaration, which comes next. -/
lemma spares_opening {ok : TokenKind → Prop} {word : TokenKind} {yes no : Rule}
    (hyes : yes.Spares ok fun l => l.isEnd = false) (hno : no.Spares ok fun l => l.isEnd = false) :
    (Rule.branch (·.starts word) yes no).Spares ok fun l => l.isEnd = false := by
  refine spares_branch ?_ (hyes.mono (fun _ => id) fun _ h => h.1)
    (hno.mono (fun _ => id) fun _ h => h.1)
  intro l m hl hm
  cases hm with
  | same => rfl
  | last => rfl
  | beyond => cases hl
  | closed => rfl

/-- **Declarations are sparing** where a token comes next, which may be any. -/
theorem spares_declaration : declaration.Spares (fun _ => True) fun l => l.isEnd = false := by
  refine spares_opening declares_partyDecl.spares ?_
  refine spares_opening declares_policyDecl.spares ?_
  refine spares_opening declares_recordDecl.spares ?_
  refine spares_opening declares_typeDecl.spares ?_
  refine spares_opening declares_txDecl.spares ?_
  refine spares_opening declares_envDecl.spares ?_
  refine spares_opening declares_assetDecl.spares ?_
  exact ⟨trivial, fun _ => allows_of_not_isEnd⟩

/-! ## What a declaration is -/

section Headed

variable {room : Nat} {g g' : Gathering} {kinds : List NodeKind} {t : Token} {rest : List Token}

/-- **A node that a token heads**: it is of one of some kinds, begins with the token, and goes on
with plain elements. -/
def Headed (kinds : List NodeKind) (t : Token) (n : Node) : Prop :=
  ∃ kind ∈ kinds, ∃ cs offset, n = Node.ofChildren kind (.token t :: cs) offset ∧ Plain cs

/-- What is gathered behind a token becomes a node that the token heads. -/
lemma Gathering.PlainBehind.headed (h : g.PlainBehind [.token t]) {kind : NodeKind}
    (hkind : kind ∈ kinds) : ∃ n, (g.enclose kind).children = [.node n] ∧ Headed kinds t n := by
  obtain ⟨cs, hg, hcs⟩ := h
  refine ⟨_, rfl, kind, hkind, cs, g.offset, ?_, hcs⟩
  rw [hg]
  rfl

/-- Where nothing is gathered since the next token, that token is gathered first. -/
lemma plainBehind_bump (h : significant g.ahead = t :: rest) :
    g.flush.fresh.bump.PlainBehind [.token t] := by
  rw [Gathering.bump_flush_fresh h]
  exact ⟨[], rfl, ⟨nofun, by simp [nodesOfList, Node.walk]⟩⟩

/-- A rule that ends by making a node makes it of all that is gathered.

**Proof sketch.** Induction on the rule. All that comes before the node is made only adds to what
is gathered. -/
lemma Derives.headed {r : Rule} (h : Derives nested room r g g') (hcloses : r.closesAs kinds = true)
    {P : Lookahead → Prop} (hspares : r.Spares Soft P) (hP : P g.lookahead)
    (hg : g.PlainBehind [.token t]) : ∃ n, g'.children = [.node n] ∧ Headed kinds t n := by
  induction r generalizing g P with
  | seq first second _ ih =>
    rw [Rule.closesAs, Bool.and_eq_true, Bool.and_eq_true] at hcloses
    cases h with
    | seq h₁ h₂ =>
      exact ih h₂ hcloses.2 hspares.2 (h₁.after hP)
        (h₁.plainBehind hcloses.1.1 hcloses.1.2 hspares.1 hP nofun hg)
  | branch test yes no ih₁ ih₂ =>
    rw [Rule.closesAs, Bool.and_eq_true] at hcloses
    cases h with
    | yes htest h => exact ih₁ h hcloses.1 hspares.2.1 ⟨hP, htest⟩ hg
    | no htest h => exact ih₂ h hcloses.2 hspares.2.2 ⟨hP, htest⟩ hg
  | wrap kind body _ =>
    rw [Rule.closesAs, Bool.and_eq_true, Bool.and_eq_true, List.contains_iff_mem] at hcloses
    cases h with
    | wrap h =>
      exact (h.plainBehind hcloses.1.2 hcloses.2 hspares hP nofun hg).headed hcloses.1.1
  | _ => cases hcloses

/-- What begins with taking a token takes one. -/
lemma Derives.lt_cursor {r : Rule} {g₁ : Gathering}
    (h : Derives nested room (.bump ++ r) g.flush.fresh g₁) (hs : significant g.ahead = t :: rest) :
    g.cursor < g₁.cursor := by
  cases h with
  | seq h₁ h₂ =>
    cases h₁
    obtain ⟨n, -, hcursor, -⟩ := h₂.takes
    rw [Gathering.bump_flush_fresh hs] at hcursor
    calc g.cursor < g.cursor + 1 + n := by omega
      _ = g₁.cursor := hcursor.symm

/-- **A declaration is one node**, headed by the token that comes next, which is taken. -/
theorem Derives.declares {r : Rule} (h : Derives nested room r g g') (hr : r.Declares kinds)
    (hs : significant g.ahead = t :: rest) :
    g.cursor < g'.cursor ∧
      ∃ n, g'.children = g.flush.children ++ [.node n] ∧ Headed kinds t n := by
  cases hr with
  | node hkind hsparing hwf hinner =>
    cases h with
    | node h =>
      refine ⟨h.lt_cursor hs, ?_⟩
      cases h with
      | seq h₁ h₂ =>
        cases h₁
        obtain ⟨n, hn, hheaded⟩ :=
          (h₂.plainBehind hwf hinner hsparing trivial nofun (plainBehind_bump hs)).headed hkind
        exact ⟨n, congrArg (g.flush.children ++ ·) hn, hheaded⟩
  | mark hsparing hcloses =>
    cases h with
    | mark h =>
      refine ⟨h.lt_cursor hs, ?_⟩
      cases h with
      | seq h₁ h₂ =>
        cases h₁
        obtain ⟨n, hn, hheaded⟩ := h₂.headed hcloses hsparing trivial (plainBehind_bump hs)
        exact ⟨n, congrArg (g.flush.children ++ ·) hn, hheaded⟩

/-- A token that is passed over heads an error node. -/
lemma Gathering.skip_headed (hs : significant g.ahead = t :: rest) :
    g.cursor < g.skip.cursor ∧
      ∃ n, g.skip.children = g.flush.children ++ [.node n] ∧ Headed [.error] t n := by
  have hfirst := Gathering.lookahead_first_of_significant hs
  obtain ⟨n, hn, hheaded⟩ :=
    (plainBehind_bump hs).headed (List.mem_singleton.2 rfl : NodeKind.error ∈ [NodeKind.error])
  rw [skip_of_first hfirst]
  refine ⟨?_, n, congrArg (g.flush.children ++ ·) hn, hheaded⟩
  change g.cursor < g.flush.fresh.bump.cursor
  rw [Gathering.bump_flush_fresh hs]
  exact Nat.lt_succ_self _

/-- A choice by the word that opens a declaration: either it comes next and opens that
declaration, or there are further ones to try. -/
lemma Derives.opening {word : TokenKind} {yes no : Rule}
    (h : Derives nested room (.branch (·.starts word) yes no) g g')
    (hs : significant g.ahead = t :: rest) (hyes : yes.Declares word.opens) :
    (g.cursor < g'.cursor ∧
      ∃ n, g'.children = g.flush.children ++ [.node n] ∧ Headed t.kind.opens t n) ∨
      t.kind ≠ word ∧ Derives nested room no g g' := by
  have hfirst := Gathering.lookahead_first_of_significant hs
  cases h with
  | yes htest h =>
    change (g.lookahead.first == some word) = true at htest
    rw [hfirst, beq_iff_eq, Option.some_inj] at htest
    rw [htest]
    exact .inl (h.declares hyes hs)
  | no htest h =>
    change (g.lookahead.first == some word) = false at htest
    rw [hfirst, beq_eq_false_iff_ne, ne_eq, Option.some_inj] at htest
    exact .inr ⟨htest, h⟩

/-- **What stands in the place of a declaration is one node**, headed by the token that comes next
and of a kind that this token opens; the token is taken. -/
theorem Derives.headed_declaration (h : Derives nested room declaration g g')
    (hs : significant g.ahead = t :: rest) :
    g.cursor < g'.cursor ∧
      ∃ n, g'.children = g.flush.children ++ [.node n] ∧ Headed t.kind.opens t n := by
  obtain hd | ⟨hparty, h⟩ := h.opening hs declares_partyDecl
  · exact hd
  obtain hd | ⟨hpolicy, h⟩ := h.opening hs declares_policyDecl
  · exact hd
  obtain hd | ⟨hrecord, h⟩ := h.opening hs declares_recordDecl
  · exact hd
  obtain hd | ⟨htype, h⟩ := h.opening hs declares_typeDecl
  · exact hd
  obtain hd | ⟨htx, h⟩ := h.opening hs declares_txDecl
  · exact hd
  obtain hd | ⟨henv, h⟩ := h.opening hs declares_envDecl
  · exact hd
  obtain hd | ⟨hasset, h⟩ := h.opening hs declares_assetDecl
  · exact hd
  have hopens : t.kind.opens = [.error] := by
    rw [TokenKind.opens.eq_8 _ hparty hpolicy hrecord htype htx henv hasset]
  cases h with
  | seq h₁ h₂ =>
    cases h₁
    cases h₂
    obtain ⟨hcursor, n, hn, hheaded⟩ := Gathering.skip_headed (g := g.report _) hs
    refine ⟨hcursor, n, hn.trans ?_, hopens ▸ hheaded⟩
    rw [Gathering.flush_children, Gathering.flush_children]
    rfl

end Headed

/-! ## What stands directly below the root -/

end Grammar

open Grammar

/-- **What stands directly below the root of a file**: a token that opens no declaration, or a node
that a token heads. -/
def Element.Declared : Element → Prop
  | .token t => t.kind.isHardDeclarationKeyword = false
  | .node n => ∃ t : Token, Headed t.kind.opens t n

namespace Grammar

open Element

/-- Tokens that open no declaration may stand directly below the root. -/
lemma declared_of_trivia {t : Token} (h : t.isTrivia = true) : (Element.token t).Declared :=
  soft_of_isTrivia h

/-- Gathering white space and comments only adds what may stand directly below the root. -/
lemma declared_flush {g : Gathering} (hg : ∀ c ∈ g.children, c.Declared) :
    ∀ c ∈ g.flush.children, c.Declared := by
  intro c hc
  rw [Gathering.flush_children, List.mem_append, List.mem_map] at hc
  rcases hc with hc | ⟨t, ht, rfl⟩
  · exact hg c hc
  · exact declared_of_trivia (List.mem_takeWhile_imp ht)

/-- **What stands directly below the root**, one declaration after the other.

**Proof sketch.** Induction on the derivation of the loop. A step of it takes the token that heads
the declaration, so that it is never followed by passing over another. -/
lemma Derives.declared {room : Nat} {g g' : Gathering} (h : Derives nested room file g g')
    (hg : ∀ c ∈ g.children, c.Declared) : ∀ c ∈ g'.children, c.Declared := by
  generalize hr : file = r at h
  induction h with
  | stop => exact hg
  | @step room stop body g g₁ g₂ hstop h₁ _ _ ih =>
    cases hr
    cases hs : significant g.ahead with
    | nil =>
      rw [Gathering.lookahead, hs] at hstop
      cases hstop
    | cons t rest =>
      obtain ⟨hcursor, n, hn, hheaded⟩ := h₁.headed_declaration hs
      have hmoved : g₁.progress g.cursor = g₁ := if_neg hcursor.ne'
      refine ih ?_ rfl
      rw [hmoved, hn]
      intro c hc
      rw [List.mem_append, List.mem_singleton] at hc
      rcases hc with hc | rfl
      · exact declared_flush hg c hc
      · exact ⟨t, hheaded⟩
  | _ => cases hr

/-- What stands directly below the root at the end. -/
lemma declared_finish {tokens : List Token} {room : Nat} {g : Gathering}
    (h : Derives nested room file (.ofTokens tokens) g) (hend : pending g.ahead = []) :
    ∀ c ∈ g.finish.children, c.Declared := by
  intro c hc
  rw [Gathering.finish, Gathering.attachAll_children, List.mem_append, List.mem_map] at hc
  rcases hc with hc | ⟨t, ht, rfl⟩
  · refine h.declared (fun c hc => ?_) c hc
    cases hc
  · exact declared_of_trivia (pending_eq_nil_iff.1 hend t ht)

/-- Below a node that a token heads there is no declaration, and no other leaf opens one; nor does
the token itself, if the node is no hard declaration. -/
lemma Headed.inside {t : Token} {n : Node} (h : Headed t.kind.opens t n) :
    (∀ u ∈ if n.kind.isHardDeclaration then n.leaves.tail else n.leaves,
      u.kind.isHardDeclarationKeyword = false) ∧
      ∀ m ∈ n.descendants.tail, m.kind.isDeclaration = false := by
  obtain ⟨kind, hkind, cs, offset, rfl, hcs⟩ := h
  have hiff : (Node.ofChildren kind (.token t :: cs) offset).kind.isHardDeclaration =
      t.kind.isHardDeclarationKeyword := isHardDeclaration_of_mem_opens hkind
  have hleaves : (Node.ofChildren kind (.token t :: cs) offset).leaves = t :: leavesOfList cs := rfl
  have hnodes : (Node.ofChildren kind (.token t :: cs) offset).descendants.tail =
      nodesOfList cs := Node.tail_descendants _
  rw [hiff, hleaves, hnodes, List.tail_cons]
  refine ⟨?_, hcs.nodes⟩
  split
  · exact hcs.leaves
  · next hsoft => exact List.forall_mem_cons.2 ⟨Bool.eq_false_iff.2 hsoft, hcs.leaves⟩

/-- The first tokens of the hard declarations directly below the root are the hard words among the
leaves, in their order.

**Proof sketch.** Induction on the elements. A node that a token heads has no other leaf that opens
a declaration, and is a hard declaration if and only if that token is a hard word. -/
lemma forall₂_declared {cs : List Element} (hcs : ∀ c ∈ cs, c.Declared) :
    List.Forall₂ (fun t n => n.children.head? = some (.token t) ∧ n.kind ∈ t.kind.opens)
      ((leavesOfList cs).filter (·.kind.isHardDeclarationKeyword))
      ((cs.filterMap node?).filter (·.kind.isHardDeclaration)) := by
  induction cs with
  | nil => exact .nil
  | cons c cs ih =>
    rw [List.forall_mem_cons] at hcs
    have hrest := ih hcs.2
    cases c with
    | token t =>
      have ht : t.kind.isHardDeclarationKeyword = false := hcs.1
      rw [leavesOfList, List.filter_cons_of_neg (by simp [ht])]
      exact hrest
    | node n =>
      obtain ⟨t, kind, hkind, ds, offset, rfl, hds⟩ := hcs.1
      have hsoft : (leavesOfList ds).filter (·.kind.isHardDeclarationKeyword) = [] :=
        List.filter_eq_nil_iff.2 fun u hu => by simp [hds.leaves u hu]
      have hleaves : leavesOfList (.node (Node.ofChildren kind (.token t :: ds) offset) :: cs) =
          t :: (leavesOfList ds ++ leavesOfList cs) := rfl
      have hnodes : (Element.node (Node.ofChildren kind (.token t :: ds) offset) :: cs).filterMap
          node? = Node.ofChildren kind (.token t :: ds) offset :: cs.filterMap node? := rfl
      have hiff := isHardDeclaration_of_mem_opens hkind
      rw [hleaves, hnodes]
      cases ht : t.kind.isHardDeclarationKeyword with
      | false =>
        rw [List.filter_cons_of_neg (by simp [ht]), List.filter_append, hsoft,
          List.filter_cons_of_neg (by simpa [Node.ofChildren, hiff] using ht)]
        exact hrest
      | true =>
        rw [List.filter_cons_of_pos (by simpa using ht), List.filter_append, hsoft,
          List.filter_cons_of_pos (by simpa [Node.ofChildren, hiff] using ht)]
        exact .cons ⟨rfl, hkind⟩ hrest

end Grammar

open Grammar in
/-- **Every declaration is found**, for every stream of tokens. The words that open a declaration
and are never names are, in their order, the first tokens of the declarations directly below the
root that open with such words, each of the kind that goes with its word. No such word is a leaf
anywhere else, and no declaration is anywhere but directly below the root. -/
theorem declarations_resynchronise (tokens : List Token) :
    (parseTokens tokens).1.kind = .file ∧
      List.Forall₂ (fun t n => n.children.head? = some (.token t) ∧ n.kind ∈ t.kind.opens)
        (tokens.filter (·.kind.isHardDeclarationKeyword))
        ((parseTokens tokens).1.childNodes.filter (·.kind.isHardDeclaration)) ∧
      (∀ t ∈ (parseTokens tokens).1.childTokens, t.kind.isHardDeclarationKeyword = false) ∧
      ∀ n ∈ (parseTokens tokens).1.childNodes,
        (∀ t ∈ if n.kind.isHardDeclaration then n.leaves.tail else n.leaves,
          t.kind.isHardDeclarationKeyword = false) ∧
        ∀ m ∈ n.descendants.tail, m.kind.isDeclaration = false := by
  obtain ⟨g, hg, -, hend⟩ := exists_derives_file tokens
  have hdeclared := declared_finish hg hend
  have hleaves := leaves_root tokens
  rw [parseTokens_eq hg] at hleaves ⊢
  change Element.leavesOfList g.finish.children = tokens at hleaves
  refine ⟨rfl, ?_, ?_, ?_⟩
  · have h := forall₂_declared hdeclared
    rwa [hleaves] at h
  · intro t ht
    obtain ⟨c, hc, hct⟩ := List.mem_filterMap.1 ht
    cases c with
    | token u =>
      cases hct
      exact hdeclared _ hc
    | node => cases hct
  · intro n hn
    obtain ⟨c, hc, hcn⟩ := List.mem_filterMap.1 hn
    cases c with
    | token => cases hcn
    | node m =>
      cases hcn
      obtain ⟨t, hheaded⟩ := hdeclared _ hc
      exact hheaded.inside

end TxTree
