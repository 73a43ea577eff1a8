import TxTree.Proofs.Integrity
import TxTree.Proofs.Spans

set_option relaxedAutoImplicit false
set_option autoImplicit false

/-!
# Where nodes begin and end

The white space and comments before a construct belong to what is around it: they are gathered
before a node is opened and before a place is remembered, so that no node begins with them. Nor does
a node of a clean text end with them. For that a rule would have to gather them and to take no token
behind them, and then it reports an error. That it does is read off the rules, by following two
facts along them: whether a token is known to come next, and whether what is gathered is known to
end with a significant token.

## Main definitions

* `TxTree.BeginsTrimmed`, `TxTree.EndsTrimmed` — tokens that do not begin, or end, with white space
  or a comment.
* `TxTree.Grammar.Gathering.All` — whether all nodes that were gathered have a property.
* `TxTree.Grammar.Rule.trims`, `TxTree.Grammar.Rule.trimsNodes` — whether a rule leaves what is
  gathered, and the nodes that it makes, with a significant token at their end.

## Main results

* `TxTree.Grammar.Derives.beginsTrimmed` — no rule makes a node that begins with white space.
* `TxTree.Grammar.Derives.trimmed`, `TxTree.Grammar.Derives.endsTrimmed` — what is read off a rule
  that finds nothing is so.
* `TxTree.parse_trimmed` — where the nodes of a tree begin and end.
-/

namespace TxTree

/-! ## Trimmed tokens -/

/-- Tokens that do not begin with white space or a comment. -/
def BeginsTrimmed (ts : List Token) : Prop := ∀ t ∈ ts.head?, t.isTrivia = false

/-- Tokens that do not end with white space or a comment. -/
def EndsTrimmed (ts : List Token) : Prop := ∀ t ∈ ts.getLast?, t.isTrivia = false

/-- A first part begins as the whole does. -/
lemma BeginsTrimmed.of_append {ts us : List Token} (h : BeginsTrimmed (ts ++ us)) :
    BeginsTrimmed ts := by
  cases ts with
  | nil => exact nofun
  | cons t ts => exact h

/-- The significant part of a stream begins with a significant token. -/
lemma beginsTrimmed_significant (tokens : List Token) :
    BeginsTrimmed (Grammar.significant tokens) := by
  intro t ht
  obtain ⟨rest, hs⟩ := List.head?_eq_some_iff.1 ht
  exact Grammar.not_isTrivia_of_significant hs

/-- Tokens end as the last part of them does, if there is anything in it. -/
lemma EndsTrimmed.append {ts us : List Token} (h : EndsTrimmed us) (hne : us ≠ []) :
    EndsTrimmed (ts ++ us) := by
  intro t ht
  rw [List.getLast?_append_of_ne_nil _ hne] at ht
  exact h t ht

lemma endsTrimmed_singleton {t : Token} (ht : t.isTrivia = false) : EndsTrimmed [t] := by
  intro u hu
  cases hu
  exact ht

namespace Grammar

open Element Gathering

/-! ## Nodes that were gathered -/

namespace Gathering

variable {p : Node → Prop} {g g' : Gathering}

/-- All nodes that were gathered, and those below them, have a property. -/
def All (p : Node → Prop) (g : Gathering) : Prop := ∀ n ∈ nodesOfList g.children, p n

lemma all_fresh (p : Node → Prop) (g : Gathering) : g.fresh.All p := by
  intro n hn
  simp [fresh, nodesOfList, Node.walk] at hn

lemma All.bump (h : g.All p) : g.bump.All p := by
  rw [All, nodesOfList_bump]
  exact h

/-- The nodes gathered since a new place are behind those gathered before. -/
lemma All.behind (h : g.All p) (h' : g'.All p) : (g'.behind g.flush.children).All p := by
  intro n hn
  exact (mem_nodesOfList_behind.1 hn).elim (h n) (h' n)

/-- One more node has the property. -/
lemma All.enclose (h : g.All p) {kind : NodeKind}
    (hp : p (Node.ofChildren kind g.children g.offset)) : (g.enclose kind).All p := by
  intro n hn
  obtain rfl | hn := mem_nodesOfList_enclose.1 hn
  · exact hp
  · exact h n hn

/-- The node of a token that is passed over has the property if the nodes of significant tokens
have. -/
lemma All.skip (h : g.All p) (hp : ∀ n : Node, ∀ t, n.leaves = [t] → t.isTrivia = false → p n) :
    g.skip.All p := by
  cases hs : significant g.ahead with
  | nil =>
    rw [skip_of_nil hs]
    exact h
  | cons t rest =>
    rw [skip_of_first (lookahead_first_of_significant hs)]
    refine h.behind ((all_fresh p _).bump.enclose (hp _ t ?_ (not_isTrivia_of_significant hs)))
    rw [bump_flush_fresh hs]
    exact leavesOfList_map_token [t]

lemma All.progress (h : g.All p)
    (hp : ∀ n : Node, ∀ t, n.leaves = [t] → t.isTrivia = false → p n) (cursor : Nat) :
    (g.progress cursor).All p := by
  rw [Gathering.progress]
  split
  · exact h.skip hp
  · exact h

end Gathering

section Beginnings

variable {rules : Nesting → Rule} {room : Nat} {r : Rule} {g g' : Gathering}

/-! ## Where nodes begin -/

/-- From a new place on there are significant tokens first. -/
lemma beginsTrimmed_flush_fresh (g : Gathering) : BeginsTrimmed g.flush.fresh.allTokens := by
  change BeginsTrimmed (leavesOfList [] ++ g.flush.ahead)
  rw [flush_ahead]
  exact beginsTrimmed_significant g.ahead

/-- What is gathered begins as all that was to come at its place. -/
lemma beginsTrimmed_ofChildren (h : BeginsTrimmed g.allTokens) (kind : NodeKind) :
    BeginsTrimmed (Node.ofChildren kind g.children g.offset).leaves := h.of_append

/-- The node of a single token begins with it. -/
lemma beginsTrimmed_of_leaves {n : Node} {t : Token} (hn : n.leaves = [t])
    (ht : t.isTrivia = false) : BeginsTrimmed n.leaves := by
  rw [hn]
  intro u hu
  cases hu
  exact ht

/-- **No rule makes a node that begins with white space or a comment**, if none stands at the place
that it is given.

**Proof sketch.** Induction on the derivation. The tokens gathered since a place and those to come
are always the same together, and begin with a significant one. -/
theorem Derives.beginsTrimmed (hrules : ∀ level, (rules level).wellFormed level.wraps = true)
    (h : Derives rules room r g g') {placed : Bool} (hwf : r.wellFormed placed = true)
    (hplace : placed = true → BeginsTrimmed g.allTokens)
    (hg : g.All fun n => BeginsTrimmed n.leaves) : g'.All fun n => BeginsTrimmed n.leaves := by
  induction h generalizing placed with
  | done | report | stop => exact hg
  | seq h₁ _ ih₁ ih₂ =>
    obtain ⟨hwf₁, hwf₂⟩ := Bool.and_eq_true_iff.1 hwf
    exact ih₂ hwf₂ (fun hp => h₁.allTokens ▸ hplace hp) (ih₁ hwf₁ hplace hg)
  | bump => exact hg.bump
  | skip => exact hg.skip fun n t => beginsTrimmed_of_leaves
  | @node room kind body g g₁ h ih =>
    have hbegins : BeginsTrimmed g₁.allTokens := h.allTokens ▸ beginsTrimmed_flush_fresh g
    exact hg.behind ((ih hwf nofun (all_fresh _ _)).enclose (beginsTrimmed_ofChildren hbegins kind))
  | @mark room body g g₁ h ih =>
    exact hg.behind (ih hwf (fun _ => beginsTrimmed_flush_fresh g) (all_fresh _ _))
  | @wrap room kind body g g₁ h ih =>
    obtain ⟨hp, hwf⟩ := Bool.and_eq_true_iff.1 hwf
    have hbegins : BeginsTrimmed g₁.allTokens := h.allTokens ▸ hplace hp
    exact (ih hwf nofun hg).enclose (beginsTrimmed_ofChildren hbegins kind)
  | yes _ _ ih => exact ih (Bool.and_eq_true_iff.1 hwf).1 hplace hg
  | no _ _ ih => exact ih (Bool.and_eq_true_iff.1 hwf).2 hplace hg
  | @step room stop body g g₁ g₂ _ h₁ _ ih₁ ih₂ =>
    have hg₁ := ih₁ (Bool.and_eq_true_iff.1 hwf).2 hplace hg
    refine ih₂ hwf (fun hp => ?_) (hg₁.progress (fun n t => beginsTrimmed_of_leaves) _)
    rw [allTokens_progress, h₁.allTokens]
    exact hplace hp
  | nest _ ih =>
    obtain ⟨hlevel, -⟩ := Bool.and_eq_true_iff.1 hwf
    refine ih (hrules _) (fun hwraps => hplace ?_) hg
    rwa [hwraps] at hlevel
  | full _ ih => exact ih (Bool.and_eq_true_iff.1 hwf).2 hplace hg

end Beginnings

/-! ## Where nodes end -/

/-- Whether a nesting level is entered only where a token comes next. -/
def Nesting.takesNext : Nesting → Bool
  | .expression | .type => false
  | .signed | .suffixed | .array => true

/-- **Whether what is gathered ends with a significant token** after a rule that finds nothing, if
`next` says that a token is known to come next, and `tidy` that what is gathered is known to end so
before the rule. -/
def Rule.trims : Rule → (next tidy : Bool) → Bool
  | .done, _, tidy => tidy
  | .bump, next, tidy | .skip, next, tidy => next || tidy
  | .report _, _, _ => true
  | .seq first second, next, tidy =>
    first.complains || second.trims false (first.trims next tidy)
  | .node _ body, next, _ | .mark body, next, _ => body.trims next false
  | .wrap _ body, next, tidy => body.trims next tidy
  | .branch test yes no, next, tidy =>
    yes.trims (next || !test ⟨none, none⟩) tidy && no.trims (next || test ⟨none, none⟩) tidy
  | .loop stop body, _, tidy => tidy && body.trims (stop ⟨none, none⟩) true
  | .nest level _, next, _ => !level.takesNext || next

/-- **Whether the nodes that a rule makes end with significant tokens**, or have no leaves, if the
rule finds nothing; with the same known as before. -/
def Rule.trimsNodes : Rule → (next tidy : Bool) → Bool
  | .done, _, _ | .bump, _, _ | .skip, _, _ | .report _, _, _ => true
  | .seq first second, next, tidy =>
    first.complains || second.complains ||
      (first.trimsNodes next tidy && second.trimsNodes false (first.trims next tidy))
  | .node _ body, next, _ => body.trims next true && body.trimsNodes next true
  | .mark body, next, _ => body.trimsNodes next true
  | .wrap _ body, next, tidy => body.trims next tidy && body.trimsNodes next tidy
  | .branch test yes no, next, tidy =>
    yes.trimsNodes (next || !test ⟨none, none⟩) tidy &&
      no.trimsNodes (next || test ⟨none, none⟩) tidy
  | .loop stop body, _, tidy =>
    tidy && body.trims (stop ⟨none, none⟩) true && body.trimsNodes (stop ⟨none, none⟩) true
  | .nest level _, next, _ => !level.takesNext || next

/-- Every nesting level ends what is gathered with a significant token, … -/
lemma trims_nested (level : Nesting) : (nested level).trims level.takesNext false = true := by
  cases level <;> rfl

/-- … and makes such nodes only; … -/
lemma trimsNodes_nested (level : Nesting) :
    (nested level).trimsNodes level.takesNext false = true := by
  cases level <;> rfl

/-- … and so does the rule of a file. -/
lemma trimsNodes_file : file.trimsNodes false true = true := rfl

namespace Gathering

/-- What is gathered ends with a significant token; or it has no leaves, if `bare` allows that. -/
def Trimmed (bare : Bool) (g : Gathering) : Prop :=
  EndsTrimmed (leavesOfList g.children) ∧ (bare = false → leavesOfList g.children ≠ [])

variable {bare : Bool} {g g' : Gathering}

/-- Where nothing is gathered, there are no leaves. -/
lemma trimmed_fresh (g : Gathering) : g.fresh.Trimmed true := by
  have hleaves : leavesOfList g.fresh.children = [] := by rw [fresh, leavesOfList]
  refine ⟨fun t ht => ?_, fun hbare => absurd hbare.symm Bool.false_ne_true⟩
  simp [hleaves] at ht

/-- What is gathered ends as the last part of it does, if that has leaves. -/
lemma Trimmed.behind (h : g.Trimmed false) (before : List Element) :
    (g.behind before).Trimmed bare := by
  obtain ⟨hends, hne⟩ := h
  rw [Trimmed, Gathering.behind, leavesOfList_append]
  exact ⟨hends.append (hne rfl), fun _ => List.append_ne_nil_of_right_ne_nil _ (hne rfl)⟩

/-- To make a node of what is gathered does not change how it ends. -/
lemma Trimmed.enclose (h : g.Trimmed bare) (kind : NodeKind) : (g.enclose kind).Trimmed bare := by
  rw [Trimmed, Gathering.enclose, leavesOfList_ofChildren]
  exact h

/-- A token that is taken stands last. -/
lemma trimmed_bump {t : Token} {rest : List Token} (hs : significant g.ahead = t :: rest) :
    g.bump.Trimmed bare := by
  have hleaves : leavesOfList g.bump.children = leavesOfList g.flush.children ++ [t] := by
    rw [bump_of_cons hs]
    change leavesOfList (g.flush.children ++ [t].map .token) = _
    rw [leavesOfList_append, leavesOfList_map_token]
  rw [Trimmed, hleaves]
  exact ⟨(endsTrimmed_singleton (not_isTrivia_of_significant hs)).append (List.cons_ne_nil _ _),
    fun _ => List.append_ne_nil_of_right_ne_nil _ (List.cons_ne_nil _ _)⟩

/-- So does a token that is passed over. -/
lemma trimmed_skip {t : Token} {rest : List Token} (hs : significant g.ahead = t :: rest) :
    g.skip.Trimmed bare := by
  have hnext : significant g.flush.fresh.ahead = t :: rest := by
    change significant g.flush.ahead = _
    rw [flush_ahead, significant_significant, hs]
  rw [skip_of_first (lookahead_first_of_significant hs)]
  exact ((trimmed_bump hnext).enclose .error).behind _

/-- A step of a loop leaves a significant token last, whether one is passed over behind it or
not. -/
lemma Trimmed.progress (h : g.Trimmed bare) (cursor : Nat) : (g.progress cursor).Trimmed bare := by
  rw [Gathering.progress]
  split
  · cases hs : significant g.ahead with
    | nil =>
      have hnone : g.lookahead.first = none := by rw [lookahead, hs]
      rw [skip_of_nil hs]
      exact h
    | cons t rest => exact trimmed_skip hs
  · exact h

/-- Where nothing is found after a step of a loop, nothing was found by the step. -/
lemma clean_of_progress {cursor : Nat} (h : (g.progress cursor).diagnostics = []) :
    g.diagnostics = [] :=
  List.prefix_nil.1 (h ▸ diagnostics_prefix_progress g cursor)

/-- A token comes next where a test goes another way than at the end. -/
lemma first_ne_none_of_test {test : Lookahead → Bool} {b : Bool} (htest : test g.lookahead = b)
    (hend : test ⟨none, none⟩ = !b) : g.lookahead.first ≠ none := by
  intro hnone
  rw [lookahead_eq, lookahead_first_eq_none_iff.1 hnone] at htest
  exact Bool.not_ne_self b (hend.symm.trans htest)

end Gathering

section Ends

variable {rules : Nesting → Rule} {room : Nat} {r : Rule} {g g' : Gathering}
  {bare next tidy : Bool}

/-- What is known of what comes next, once a test has gone one way. -/
lemma next_of_test {test : Lookahead → Bool} {b : Bool}
    (hnext : next = true → g.lookahead.first ≠ none) (htest : test g.lookahead = b) :
    (next || (test ⟨none, none⟩ != b)) = true → g.lookahead.first ≠ none := by
  intro h
  obtain h | h := Bool.or_eq_true_iff.1 h
  · exact hnext h
  · exact first_ne_none_of_test htest (by cases b <;> simpa using h)

/-- **What is read off a rule is so**: where it finds nothing, what is gathered ends with a
significant token after it.

**Proof sketch.** Induction on the derivation. White space and comments are gathered by themselves
only where a node is opened or a place is remembered, and there what is gathered inside ends with a
significant token. -/
theorem Derives.trimmed (hrules : ∀ level, (rules level).trims level.takesNext false = true)
    (h : Derives rules room r g g') (hclean : g'.diagnostics = [])
    (hnext : next = true → g.lookahead.first ≠ none) (htidy : tidy = true → g.Trimmed bare)
    (hr : r.trims next tidy = true) : g'.Trimmed bare := by
  have hunknown {p : Prop} : false = true → p := nofun
  induction h generalizing bare next tidy with
  | done => exact htidy hr
  | report => exact absurd hclean (List.append_ne_nil_of_right_ne_nil _ (List.cons_ne_nil _ _))
  | seq h₁ h₂ ih₁ ih₂ =>
    obtain hcomplains | hr := Bool.or_eq_true_iff.1 hr
    · exact absurd (h₂.clean hclean) (h₁.complains hcomplains)
    · exact ih₂ hclean hunknown (fun h => ih₁ (h₂.clean hclean) hnext htidy h) hr
  | @bump room g =>
    cases hs : significant g.ahead with
    | nil =>
      have hnone : g.lookahead.first = none := by rw [lookahead, hs]
      rw [bump_of_nil hs]
      exact htidy ((Bool.or_eq_true_iff.1 hr).resolve_left fun h => hnext h hnone)
    | cons t rest => exact trimmed_bump hs
  | @skip room g =>
    cases hs : significant g.ahead with
    | nil =>
      have hnone : g.lookahead.first = none := by rw [lookahead, hs]
      rw [skip_of_nil hs]
      exact htidy ((Bool.or_eq_true_iff.1 hr).resolve_left fun h => hnext h hnone)
    | cons t rest => exact trimmed_skip hs
  | node _ ih => exact ((ih hclean (by simpa using hnext) hunknown hr).enclose _).behind _
  | mark _ ih => exact (ih hclean (by simpa using hnext) hunknown hr).behind _
  | wrap _ ih => exact (ih hclean hnext htidy hr).enclose _
  | yes htest _ ih =>
    exact ih hclean (next_of_test hnext htest) htidy
      (by simpa using (Bool.and_eq_true_iff.1 hr).1)
  | no htest _ ih =>
    exact ih hclean (next_of_test hnext htest) htidy
      (by simpa using (Bool.and_eq_true_iff.1 hr).2)
  | stop => exact htidy (Bool.and_eq_true_iff.1 hr).1
  | step hstop h₁ h₂ ih₁ ih₂ =>
    obtain ⟨hbefore, hbody⟩ := Bool.and_eq_true_iff.1 hr
    have hclean₁ := clean_of_progress (h₂.clean hclean)
    have hg₁ := ih₁ hclean₁ (first_ne_none_of_test hstop) (fun _ => htidy hbefore) hbody
    exact ih₂ hclean hunknown (fun _ => hg₁.progress _) hr
  | nest _ ih =>
    refine ih hclean (fun hlevel => ?_) hunknown (hrules _)
    obtain h | h := Bool.or_eq_true_iff.1 hr
    · rw [hlevel] at h
      cases h
    · exact hnext h
  | full h =>
    exact absurd (h.clean hclean) (List.append_ne_nil_of_right_ne_nil _ (List.cons_ne_nil _ _))

/-- The node of a single token ends with it. -/
lemma endsTrimmed_of_leaves {n : Node} {t : Token} (hn : n.leaves = [t])
    (ht : t.isTrivia = false) : EndsTrimmed n.leaves := by
  rw [hn]
  exact endsTrimmed_singleton ht

/-- **The nodes that a rule makes end with significant tokens**, if that is read off the rule and it
finds nothing.

**Proof sketch.** Induction on the derivation, along which the two facts are followed. A node may
also have no leaves: that is how what is gathered ends where nothing is gathered yet. -/
theorem Derives.endsTrimmed (hrules : ∀ level, (rules level).trims level.takesNext false = true)
    (hnodes : ∀ level, (rules level).trimsNodes level.takesNext false = true)
    (h : Derives rules room r g g') (hclean : g'.diagnostics = [])
    (hnext : next = true → g.lookahead.first ≠ none) (htidy : tidy = true → g.Trimmed true)
    (hr : r.trimsNodes next tidy = true) (hg : g.All fun n => EndsTrimmed n.leaves) :
    g'.All fun n => EndsTrimmed n.leaves := by
  have hunknown {p : Prop} : false = true → p := nofun
  induction h generalizing next tidy with
  | done | report | stop => exact hg
  | seq h₁ h₂ ih₁ ih₂ =>
    obtain hcomplains | hr := Bool.or_eq_true_iff.1 hr
    · obtain hcomplains | hcomplains := Bool.or_eq_true_iff.1 hcomplains
      · exact absurd (h₂.clean hclean) (h₁.complains hcomplains)
      · exact absurd hclean (h₂.complains hcomplains)
    · obtain ⟨hr₁, hr₂⟩ := Bool.and_eq_true_iff.1 hr
      have hclean₁ := h₂.clean hclean
      exact ih₂ hclean hunknown (h₁.trimmed hrules hclean₁ hnext htidy) hr₂
        (ih₁ hclean₁ hnext htidy hr₁ hg)
  | bump => exact hg.bump
  | skip => exact hg.skip fun n t => endsTrimmed_of_leaves
  | @node room kind body g g₁ h ih =>
    obtain ⟨hends, hr⟩ := Bool.and_eq_true_iff.1 hr
    have hnext' : next = true → g.flush.fresh.lookahead.first ≠ none := by simpa using hnext
    have htrimmed := h.trimmed hrules hclean hnext' (fun _ => trimmed_fresh _) hends
    have hbody := ih hclean hnext' (fun _ => trimmed_fresh _) hr (all_fresh _ _)
    exact hg.behind (hbody.enclose htrimmed.1)
  | mark _ ih =>
    exact hg.behind
      (ih hclean (by simpa using hnext) (fun _ => trimmed_fresh _) hr (all_fresh _ _))
  | @wrap room kind body g g₁ h ih =>
    obtain ⟨hends, hr⟩ := Bool.and_eq_true_iff.1 hr
    have htrimmed := h.trimmed hrules hclean hnext htidy hends
    exact (ih hclean hnext htidy hr hg).enclose htrimmed.1
  | yes htest _ ih =>
    exact ih hclean (next_of_test hnext htest) htidy
      (by simpa using (Bool.and_eq_true_iff.1 hr).1) hg
  | no htest _ ih =>
    exact ih hclean (next_of_test hnext htest) htidy
      (by simpa using (Bool.and_eq_true_iff.1 hr).2) hg
  | step hstop h₁ h₂ ih₁ ih₂ =>
    obtain ⟨hbefore, hbody⟩ := Bool.and_eq_true_iff.1 hr
    obtain ⟨hbefore, hends⟩ := Bool.and_eq_true_iff.1 hbefore
    have hclean₁ := clean_of_progress (h₂.clean hclean)
    have hnext₁ := first_ne_none_of_test hstop
    have htrimmed := h₁.trimmed hrules hclean₁ hnext₁ (fun _ => htidy hbefore) hends
    have hg₁ := ih₁ hclean₁ hnext₁ (fun _ => htidy hbefore) hbody hg
    exact ih₂ hclean hunknown (fun _ => htrimmed.progress _) hr
      (hg₁.progress (fun n t => endsTrimmed_of_leaves) _)
  | nest _ ih =>
    refine ih hclean (fun hlevel => ?_) hunknown (hnodes _) hg
    obtain h | h := Bool.or_eq_true_iff.1 hr
    · rw [hlevel] at h
      cases h
    · exact hnext h
  | full h =>
    exact absurd (h.clean hclean) (List.append_ne_nil_of_right_ne_nil _ (List.cons_ne_nil _ _))

end Ends

end Grammar

open Grammar

/-! ## The nodes of a tree -/

/-- Nodes below the root of a parse are nodes that were gathered. -/
lemma mem_nodesOfList_of_kind_ne {tokens : List Token} {g : Gathering}
    (hg : Derives nested maxNesting file (.ofTokens tokens) g) {n : Node}
    (hn : n ∈ (parseTokens tokens).1.descendants) (hk : n.kind ≠ .file) :
    n ∈ Element.nodesOfList g.children := by
  rw [parseTokens_eq hg] at hn
  obtain rfl | hn := Node.mem_descendants_iff.1 hn
  · exact absurd rfl hk
  · change n ∈ Element.nodesOfList g.finish.children at hn
    rwa [nodesOfList_finish] at hn

/-- The child nodes of a tiled node are tiled. -/
lemma Node.Tiled.of_mem_childNodes {m n : Node} (hn : n.Tiled) (hm : m ∈ n.childNodes) :
    m.Tiled := by
  obtain ⟨before, after, hcs⟩ := List.append_of_mem (Element.mem_nodes_iff.1 hm)
  rw [Node.tiled_iff, hcs] at hn
  obtain ⟨mid, -, hrest⟩ := Element.tile_append_iff.1 hn
  rw [Element.Tile] at hrest
  exact hrest.1

/-- Tiles start where the first of them does, and stop where the last of them does. -/
lemma Tiles.eq_ends {start stop : Nat} {ts : List Token} {first last : Token}
    (h : Tiles start ts stop) (hfirst : ts.head? = some first) (hlast : ts.getLast? = some last) :
    start = first.span.start ∧ stop = last.span.stop := by
  obtain ⟨rest, rfl⟩ := List.head?_eq_some_iff.1 hfirst
  obtain ⟨-, hstop⟩ := (show Tiles start (first :: rest ++ []) stop by simpa using h).of_append
  rw [hlast] at hstop
  exact ⟨h.1.symm, Eq.symm hstop⟩

/-- **Where nodes begin and end.** In the tree of any stream of tokens, the first leaf of a node
other than the root is neither white space nor a comment. In the tree of a clean text its last leaf
is neither; so the span of a node that has leaves runs from a significant token to a significant
token. -/
theorem parse_trimmed :
    (∀ tokens : List Token, ∀ n ∈ (parseTokens tokens).1.descendants, n.kind ≠ .file →
      ∀ t ∈ n.leaves.head?, t.isTrivia = false) ∧
      ∀ text : String, (parse text).diagnostics = [] →
        ∀ n ∈ (parse text).root.descendants, n.kind ≠ .file →
          (∀ t ∈ n.leaves.getLast?, t.isTrivia = false) ∧
            (n.leaves ≠ [] → ∃ first last, n.leaves.head? = some first ∧
              n.leaves.getLast? = some last ∧ first.isTrivia = false ∧ last.isTrivia = false ∧
              n.span = ⟨first.span.start, last.span.stop⟩) := by
  have hbegins (tokens : List Token) (n : Node) (hn : n ∈ (parseTokens tokens).1.descendants)
      (hk : n.kind ≠ .file) : BeginsTrimmed n.leaves := by
    obtain ⟨g, hg, -, -⟩ := exists_derives_file tokens
    exact hg.beginsTrimmed wellFormed_nested wellFormed_file nofun
      (Gathering.all_fresh _ (.ofTokens tokens)) n (mem_nodesOfList_of_kind_ne hg hn hk)
  refine ⟨hbegins, fun text hclean n hn hk => ?_⟩
  obtain ⟨g, hg, -, -⟩ := exists_derives_file (tokenize text)
  have hfound : g.diagnostics = [] := by
    change (parseTokens (tokenize text)).2 = [] at hclean
    rw [parseTokens_eq hg] at hclean
    have hnil := eq_nil_of_sort_eq_nil hclean
    rw [Gathering.finish, Gathering.attachAll_diagnostics] at hnil
    exact (List.append_eq_nil_iff.1 hnil).1
  have hends : EndsTrimmed n.leaves :=
    hg.endsTrimmed trims_nested trimsNodes_nested hfound
      (fun h => absurd h Bool.false_ne_true)
      (fun _ => Gathering.trimmed_fresh (.ofTokens (tokenize text))) trimsNodes_file
      (Gathering.all_fresh _ (.ofTokens (tokenize text))) n (mem_nodesOfList_of_kind_ne hg hn hk)
  refine ⟨hends, fun hne => ?_⟩
  obtain ⟨first, hfirst⟩ := Option.isSome_iff_exists.1 (List.isSome_head?.2 hne)
  have hlast := List.getLast?_eq_some_getLast hne
  have htiled : n.Tiled :=
    Node.forall_mem_descendants (fun m hm c hc => hm.of_mem_childNodes hc)
      (tiled_root (tiles_tokenize text)).1 n hn
  obtain ⟨hstart, hstop⟩ := (n.tiles_leaves htiled).eq_ends hfirst hlast
  refine ⟨first, _, hfirst, hlast, hbegins _ n hn hk first hfirst, hends _ hlast, ?_⟩
  rw [← hstart, ← hstop]

/-- A union of types with comments before, inside and behind it: its first and its last leaf are
significant, and it spans what is between them. -/
theorem parse_trimmed_union :
    (parse "type A = /* a */ Int /* b */ | Bytes // c\n;").diagnostics = [] ∧
      ∃ n ∈ (parse "type A = /* a */ Int /* b */ | Bytes // c\n;").root.descendants,
        n.kind = .unionType ∧ (∀ t ∈ n.leaves.head?, t.isTrivia = false) ∧
          ∃ first last, n.leaves.head? = some first ∧ n.leaves.getLast? = some last ∧
            first.isTrivia = false ∧ last.isTrivia = false ∧
            n.span = ⟨first.span.start, last.span.stop⟩ := by
  have hclean :
      (parse "type A = /* a */ Int /* b */ | Bytes // c\n;").diagnostics = [] := by decide +kernel
  obtain ⟨d, hd, n, hn, hk, hne⟩ :
      ∃ d ∈ (parse "type A = /* a */ Int /* b */ | Bytes // c\n;").root.childNodes,
        ∃ n ∈ d.childNodes, n.kind = .unionType ∧ n.leaves ≠ [] := by decide +kernel
  have hmem := Node.mem_descendants_trans (Node.mem_descendants_of_mem hd) hn
  have hfile : n.kind ≠ .file := by rw [hk]; nofun
  exact ⟨hclean, n, hmem, hk, parse_trimmed.1 _ n hmem hfile,
    (parse_trimmed.2 _ hclean n hmem hfile).2 hne⟩

end TxTree
