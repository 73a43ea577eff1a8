import TxTree.Proofs.Following

set_option relaxedAutoImplicit false
set_option autoImplicit false

/-!
# Where declarations end

A declaration without errors ends with a semicolon or a closing brace, and once that is taken the
declaration looks no further. So a file whose text goes on behind a clean declaration is parsed up
to there as if it did not; and behind any declaration, clean or not, the same holds if the text goes
on with a word that opens the next one.

## Main definitions

* `TxTree.Grammar.Rule.complains` — whether a rule reports an error, whatever comes next.
* `TxTree.Grammar.Rule.Closes` — whether a rule ends with a token that ends a declaration.
* `TxTree.Grammar.Gathering.Extendable` — whether a file may go on there.

## Main results

* `TxTree.Grammar.Derives.exists_closer` — a closing rule without errors takes such a token last.
* `TxTree.Grammar.closes_declaration` — declarations close.
* `TxTree.Grammar.Derives.extends` — a file that goes on is parsed as far as it went before.
-/

namespace TxTree.Grammar

open Gathering Rule

/-! ## Rules that report an error -/

section Complaining

variable {rules : Nesting → Rule} {room : Nat} {r : Rule} {g g' : Gathering}

/-- Whether a rule reports an error, whatever comes next. -/
def Rule.complains : Rule → Bool
  | .report _ => true
  | .seq first second => first.complains || second.complains
  | .node _ body | .mark body | .wrap _ body => body.complains
  | .branch _ yes no => yes.complains && no.complains
  | _ => false

/-- After a rule that reports an error something has been found.

**Proof sketch.** Induction on the rule. -/
lemma Derives.complains (h : Derives rules room r g g') (hr : r.complains = true) :
    g'.diagnostics ≠ [] := by
  induction r generalizing g g' with
  | report message =>
    cases h
    exact List.append_ne_nil_of_right_ne_nil _ (List.cons_ne_nil _ _)
  | seq first second ih₁ ih₂ =>
    cases h with
    | seq h₁ h₂ =>
      rcases Bool.or_eq_true_iff.1 hr with hr | hr
      · exact fun hnil => ih₁ h₁ hr (h₂.clean hnil)
      · exact ih₂ h₂ hr
  | node kind body ih =>
    cases h with
    | node h =>
      have hne := ih h hr
      exact hne
  | mark body ih =>
    cases h with
    | mark h =>
      have hne := ih h hr
      exact hne
  | wrap kind body ih =>
    cases h with
    | wrap h =>
      have hne := ih h hr
      exact hne
  | branch test yes no ih₁ ih₂ =>
    have hboth := Bool.and_eq_true_iff.1 hr
    cases h with
    | yes _ h => exact ih₁ h hboth.1
    | no _ h => exact ih₂ h hboth.2
  | _ => cases hr

end Complaining

/-! ## Rules that close -/

/-- **Rules that close**: whatever comes next, the rule reports an error, or the last that it does
is to take a token that ends a declaration. -/
inductive Rule.Closes : Rule → Prop where
  | complains {r : Rule} : r.complains = true → Closes r
  | expect {kind : TokenKind} {message : String} : kind ∈ closers → Closes (expect kind message)
  | seq {first second : Rule} : Closes second → Closes (first ++ second)
  | node {kind : NodeKind} {body : Rule} : Closes body → Closes (.node kind body)
  | mark {body : Rule} : Closes body → Closes (.mark body)
  | wrap {kind : NodeKind} {body : Rule} : Closes body → Closes (.wrap kind body)
  | branch {test : Lookahead → Bool} {yes no : Rule} : Closes yes → Closes no →
    Closes (.branch test yes no)

section Closing

variable {room : Nat} {r : Rule} {g g' : Gathering}

/-- **A closing rule without errors takes a token last that ends a declaration.**

**Proof sketch.** Induction on why the rule closes. -/
theorem Derives.exists_closer {rules : Nesting → Rule} (h : Derives rules room r g g')
    (hr : r.Closes) (hclean : g'.diagnostics = []) :
    ∃ before t, pending g.ahead = before ++ t :: pending g'.ahead ∧ t.kind ∈ closers := by
  induction hr generalizing g g' with
  | complains hr => exact absurd hclean (h.complains hr)
  | @expect kind message hkind =>
    cases h with
    | no _ h => exact absurd hclean (h.complains rfl)
    | yes htest h =>
      cases h with
      | seq h₁ h₂ =>
        cases h₁
        cases h₂
        obtain ⟨t, rest, hs, rfl⟩ := exists_significant_of_first (beq_iff_eq.1 htest)
        refine ⟨[], t, ?_, hkind⟩
        rw [pending_bump, pending_of_significant hs]
        rfl
  | seq _ ih =>
    cases h with
    | seq h₁ h₂ =>
      obtain ⟨n, hp, -, -⟩ := h₁.takes
      obtain ⟨before, t, hpending, hkind⟩ := ih h₂ hclean
      refine ⟨(pending g.ahead).take n ++ before, t, ?_, hkind⟩
      rw [List.append_assoc, ← hpending, hp, List.take_append_drop]
  | node _ ih =>
    cases h with
    | node h =>
      have hcloser := ih h hclean
      rwa [pending_flush_fresh] at hcloser
  | mark _ ih =>
    cases h with
    | mark h =>
      have hcloser := ih h hclean
      rwa [pending_flush_fresh] at hcloser
  | wrap _ ih =>
    cases h with
    | wrap h =>
      have hcloser := ih h hclean
      exact hcloser
  | branch _ _ ih₁ ih₂ =>
    cases h with
    | yes _ h => exact ih₁ h hclean
    | no _ h => exact ih₂ h hclean

/-- Before a closing rule that takes all that is pending without errors, the end of the stream
cannot be told. -/
lemma Derives.anchored_of_closes {rules : Nesting → Rule} (h : Derives rules room r g g')
    (hr : r.Closes) (hclean : g'.diagnostics = []) (hend : pending g'.ahead = [])
    (us : List Token) : g.Anchored us := by
  obtain ⟨before, t, hpending, hkind⟩ := h.exists_closer hr hclean
  refine .closer (t := t) ?_ hkind
  rw [hpending, hend, List.getLast?_append]
  rfl

/-- **A closing rule without errors looks no further than the token that it takes last**: what is
derived of it for a stream that it takes to the end is derived for the longer one, side by side.

**Proof sketch.** Induction on why the rule closes. All that comes before its last part leaves the
token to come that ends the declaration, so that the end of the stream cannot be told. -/
theorem Derives.follows_of_closes (h : Derives nested room r g g') (hr : r.Closes)
    {ok : TokenKind → Prop} {P : Lookahead → Prop} (hs : r.Spares ok P) (hP : P g.lookahead)
    (hclean : g'.diagnostics = []) (hend : pending g'.ahead = []) {us : List Token} {stop : Nat}
    {g₁ : Gathering} (hf : Follows us stop g g₁) :
    ∃ g₁', Derives nested room r g₁ g₁' ∧ Follows us stop g' g₁' := by
  have hfirst := h.anchored_of_closes hr hclean hend us
  induction hr generalizing g g' g₁ P with
  | complains hr => exact absurd hclean (h.complains hr)
  | @expect kind message hkind =>
    cases h with
    | no _ h => exact absurd hclean (h.complains rfl)
    | yes htest h =>
      cases h with
      | seq h₁ h₂ =>
        cases h₁
        cases h₂
        have hbump := hf.bump hfirst (beq_iff_eq.1 htest)
        exact ⟨_, hs.derives_yes hP (hf.continued hfirst) htest (.seq .bump .done), hbump⟩
  | seq hsecond ih =>
    cases h with
    | seq h₁ h₂ =>
      -- Between the two, the token that ends the declaration is still to come.
      have hmiddle := h₂.anchored_of_closes hsecond hclean hend us
      obtain ⟨k₁, hk₁, hf₁⟩ := h₁.follows hs.1 hP hmiddle hf
      obtain ⟨k₂, hk₂, hf₂⟩ := ih h₂ hs.2 (h₁.after hP) hclean hend hf₁ hmiddle
      exact ⟨k₂, .seq hk₁ hk₂, hf₂⟩
  | node _ ih =>
    cases h with
    | node h =>
      obtain ⟨k, hk, hf'⟩ :=
        ih h hs (by simpa using hP) hclean hend (hf.flush hfirst).fresh hfirst.flush_fresh
      exact hf.node hfirst _ hk hf'
  | mark _ ih =>
    cases h with
    | mark h =>
      obtain ⟨k, hk, hf'⟩ :=
        ih h hs (by simpa using hP) hclean hend (hf.flush hfirst).fresh hfirst.flush_fresh
      exact hf.mark hfirst hk hf'
  | wrap _ ih =>
    cases h with
    | wrap h =>
      obtain ⟨k, hk, hf'⟩ := ih h hs hP hclean hend hf hfirst
      exact ⟨_, .wrap hk, hf'.enclose _⟩
  | branch _ _ ih₁ ih₂ =>
    cases h with
    | yes htest h =>
      obtain ⟨k, hk, hf'⟩ := ih₁ h hs.2.1 ⟨hP, htest⟩ hclean hend hf hfirst
      exact ⟨k, hs.derives_yes hP (hf.continued hfirst) htest hk, hf'⟩
    | no htest h =>
      obtain ⟨k, hk, hf'⟩ := ih₂ h hs.2.2 ⟨hP, htest⟩ hclean hend hf hfirst
      exact ⟨k, hs.derives_no hP (hf.continued hfirst) htest hk, hf'⟩

end Closing

/-! ## Declarations close -/

lemma closes_nameThen {yes no : Rule} {message : String} (h : yes.Closes) :
    (nameThen message yes no).Closes :=
  .branch (.seq h) (.complains rfl)

lemma closes_expectThen {kind : TokenKind} {yes no : Rule} {message : String} (h : yes.Closes) :
    (expectThen kind message yes no).Closes :=
  .branch (.seq h) (.complains rfl)

lemma closes_itemsThrough {kind : TokenKind} (hkind : kind ∈ closers) (item : Rule)
    (message : String) : (itemsThrough kind message item).Closes :=
  .seq (.expect hkind)

lemma closes_braced (item : Rule) : (braced item).Closes :=
  closes_expectThen (closes_itemsThrough (by decide) _ _)

lemma closes_recordFields : recordFields.Closes := .seq (closes_itemsThrough (by decide) _ _)

lemma closes_semicolon : semicolon.Closes := .expect (by decide)

/-- **Declarations close.** -/
theorem closes_declaration : declaration.Closes := by
  refine .branch ?party (.branch ?policy (.branch ?record (.branch ?type (.branch ?tx
    (.branch ?env (.branch ?asset (.complains rfl)))))))
  case party => exact .node (.seq (closes_nameThen closes_semicolon))
  case policy =>
    refine .node (.seq (closes_nameThen (.branch (.seq closes_semicolon) (.branch ?_ ?_))))
    · exact closes_braced _
    · exact .complains rfl
  case record =>
    exact .mark (.seq (closes_nameThen (.wrap (closes_braced _))))
  case type =>
    refine .mark (.seq (closes_nameThen (.branch (.wrap (.seq closes_semicolon)) (.wrap ?_))))
    exact closes_expectThen (.seq (.expect (by decide)))
  case tx => exact .node (.seq (closes_nameThen (.seq (closes_braced _))))
  case env => exact .node (.seq (.branch closes_recordFields (.complains rfl)))
  case asset =>
    exact .node (.seq (closes_nameThen (closes_expectThen (.seq closes_semicolon))))

/-! ## Files that go on -/

section Files

variable {room : Nat} {us : List Token} {g g' : Gathering}

/-- **A file may go on** where the end of its stream cannot be told, or where nothing is pending and
nothing was found amiss. -/
inductive Gathering.Extendable (us : List Token) (g : Gathering) : Prop where
  | anchored : g.Anchored us → Extendable us g
  | clean : g.diagnostics = [] → pending g.ahead = [] → Extendable us g

/-- Where a token comes next, it also comes next in the longer stream. -/
lemma Lookahead.Continued.isEnd_eq_false {l m : Lookahead} (h : l.Continued m)
    (hl : l.isEnd = false) : m.isEnd = false := by
  cases h <;> first | exact hl | rfl

/-- A declaration behind which the file may go on cannot tell the end of the stream, and what is
derived of it is derived for the longer stream, side by side. -/
lemma Derives.follows_declaration (h : Derives nested room declaration g g')
    (hnext : g.lookahead.isEnd = false) (he : g'.Extendable us) :
    g.Anchored us ∧ ∀ {stop : Nat} {g₁ : Gathering}, Follows us stop g g₁ →
      ∃ g₁', Derives nested room declaration g₁ g₁' ∧ Follows us stop g' g₁' := by
  cases he with
  | anchored ha =>
    exact ⟨h.anchored ha, fun hf => h.follows spares_declaration hnext ha hf⟩
  | clean hclean hend =>
    refine ⟨h.anchored_of_closes closes_declaration hclean hend us, fun hf => ?_⟩
    exact h.follows_of_closes closes_declaration spares_declaration hnext hclean hend hf

/-- A declaration takes a token, so that none is passed over behind it. -/
lemma Derives.progress_declaration (h : Derives nested room declaration g g')
    (hnext : g.lookahead.isEnd = false) : g.cursor < g'.cursor := by
  obtain ⟨kind, hfirst, -⟩ := allows_of_not_isEnd hnext
  obtain ⟨t, rest, hs, -⟩ := exists_significant_of_first hfirst
  exact (h.headed_declaration hs).1

/-- **A file that goes on is parsed as far as it went before**, side by side, and then further.

**Proof sketch.** Induction on the derivation of the loop. -/
theorem Derives.extends (h : Derives nested room file g g') (he : g'.Extendable us) :
    g.Extendable us ∧ ∀ {stop : Nat} {g₁ : Gathering}, Follows us stop g g₁ →
      ∃ g₁', Follows us stop g' g₁' ∧
        ∀ k, Derives nested room file g₁' k → Derives nested room file g₁ k := by
  generalize hr : file = r at h
  induction h with
  | stop => exact ⟨he, fun hf => ⟨_, hf, fun k hk => hk⟩⟩
  | @step room stop body g g₂ g₃ hstop h₁ h₂ _ ih =>
    cases hr
    have hcursor := h₁.progress_declaration hstop
    have hmoved : g₂.progress g.cursor = g₂ := if_neg hcursor.ne'
    -- The file may go on behind this declaration, so that the declaration is followed, too.
    obtain ⟨he₂, hrest⟩ := ih he rfl
    rw [hmoved] at he₂ hrest
    obtain ⟨ha, hdecl⟩ := h₁.follows_declaration hstop he₂
    refine ⟨.anchored ha, fun hf => ?_⟩
    obtain ⟨k₂, hk₂, hf₂⟩ := hdecl hf
    obtain ⟨k₃, hf₃, hfile⟩ := hrest hf₂
    refine ⟨k₃, hf₃, fun k hk => ?_⟩
    have hstop₁ := (hf.continued ha).isEnd_eq_false hstop
    have hmoved₁ := (hk₂.progress_declaration hstop₁).ne'
    refine .step hstop₁ hk₂ ?_
    rw [Gathering.progress, if_neg hmoved₁]
    exact hfile k hk
  | _ => cases hr

end Files

end TxTree.Grammar
