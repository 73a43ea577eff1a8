import TxTree.Proofs.Declarations
import TxTree.Proofs.Findings

set_option relaxedAutoImplicit false
set_option autoImplicit false

/-!
# A stream that goes on

What a rule does with a stream it also does with the longer stream that begins so, as long as it
cannot tell where the shorter one ends: because what follows there begins with a word that opens a
declaration, or because the last token of the shorter stream, which is still to come, ends one. So
two parses can be followed side by side. What they gather is the same; what they find is the same
up to the ends of the spans, for what is missing is reported at the next token or at the end.

## Main definitions

* `TxTree.Grammar.Gathering.Anchored` — whether the end of a stream cannot be told.
* `TxTree.Grammar.Follows` — two gatherings side by side.

## Main results

* `TxTree.Grammar.Follows.continued` — what comes next in the longer stream.
* `TxTree.Grammar.Derives.follows` — what is derived for a stream is derived for the longer one.
-/

namespace TxTree.Grammar

open Gathering

/-! ## Streams one behind the other -/

/-- Something is pending in a stream, or else nothing invisible comes right behind it. -/
def Told (ts us : List Token) : Prop := pending ts ≠ [] ∨ us.takeWhile (·.isTrivia) = []

lemma takeWhile_append_of_told {ts us : List Token} (h : Told ts us) :
    (ts ++ us).takeWhile (·.isTrivia) = ts.takeWhile (·.isTrivia) := by
  rw [List.takeWhile_append]
  split
  · next hlength =>
    have hself : ts.takeWhile (·.isTrivia) = ts :=
      (List.takeWhile_prefix _).eq_of_length hlength
    have hnil : pending ts = [] := pending_eq_nil_iff.2 (List.takeWhile_eq_self_iff.1 hself)
    rw [h.resolve_left (fun hne => hne hnil), List.append_nil, hself]
  · rfl

lemma significant_append {ts us : List Token} (h : Told ts us) :
    significant (ts ++ us) = significant ts ++ us := by
  have hts := takeWhile_append_significant ts
  have hall := takeWhile_append_significant (ts ++ us)
  rw [takeWhile_append_of_told h] at hall
  have hsame : ts.takeWhile (·.isTrivia) ++ significant (ts ++ us) =
      ts.takeWhile (·.isTrivia) ++ (significant ts ++ us) := by
    rw [hall, ← List.append_assoc, hts]
  exact List.append_cancel_left hsame

/-! ## The end that cannot be told -/

/-- **The end of a stream cannot be told** from what comes next if what follows there begins with a
word that opens a declaration, or if the last token that is pending ends one. -/
inductive Gathering.Anchored (us : List Token) (g : Gathering) : Prop where
  | word {u : Token} {rest : List Token} : us = u :: rest →
    u.kind.isHardDeclarationKeyword = true → u.span.start = g.endOffset → Anchored us g
  | closer {t : Token} : (pending g.ahead).getLast? = some t → t.kind ∈ closers → Anchored us g

/-- A word that opens a declaration is no white space. -/
lemma isTrivia_eq_false_of_hard {u : Token} (h : u.kind.isHardDeclarationKeyword = true) :
    u.isTrivia = false := by
  obtain ⟨kind, text, span⟩ := u
  cases kind <;> first | rfl | cases h

lemma pending_cons_of_hard {u : Token} (h : u.kind.isHardDeclarationKeyword = true)
    (rest : List Token) : pending (u :: rest) = u :: pending rest := by
  rw [pending, List.filter_cons_of_pos (by simp [isTrivia_eq_false_of_hard h])]
  rfl

namespace Gathering.Anchored

variable {us : List Token} {g g' : Gathering}

/-- What is anchored later was anchored before. -/
lemma of_takes {n : Nat} (h : g'.Anchored us) (htakes : Takes n g g')
    (hend : g'.endOffset = g.endOffset) : g.Anchored us := by
  cases h with
  | word hus hword hstart => exact .word hus hword (hstart.trans hend)
  | @closer t hlast hkind =>
    refine .closer ?_ hkind
    rw [htakes.1, List.getLast?_drop] at hlast
    split at hlast
    · cases hlast
    · exact hlast

lemma told (h : g.Anchored us) : Told g.ahead us := by
  cases h with
  | word hus hword _ =>
    refine .inr ?_
    rw [hus, List.takeWhile_cons_of_neg (by simp [isTrivia_eq_false_of_hard hword])]
  | closer hlast _ =>
    refine .inl fun hnil => ?_
    rw [hnil] at hlast
    cases hlast

/-- Only what is pending matters, and the end of the text. -/
lemma congr (h : g.Anchored us) (hpending : pending g'.ahead = pending g.ahead)
    (hend : g'.endOffset = g.endOffset) : g'.Anchored us := by
  cases h with
  | word hus hword hstart => exact .word hus hword (hstart.trans hend.symm)
  | closer hlast hkind => exact .closer (hpending ▸ hlast) hkind

lemma flush_fresh (h : g.Anchored us) : g.flush.fresh.Anchored us :=
  h.congr (pending_flush_fresh g) (flush_endOffset g)

/-- What is anchored after passing over a token was anchored before. -/
lemma of_progress {cursor : Nat} (h : (g.progress cursor).Anchored us) : g.Anchored us := by
  obtain ⟨n, hn⟩ := takes_progress g cursor
  obtain ⟨ts, hts⟩ := Consumes.progress g cursor
  exact h.of_takes hn hts.endOffset_eq

end Gathering.Anchored

/-- What is anchored after a rule was anchored before. -/
lemma Derives.anchored {rules : Nesting → Rule} {room : Nat} {r : Rule} {us : List Token}
    {g g' : Gathering} (h : Derives rules room r g g') (ha : g'.Anchored us) : g.Anchored us := by
  obtain ⟨n, hn⟩ := h.takes
  obtain ⟨ts, hts⟩ := h.consumes
  exact ha.of_takes hn hts.endOffset_eq

/-! ## Side by side -/

/-- **Two gatherings side by side**: the stream of the second goes on with `us`, up to `stop`; what
is gathered is the same, and so is what is found, but for the ends of spans. -/
structure Follows (us : List Token) (stop : Nat) (g g₁ : Gathering) : Prop where
  /-- The second stream goes on behind the first. -/
  ahead_eq : g₁.ahead = g.ahead ++ us
  /-- The second text ends there. -/
  endOffset_eq : g₁.endOffset = stop
  /-- As many tokens are taken. -/
  cursor_eq : g₁.cursor = g.cursor
  /-- The last token taken ends at the same place. -/
  offset_eq : g₁.offset = g.offset
  /-- The same is gathered. -/
  children_eq : g₁.children = g.children
  /-- The same is found at the same places. -/
  gists_eq : g₁.diagnostics.map Diagnostic.gist = g.diagnostics.map Diagnostic.gist

namespace Follows

variable {us : List Token} {stop : Nat} {g g₁ : Gathering}

/-- **What comes next in the longer stream** is what comes next in the shorter one and, where that
ends, what follows. -/
lemma continued (h : Follows us stop g g₁) (ha : g.Anchored us) :
    g.lookahead.Continued g₁.lookahead := by
  rw [lookahead_eq, lookahead_eq, h.ahead_eq, pending_append]
  match hg : pending g.ahead with
  | [] =>
    cases ha with
    | @word u rest hus hword _ =>
      rw [hus, pending_cons_of_hard hword]
      exact .beyond hword
    | closer hlast _ =>
      rw [hg] at hlast
      cases hlast
  | [t] =>
    cases ha with
    | @word u rest hus hword _ =>
      rw [hus, pending_cons_of_hard hword]
      exact .last hword
    | closer hlast hkind =>
      rw [hg] at hlast
      cases hlast
      cases pending us with
      | nil => exact .same _
      | cons u rest => exact .closed hkind
  | t :: t' :: rest => exact .same _

lemma attach (h : Follows us stop g g₁) (t : Token) :
    Follows us stop (g.attach t) (g₁.attach t) := by
  refine ⟨h.ahead_eq, h.endOffset_eq, h.cursor_eq, rfl, ?_, ?_⟩
  · simp only [Gathering.attach, h.children_eq]
  · simp only [Gathering.attach, List.map_append, h.gists_eq]

lemma attachAll (h : Follows us stop g g₁) (ts : List Token) :
    Follows us stop (g.attachAll ts) (g₁.attachAll ts) := by
  induction ts generalizing g g₁ with
  | nil => exact h
  | cons t ts ih => exact ih (h.attach t)

lemma flush (h : Follows us stop g g₁) (ha : g.Anchored us) :
    Follows us stop g.flush g₁.flush := by
  have htrivia : g₁.ahead.takeWhile (·.isTrivia) = g.ahead.takeWhile (·.isTrivia) := by
    rw [h.ahead_eq, takeWhile_append_of_told ha.told]
  unfold Gathering.flush
  rw [htrivia]
  apply attachAll
  refine ⟨?_, h.endOffset_eq, h.cursor_eq, h.offset_eq, h.children_eq, h.gists_eq⟩
  change significant g₁.ahead = significant g.ahead ++ us
  rw [h.ahead_eq, significant_append ha.told]

lemma fresh (h : Follows us stop g g₁) : Follows us stop g.fresh g₁.fresh :=
  ⟨h.ahead_eq, h.endOffset_eq, h.cursor_eq, h.offset_eq, rfl, h.gists_eq⟩

lemma behind (h : Follows us stop g g₁) (before : List Element) :
    Follows us stop (g.behind before) (g₁.behind before) :=
  ⟨h.ahead_eq, h.endOffset_eq, h.cursor_eq, h.offset_eq,
    congrArg (before ++ ·) h.children_eq, h.gists_eq⟩

lemma enclose (h : Follows us stop g g₁) (kind : NodeKind) :
    Follows us stop (g.enclose kind) (g₁.enclose kind) := by
  refine ⟨h.ahead_eq, h.endOffset_eq, h.cursor_eq, h.offset_eq, ?_, h.gists_eq⟩
  unfold Gathering.enclose
  rw [h.children_eq, h.offset_eq]

/-- Where the shorter stream ends, the next declaration starts, so that what is missing is reported
at the same place. -/
lemma report (h : Follows us stop g g₁) (ha : g.Anchored us) (message : String) :
    Follows us stop (g.report message) (g₁.report message) := by
  refine ⟨h.ahead_eq, h.endOffset_eq, h.cursor_eq, h.offset_eq, h.children_eq, ?_⟩
  have hspan : g₁.currentSpan.start = g.currentSpan.start := by
    unfold Gathering.currentSpan
    rw [h.ahead_eq, significant_append ha.told]
    cases hs : significant g.ahead with
    | cons t rest => rfl
    | nil =>
      cases ha with
      | word hus _ hstart =>
        rw [hus]
        exact hstart
      | closer hlast _ =>
        rw [significant_eq_nil_iff.1 hs] at hlast
        cases hlast
  unfold Gathering.report
  rw [List.map_append, List.map_append, h.gists_eq]
  simp only [List.map_cons, List.map_nil, Diagnostic.gist, Diagnostic.error, hspan]

lemma bump (h : Follows us stop g g₁) (ha : g.Anchored us) {k : TokenKind}
    (hfirst : g.lookahead.first = some k) : Follows us stop g.bump g₁.bump := by
  cases hs : significant g.ahead with
  | nil =>
    rw [Gathering.lookahead, hs] at hfirst
    cases hfirst
  | cons t rest =>
    have hs₁ : significant g₁.ahead = t :: (rest ++ us) := by
      rw [h.ahead_eq, significant_append ha.told, hs, List.cons_append]
    have hattach := (h.flush ha).attach t
    rw [bump_of_cons hs, bump_of_cons hs₁]
    exact ⟨rfl, hattach.endOffset_eq, congrArg (· + 1) h.cursor_eq, hattach.offset_eq,
      hattach.children_eq, hattach.gists_eq⟩

lemma skip (h : Follows us stop g g₁) (ha : g.Anchored us) {k : TokenKind}
    (hfirst : g.lookahead.first = some k) : Follows us stop g.skip g₁.skip := by
  have hfirst₁ : g₁.lookahead.first = some k := by
    have hcontinued := h.continued ha
    cases hg : g.lookahead with
    | mk first second =>
      rw [hg] at hcontinued hfirst
      generalize g₁.lookahead = l at hcontinued
      cases hcontinued <;> first | exact hfirst | cases hfirst
  have hflush := h.flush ha
  rw [skip_of_first hfirst, skip_of_first hfirst₁, hflush.children_eq]
  refine ((hflush.fresh.bump ha.flush_fresh (k := k) ?_).enclose _).behind _
  rw [lookahead_fresh, lookahead_flush, hfirst]

/-- A loop passes over a token in both or in neither. -/
lemma progress (h : Follows us stop g g₁) (ha : g.Anchored us) {cursor : Nat}
    (hfirst : g.cursor = cursor → ∃ k, g.lookahead.first = some k) :
    Follows us stop (g.progress cursor) (g₁.progress cursor) := by
  unfold Gathering.progress
  rw [h.cursor_eq]
  split
  · next hsame =>
    obtain ⟨k, hk⟩ := hfirst hsame
    exact h.skip ha hk
  · exact h

end Follows

/-! ## Derivations side by side -/

section Choices

variable {rules : Nesting → Rule} {room : Nat} {r yes no : Rule} {g g' : Gathering}
  {ok : TokenKind → Prop} {P : Lookahead → Prop} {test : Lookahead → Bool} {l : Lookahead}

/-- What a choice comes to leads where the choice does. -/
lemma derives_resolve_iff :
    Derives rules room (r.resolve g.lookahead) g g' ↔ Derives rules room r g g' := by
  induction r with
  | branch test yes no ih₁ ih₂ =>
    rw [Rule.resolve]
    constructor
    · intro h
      split at h
      · next htest => exact .yes htest (ih₁.1 h)
      · next htest => exact .no (Bool.eq_false_iff.2 htest) (ih₂.1 h)
    · intro h
      cases h with
      | yes htest h =>
        rw [if_pos htest]
        exact ih₁.2 h
      | no htest h =>
        rw [if_neg (by simp [htest])]
        exact ih₂.2 h
  | _ => rfl

/-- The first side of a choice leads where the choice does if it was the one to take before the
stream went on.

**Proof sketch.** The test itself may come out otherwise where the stream goes on; but what the
whole choice comes to is the same. -/
lemma Rule.Spares.derives_yes (hs : (Rule.branch test yes no).Spares ok P) (hP : P l)
    (hl : l.Continued g.lookahead) (htest : test l = true) (h : Derives rules room yes g g') :
    Derives rules room (.branch test yes no) g g' := by
  apply derives_resolve_iff.1
  have hsame := hs.resolve_eq hP hl
  have hyes := hs.2.1.resolve_eq ⟨hP, htest⟩ hl
  rw [Rule.resolve, if_pos htest, hyes] at hsame
  rw [← hsame]
  exact derives_resolve_iff.2 h

/-- The second side of a choice leads where the choice does if it was the one to take before the
stream went on. -/
lemma Rule.Spares.derives_no (hs : (Rule.branch test yes no).Spares ok P) (hP : P l)
    (hl : l.Continued g.lookahead) (htest : test l = false) (h : Derives rules room no g g') :
    Derives rules room (.branch test yes no) g g' := by
  apply derives_resolve_iff.1
  have hsame := hs.resolve_eq hP hl
  have hno := hs.2.2.resolve_eq ⟨hP, htest⟩ hl
  rw [Rule.resolve, if_neg (by simp [htest]), hno] at hsame
  rw [← hsame]
  exact derives_resolve_iff.2 h

end Choices

section Places

variable {rules : Nesting → Rule} {room : Nat} {body : Rule} {us : List Token} {stop : Nat}
  {g g' g₁ k : Gathering}

/-- A node inside which the longer stream is followed. -/
lemma Follows.node (hf : Follows us stop g g₁) (ha : g.Anchored us) (kind : NodeKind)
    (hk : Derives rules room body g₁.flush.fresh k) (hf' : Follows us stop g' k) :
    ∃ k', Derives rules room (.node kind body) g₁ k' ∧
      Follows us stop ((g'.enclose kind).behind g.flush.children) k' := by
  refine ⟨_, .node hk, ?_⟩
  rw [(hf.flush ha).children_eq]
  exact (hf'.enclose kind).behind _

/-- A new place behind which the longer stream is followed. -/
lemma Follows.mark (hf : Follows us stop g g₁) (ha : g.Anchored us)
    (hk : Derives rules room body g₁.flush.fresh k) (hf' : Follows us stop g' k) :
    ∃ k', Derives rules room (.mark body) g₁ k' ∧
      Follows us stop (g'.behind g.flush.children) k' := by
  refine ⟨_, .mark hk, ?_⟩
  rw [(hf.flush ha).children_eq]
  exact hf'.behind _

end Places

/-- What is derived for a stream is derived for the longer one, side by side, if the end of the
stream can be told neither at first nor at last.

**Proof sketch.** Induction on the derivation. In between the end can be told no earlier than at
last, so that every choice and every loop goes the same way; tokens are taken only where one is
left. -/
lemma Derives.follows_of_anchored {room : Nat} {r : Rule} {g g' : Gathering}
    (h : Derives nested room r g g') {ok : TokenKind → Prop} {P : Lookahead → Prop}
    (hs : r.Spares ok P) (hP : P g.lookahead) {us : List Token} {stop : Nat}
    (hfirst : g.Anchored us) (hlast : g'.Anchored us) {g₁ : Gathering}
    (hf : Follows us stop g g₁) :
    ∃ g₁', Derives nested room r g₁ g₁' ∧ Follows us stop g' g₁' := by
  induction h generalizing ok P g₁ with
  | done => exact ⟨_, .done, hf⟩
  | seq h₁ h₂ ih₁ ih₂ =>
    -- If the end could be told between the two, it could be told at last.
    have hmiddle := h₂.anchored hlast
    obtain ⟨k₁, hk₁, hf₁⟩ := ih₁ hs.1 hP hfirst hmiddle hf
    obtain ⟨k₂, hk₂, hf₂⟩ := ih₂ hs.2 (h₁.after hP) hmiddle hlast hf₁
    exact ⟨k₂, .seq hk₁ hk₂, hf₂⟩
  | bump =>
    obtain ⟨kind, hkind, -⟩ := hs _ hP
    exact ⟨_, .bump, hf.bump hfirst hkind⟩
  | skip =>
    obtain ⟨kind, hkind, -⟩ := hs _ hP
    exact ⟨_, .skip, hf.skip hfirst hkind⟩
  | report => exact ⟨_, .report, hf.report hfirst _⟩
  | node _ ih =>
    obtain ⟨k, hk, hf'⟩ :=
      ih hs (by simpa using hP) hfirst.flush_fresh (hlast.congr rfl rfl) (hf.flush hfirst).fresh
    exact hf.node hfirst _ hk hf'
  | mark _ ih =>
    obtain ⟨k, hk, hf'⟩ :=
      ih hs (by simpa using hP) hfirst.flush_fresh (hlast.congr rfl rfl) (hf.flush hfirst).fresh
    exact hf.mark hfirst hk hf'
  | wrap _ ih =>
    obtain ⟨k, hk, hf'⟩ := ih hs hP hfirst (hlast.congr rfl rfl) hf
    exact ⟨_, .wrap hk, hf'.enclose _⟩
  | yes htest _ ih =>
    obtain ⟨k, hk, hf'⟩ := ih hs.2.1 ⟨hP, htest⟩ hfirst hlast hf
    exact ⟨k, hs.derives_yes hP (hf.continued hfirst) htest hk, hf'⟩
  | no htest _ ih =>
    obtain ⟨k, hk, hf'⟩ := ih hs.2.2 ⟨hP, htest⟩ hfirst hlast hf
    exact ⟨k, hs.derives_no hP (hf.continued hfirst) htest hk, hf'⟩
  | stop hstop =>
    have hsame := hs.1 _ _ (hf.continued hfirst)
    exact ⟨_, .stop (hsame ▸ hstop), hf⟩
  | @step room stop body g g₂ g₃ hstop h₁ h₂ ih₁ ih₂ =>
    have hsame := hs.1 _ _ (hf.continued hfirst)
    have hnext := h₂.anchored hlast
    obtain ⟨k₁, hk₁, hf₁⟩ := ih₁ hs.2.2 hstop hfirst hnext.of_progress hf
    -- If a token is passed over, it is the one that the test of the loop saw.
    have htake (hcursor : g₂.cursor = g.cursor) : ∃ kind, g₂.lookahead.first = some kind := by
      obtain ⟨kind, hkind, -⟩ := hs.2.1 _ hstop
      exact ⟨kind, h₁.lookahead_eq_of_cursor_eq hcursor ▸ hkind⟩
    have hprogress := hf₁.progress hnext.of_progress htake
    obtain ⟨k₂, hk₂, hf₂⟩ := ih₂ (P := fun _ => True) hs trivial hnext hlast hprogress
    rw [← hf.cursor_eq] at hk₂
    exact ⟨k₂, .step (hsame ▸ hstop) hk₁ hk₂, hf₂⟩
  | nest _ ih =>
    obtain ⟨k, hk, hf'⟩ := ih (spares_nested _) (hs.1 _ hP) hfirst hlast hf
    exact ⟨k, .nest hk, hf'⟩
  | full _ ih =>
    obtain ⟨k, hk, hf'⟩ :=
      ih hs.2 (by simpa using hP) (hfirst.congr rfl rfl) hlast (hf.report hfirst _)
    exact ⟨k, .full hk, hf'⟩

/-- **What is derived for a stream is derived for the longer one**, side by side, if the rule is
sparing and the end of the stream cannot be told even at last. -/
theorem Derives.follows {room : Nat} {r : Rule} {g g' : Gathering} (h : Derives nested room r g g')
    {ok : TokenKind → Prop} {P : Lookahead → Prop} (hs : r.Spares ok P) (hP : P g.lookahead)
    {us : List Token} {stop : Nat} (ha : g'.Anchored us) {g₁ : Gathering}
    (hf : Follows us stop g g₁) :
    ∃ g₁', Derives nested room r g₁ g₁' ∧ Follows us stop g' g₁' :=
  h.follows_of_anchored hs hP (h.anchored ha) ha hf

end TxTree.Grammar
