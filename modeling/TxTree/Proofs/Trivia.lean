import TxTree.Proofs.Cut
import TxTree.Proofs.File
import TxTree.Proofs.Findings
import TxTree.Proofs.Shapes
import TxTree.Proofs.Tiling

set_option relaxedAutoImplicit false
set_option autoImplicit false

/-!
# White space and comments do not matter

Two texts with the same tokens, white space and comments apart, have trees of the same shape, and
the same is found in both at the same tokens. The two parses run side by side: whatever is gathered
between two tokens, the same comes next in both, so that every rule goes the same way.

## Main definitions

* `TxTree.SamePlace` — two spans at the same token of two streams, or at the ends of both.
* `TxTree.Diagnostic.Matches` — the same finding in two streams.
* `TxTree.Grammar.Alike` — two gatherings that differ in white space, comments and places only.

## Main results

* `TxTree.Grammar.Derives.alike` — what is derived of a gathering is derived of one that is alike.
* `TxTree.parse_congr_lexemes` — white space and comments matter neither for the tree nor for the
  diagnostics.
-/

namespace TxTree

open Grammar

/-! ## The same finding in two streams -/

/-- **Two spans at the same place** of two streams: those of the significant tokens with one index,
or the empty spans at the ends of both. -/
inductive SamePlace (ts us : List Token) : Span → Span → Prop where
  | token {i : Nat} {t u : Token} : (pending ts)[i]? = some t → (pending us)[i]? = some u →
    SamePlace ts us t.span u.span
  | atEnd : SamePlace ts us (Span.emptyAt (endOf ts)) (Span.emptyAt (endOf us))

/-- **The same finding in two streams**: as grave, with the same message, at the same place. -/
structure Diagnostic.Matches (ts us : List Token) (d e : Diagnostic) : Prop where
  /-- They are as grave. -/
  severity_eq : d.severity = e.severity
  /-- They say the same. -/
  message_eq : d.message = e.message
  /-- They are at the same place. -/
  samePlace : SamePlace ts us d.span e.span

/-- Whether a finding is about something else than a comment without its closing mark. -/
def Diagnostic.isLasting (d : Diagnostic) : Bool := d.message != "Unterminated block comment"

namespace Grammar

/-- What is amiss with white space and comments is that a closing mark is missing. -/
lemma isLasting_of_isTrivia {t : Token} (ht : t.isTrivia = true) :
    ∀ d ∈ complaints t, d.isLasting = false := by
  intro d hd
  unfold complaints at hd
  split at hd
  · rw [List.mem_singleton.1 hd]
    obtain ⟨kind, text, span⟩ := t
    cases kind <;> first | rfl | cases ht
  · cases hd

/-- What is amiss with a token depends on its kind and text only. -/
lemma complaints_congr {t u : Token} (h : t.lexeme = u.lexeme) :
    complaints u = (complaints t).map fun d => { d with span := u.span } := by
  obtain ⟨kind, text, span⟩ := t
  obtain ⟨kind', text', span'⟩ := u
  obtain ⟨rfl, rfl⟩ : kind = kind' ∧ text = text' := Lexeme.mk.inj h
  have hsame : (Token.mk kind text span).isUnterminated =
      (Token.mk kind text span').isUnterminated := rfl
  unfold complaints
  rw [hsame]
  split <;> rfl

/-- What is amiss with a token is found where the token is. -/
lemma span_eq_of_mem_complaints {t : Token} {d : Diagnostic} (hd : d ∈ complaints t) :
    d.span = t.span := by
  unfold complaints at hd
  split at hd
  · rw [List.mem_singleton.1 hd]
    rfl
  · cases hd

/-! ## Side by side -/

/-- The findings of two streams that are not about comments match one by one. -/
def MatchLasting (ts us : List Token) (ds es : List Diagnostic) : Prop :=
  List.Forall₂ (Diagnostic.Matches ts us) (ds.filter (·.isLasting)) (es.filter (·.isLasting))

/-- **Two gatherings that differ in white space, comments and places only**: as many tokens of the
two streams are taken, what is gathered has the same shape, and the same is found. -/
structure Alike (ts us : List Token) (g h : Gathering) : Prop where
  /-- As many tokens are taken. -/
  cursor_eq : h.cursor = g.cursor
  /-- The others are still to come in the first stream, … -/
  pending_left : pending g.ahead = (pending ts).drop g.cursor
  /-- … and in the second. -/
  pending_right : pending h.ahead = (pending us).drop g.cursor
  /-- The first text ends where its stream does, … -/
  endOffset_left : g.endOffset = endOf ts
  /-- … and so does the second. -/
  endOffset_right : h.endOffset = endOf us
  /-- What is gathered has the same shape. -/
  shapes_eq : h.shapes = g.shapes
  /-- The same is found. -/
  matchLasting : MatchLasting ts us g.diagnostics h.diagnostics

namespace MatchLasting

variable {ts us : List Token} {ds es : List Diagnostic}

/-- Findings about comments make no difference. -/
lemma append_left {cs : List Diagnostic} (h : MatchLasting ts us ds es)
    (hcs : ∀ d ∈ cs, d.isLasting = false) : MatchLasting ts us (ds ++ cs) es := by
  have hnil : cs.filter (·.isLasting) = [] := List.filter_eq_nil_iff.2 (by simpa using hcs)
  rw [MatchLasting, List.filter_append, hnil, List.append_nil]
  exact h

lemma append_right {cs : List Diagnostic} (h : MatchLasting ts us ds es)
    (hcs : ∀ d ∈ cs, d.isLasting = false) : MatchLasting ts us ds (es ++ cs) := by
  have hnil : cs.filter (·.isLasting) = [] := List.filter_eq_nil_iff.2 (by simpa using hcs)
  rw [MatchLasting, List.filter_append, hnil, List.append_nil]
  exact h

/-- Further findings match if they do one by one. -/
lemma append {ds' es' : List Diagnostic} (h : MatchLasting ts us ds es)
    (h' : List.Forall₂ (Diagnostic.Matches ts us) ds' es') :
    MatchLasting ts us (ds ++ ds') (es ++ es') := by
  have hfilter : MatchLasting ts us ds' es' := by
    refine List.rel_filter (fun d e hde => ?_) h'
    simp only [Diagnostic.isLasting, hde.message_eq]
  rw [MatchLasting, List.filter_append, List.filter_append]
  exact List.rel_append h hfilter

end MatchLasting

namespace Alike

variable {ts us : List Token} {g h g' h' : Gathering}

/-! ### What comes next -/

/-- The same lexemes are to come. -/
lemma lexemes_eq (ha : Alike ts us g h) (hsame : lexemes ts = lexemes us) :
    h.lexemes = g.lexemes := by
  rw [Gathering.lexemes, Gathering.lexemes, lexemes, lexemes, ha.pending_left, ha.pending_right,
    List.map_drop, List.map_drop]
  exact congrArg (List.drop g.cursor) hsame.symm

/-- The same comes next. -/
lemma lookahead_eq (ha : Alike ts us g h) (hsame : lexemes ts = lexemes us) :
    h.lookahead = g.lookahead := by
  rw [Gathering.lookahead_eq_lookaheadOf, Gathering.lookahead_eq_lookaheadOf, ha.lexemes_eq hsame]

/-- The next significant tokens of the two streams are those with the index of the cursor, and the
same lexeme. -/
lemma significant_eq (ha : Alike ts us g h) (hsame : lexemes ts = lexemes us) {t : Token}
    {rest : List Token} (hs : significant g.ahead = t :: rest) :
    ∃ u rest', significant h.ahead = u :: rest' ∧ t.lexeme = u.lexeme ∧
      (pending ts)[g.cursor]? = some t ∧ (pending us)[g.cursor]? = some u := by
  have hlexemes : lexemes h.ahead = t.lexeme :: lexemes rest :=
    (ha.lexemes_eq hsame).trans (lexemes_of_significant hs)
  obtain ⟨u, rest', hs', hlexeme, -⟩ := exists_significant_of_lexemes hlexemes
  refine ⟨u, rest', hs', hlexeme.symm, ?_, ?_⟩
  · rw [← List.head?_drop, ← ha.pending_left, pending_of_significant hs]
    rfl
  · rw [← List.head?_drop, ← ha.pending_right, pending_of_significant hs']
    rfl

/-- Where the first stream is at its end, so is the second. -/
lemma significant_eq_nil (ha : Alike ts us g h) (hsame : lexemes ts = lexemes us)
    (hs : significant g.ahead = []) : significant h.ahead = [] := by
  have hnil : lexemes h.ahead = [] := by
    refine (ha.lexemes_eq hsame).trans ?_
    rw [Gathering.lexemes, lexemes, significant_eq_nil_iff.1 hs, List.map_nil]
  exact significant_eq_nil_iff.2 (List.map_eq_nil_iff.1 hnil)

/-- The next tokens are at the same place, or both streams are at their ends. -/
lemma samePlace (ha : Alike ts us g h) (hsame : lexemes ts = lexemes us) :
    SamePlace ts us g.currentSpan h.currentSpan := by
  cases hs : significant g.ahead with
  | nil =>
    rw [Gathering.currentSpan, Gathering.currentSpan, hs, ha.significant_eq_nil hsame hs,
      ha.endOffset_left, ha.endOffset_right]
    exact .atEnd
  | cons t rest =>
    obtain ⟨u, rest', hs', -, ht, hu⟩ := ha.significant_eq hsame hs
    rw [Gathering.currentSpan, Gathering.currentSpan, hs, hs']
    exact .token ht hu

/-! ### Moves -/

lemma flush (ha : Alike ts us g h) : Alike ts us g.flush h.flush := by
  have hcomments (k : Gathering) :
      ∀ d ∈ (k.ahead.takeWhile (·.isTrivia)).flatMap complaints, d.isLasting = false := by
    intro d hd
    obtain ⟨t, ht, hd⟩ := List.mem_flatMap.1 hd
    exact isLasting_of_isTrivia (List.mem_takeWhile_imp ht) d hd
  refine ⟨?_, ?_, ?_, ?_, ?_, ?_, ?_⟩
  · rw [Gathering.flush_cursor, Gathering.flush_cursor, ha.cursor_eq]
  · rw [Gathering.flush_ahead, pending_significant, Gathering.flush_cursor, ha.pending_left]
  · rw [Gathering.flush_ahead, pending_significant, Gathering.flush_cursor, ha.pending_right]
  · rw [Gathering.flush_endOffset, ha.endOffset_left]
  · rw [Gathering.flush_endOffset, ha.endOffset_right]
  · rw [Gathering.shapes_flush, Gathering.shapes_flush, ha.shapes_eq]
  · rw [Gathering.flush_diagnostics, Gathering.flush_diagnostics]
    exact (ha.matchLasting.append_left (hcomments g)).append_right (hcomments h)

lemma fresh (ha : Alike ts us g h) : Alike ts us g.fresh h.fresh :=
  ⟨ha.cursor_eq, ha.pending_left, ha.pending_right, ha.endOffset_left, ha.endOffset_right,
    by rw [Gathering.shapes_fresh, Gathering.shapes_fresh], ha.matchLasting⟩

lemma enclose (ha : Alike ts us g h) (kind : NodeKind) :
    Alike ts us (g.enclose kind) (h.enclose kind) :=
  ⟨ha.cursor_eq, ha.pending_left, ha.pending_right, ha.endOffset_left, ha.endOffset_right,
    by rw [Gathering.shapes_enclose, Gathering.shapes_enclose, ha.shapes_eq], ha.matchLasting⟩

/-- What is gathered alike since two places is alike behind what was before them. -/
lemma behind (ha : Alike ts us g h) (ha' : Alike ts us g' h') :
    Alike ts us (g'.behind g.flush.children) (h'.behind h.flush.children) :=
  ⟨ha'.cursor_eq, ha'.pending_left, ha'.pending_right, ha'.endOffset_left, ha'.endOffset_right,
    by rw [Gathering.shapes_behind, Gathering.shapes_behind, ha.shapes_eq, ha'.shapes_eq],
    ha'.matchLasting⟩

lemma report (ha : Alike ts us g h) (hsame : lexemes ts = lexemes us) (message : String) :
    Alike ts us (g.report message) (h.report message) :=
  ⟨ha.cursor_eq, ha.pending_left, ha.pending_right, ha.endOffset_left, ha.endOffset_right,
    ha.shapes_eq, ha.matchLasting.append (.cons ⟨rfl, rfl, ha.samePlace hsame⟩ .nil)⟩

/-- What is amiss with two tokens of the same lexeme at the same place is the same. -/
lemma matches_complaints {t u : Token} (hlexeme : t.lexeme = u.lexeme)
    (hplace : SamePlace ts us t.span u.span) :
    List.Forall₂ (Diagnostic.Matches ts us) (complaints t) (complaints u) := by
  rw [complaints_congr hlexeme, List.forall₂_map_right_iff, List.forall₂_same]
  intro d hd
  refine ⟨rfl, rfl, ?_⟩
  rw [span_eq_of_mem_complaints hd]
  exact hplace

lemma bump (ha : Alike ts us g h) (hsame : lexemes ts = lexemes us) :
    Alike ts us g.bump h.bump := by
  cases hs : significant g.ahead with
  | nil =>
    rw [Gathering.bump_of_nil hs, Gathering.bump_of_nil (ha.significant_eq_nil hsame hs)]
    exact ha
  | cons t rest =>
    obtain ⟨u, rest', hs', hlexeme, ht, hu⟩ := ha.significant_eq hsame hs
    have hleft : g.lexemes = t.lexeme :: lexemes rest := lexemes_of_significant hs
    have hright : h.lexemes = t.lexeme :: lexemes rest := (ha.lexemes_eq hsame).trans hleft
    have hcursor : g.bump.cursor = g.cursor + 1 := by rw [Gathering.bump_of_cons hs]
    refine ⟨?_, ?_, ?_, ?_, ?_, ?_, ?_⟩
    · rw [hcursor, Gathering.bump_of_cons hs', ha.cursor_eq]
    · rw [Gathering.pending_bump, hcursor, ha.pending_left, List.tail_drop]
    · rw [Gathering.pending_bump, hcursor, ha.pending_right, List.tail_drop]
    · rw [Gathering.bump_of_cons hs]
      exact ha.flush.endOffset_left
    · rw [Gathering.bump_of_cons hs']
      exact ha.flush.endOffset_right
    · rw [Gathering.shapes_bump hleft, Gathering.shapes_bump hright, ha.shapes_eq]
    · rw [Gathering.bump_of_cons hs, Gathering.bump_of_cons hs']
      exact ha.flush.matchLasting.append (matches_complaints hlexeme (.token ht hu))

lemma skip (ha : Alike ts us g h) (hsame : lexemes ts = lexemes us) :
    Alike ts us g.skip h.skip := by
  have hlook := ha.lookahead_eq hsame
  cases hfirst : g.lookahead.first with
  | none =>
    rw [Gathering.skip_of_none hfirst, Gathering.skip_of_none (by rw [hlook, hfirst])]
    exact ha
  | some k =>
    rw [Gathering.skip_of_first hfirst, Gathering.skip_of_first (by rw [hlook, hfirst])]
    exact ha.behind ((ha.flush.fresh.bump hsame).enclose _)

lemma progress (ha : Alike ts us g h) (hsame : lexemes ts = lexemes us) (cursor : Nat) :
    Alike ts us (g.progress cursor) (h.progress cursor) := by
  rw [Gathering.progress, Gathering.progress, ha.cursor_eq]
  split
  · exact ha.skip hsame
  · exact ha

/-- What is left of the two streams in the end, white space and comments, makes no difference. -/
lemma finish (ha : Alike ts us g h) (hleft : pending g.ahead = [])
    (hright : pending h.ahead = []) : Alike ts us g.finish h.finish := by
  have hahead (k : Gathering) : k.finish.ahead = [] := Gathering.attachAll_ahead ..
  have hcursor (k : Gathering) : k.finish.cursor = k.cursor := Gathering.attachAll_cursor ..
  have hend (k : Gathering) : k.finish.endOffset = k.endOffset := Gathering.attachAll_endOffset ..
  have hdiagnostics (k : Gathering) :
      k.finish.diagnostics = k.diagnostics ++ k.ahead.flatMap complaints :=
    Gathering.attachAll_diagnostics ..
  have hcomments (k : Gathering) (hk : pending k.ahead = []) :
      ∀ d ∈ k.ahead.flatMap complaints, d.isLasting = false := by
    intro d hd
    obtain ⟨t, ht, hd⟩ := List.mem_flatMap.1 hd
    exact isLasting_of_isTrivia (pending_eq_nil_iff.1 hk t ht) d hd
  refine ⟨?_, ?_, ?_, ?_, ?_, ?_, ?_⟩
  · rw [hcursor, hcursor, ha.cursor_eq]
  · rw [hahead, hcursor, ← ha.pending_left, hleft]
    rfl
  · rw [hahead, hcursor, ← ha.pending_right, hright]
    rfl
  · rw [hend, ha.endOffset_left]
  · rw [hend, ha.endOffset_right]
  · rw [Gathering.shapes_finish hleft, Gathering.shapes_finish hright, ha.shapes_eq]
  · rw [hdiagnostics, hdiagnostics]
    exact (ha.matchLasting.append_left (hcomments g hleft)).append_right (hcomments h hright)

/-- Before the first token nothing is gathered in either stream. -/
lemma ofTokens (ts us : List Token) :
    Alike ts us (Gathering.ofTokens ts) (Gathering.ofTokens us) :=
  ⟨rfl, rfl, rfl, rfl, rfl, rfl, .nil⟩

end Alike

/-! ## Derivations side by side -/

/-- **What is derived of a gathering is derived of one that is alike**, and leads to one that is
alike.

**Proof sketch.** Induction on the derivation. The same comes next in both streams, so that every
choice is made alike and every loop stops alike; and the moves are made alike. -/
theorem Derives.alike {rules : Nesting → Rule} {room : Nat} {r : Rule} {g g' : Gathering}
    (hr : Derives rules room r g g') {ts us : List Token} (hsame : lexemes ts = lexemes us)
    {h : Gathering} (ha : Alike ts us g h) :
    ∃ h', Derives rules room r h h' ∧ Alike ts us g' h' := by
  induction hr generalizing h with
  | done => exact ⟨h, .done, ha⟩
  | seq _ _ ih₁ ih₂ =>
    obtain ⟨h₁, hfirst, ha₁⟩ := ih₁ ha
    obtain ⟨h₂, hsecond, ha₂⟩ := ih₂ ha₁
    exact ⟨h₂, .seq hfirst hsecond, ha₂⟩
  | bump => exact ⟨h.bump, .bump, ha.bump hsame⟩
  | skip => exact ⟨h.skip, .skip, ha.skip hsame⟩
  | report => exact ⟨h.report _, .report, ha.report hsame _⟩
  | node _ ih =>
    obtain ⟨h₁, hbody, ha₁⟩ := ih ha.flush.fresh
    exact ⟨_, .node hbody, ha.behind (ha₁.enclose _)⟩
  | mark _ ih =>
    obtain ⟨h₁, hbody, ha₁⟩ := ih ha.flush.fresh
    exact ⟨_, .mark hbody, ha.behind ha₁⟩
  | wrap _ ih =>
    obtain ⟨h₁, hbody, ha₁⟩ := ih ha
    exact ⟨_, .wrap hbody, ha₁.enclose _⟩
  | yes htest _ ih =>
    obtain ⟨h₁, hyes, ha₁⟩ := ih ha
    exact ⟨h₁, .yes ((congrArg _ (ha.lookahead_eq hsame)).trans htest) hyes, ha₁⟩
  | no htest _ ih =>
    obtain ⟨h₁, hno, ha₁⟩ := ih ha
    exact ⟨h₁, .no ((congrArg _ (ha.lookahead_eq hsame)).trans htest) hno, ha₁⟩
  | stop hstop => exact ⟨h, .stop ((congrArg _ (ha.lookahead_eq hsame)).trans hstop), ha⟩
  | step hstop _ _ ih₁ ih₂ =>
    obtain ⟨h₁, hbody, ha₁⟩ := ih₁ ha
    have hnext := ha₁.progress hsame h.cursor
    rw [ha.cursor_eq] at hnext
    obtain ⟨h₂, hloop, ha₂⟩ := ih₂ hnext
    rw [← ha.cursor_eq] at hloop
    exact ⟨h₂, .step ((congrArg _ (ha.lookahead_eq hsame)).trans hstop) hbody hloop, ha₂⟩
  | nest _ ih =>
    obtain ⟨h₁, hlevel, ha₁⟩ := ih ha
    exact ⟨h₁, .nest hlevel, ha₁⟩
  | full _ ih =>
    obtain ⟨h₁, hother, ha₁⟩ := ih (ha.report hsame _)
    exact ⟨h₁, .full hother, ha₁⟩

/-! ## Texts -/

/-- Where two tokens of a text are in order, the tokens at the same places of another one are. -/
lemma start_le_iff_of_pairwise {ts : List Token} {i j : Nat} {t t' : Token}
    (h : ts.Pairwise fun t u => t.span.start < u.span.start) (ht : ts[i]? = some t)
    (ht' : ts[j]? = some t') : t.span.start ≤ t'.span.start ↔ i ≤ j := by
  obtain ⟨hi, rfl⟩ := List.getElem?_eq_some_iff.1 ht
  obtain ⟨hj, rfl⟩ := List.getElem?_eq_some_iff.1 ht'
  rw [List.pairwise_iff_getElem] at h
  rcases Nat.lt_trichotomy i j with hij | rfl | hij
  · exact iff_of_true (h i j hi hj hij).le hij.le
  · exact iff_of_true le_rfl le_rfl
  · exact iff_of_false (h j i hj hi hij).not_ge hij.not_ge

/-- The pending tokens of a text start one behind the other, … -/
lemma pairwise_pending_tokenize (text : String) :
    (pending (tokenize text)).Pairwise fun t u => t.span.start < u.span.start :=
  (tiles_tokenize text).pairwise_start_lt.filter _

/-- … and before its end. -/
lemma start_lt_endOf {text : String} {t : Token} {i : Nat}
    (ht : (pending (tokenize text))[i]? = some t) : t.span.start < endOf (tokenize text) := by
  rw [endOf_tokenize]
  exact ((tiles_tokenize text).le_start_of_mem t
    (List.mem_of_mem_filter (List.mem_of_getElem? ht))).2

end Grammar

/-- Findings at the same places of two texts are in the same order. -/
lemma Diagnostic.Matches.start_le_iff {a b : String} {d e d' e' : Diagnostic}
    (h : Diagnostic.Matches (tokenize a) (tokenize b) d e)
    (h' : Diagnostic.Matches (tokenize a) (tokenize b) d' e') :
    d.span.start ≤ d'.span.start ↔ e.span.start ≤ e'.span.start := by
  obtain ⟨-, -, hplace⟩ := h
  obtain ⟨-, -, hplace'⟩ := h'
  generalize d.span = s at hplace ⊢
  generalize e.span = u at hplace ⊢
  generalize d'.span = s' at hplace' ⊢
  generalize e'.span = u' at hplace' ⊢
  cases hplace with
  | token ht hu =>
    cases hplace' with
    | token ht' hu' =>
      rw [start_le_iff_of_pairwise (pairwise_pending_tokenize a) ht ht',
        start_le_iff_of_pairwise (pairwise_pending_tokenize b) hu hu']
    | atEnd => exact iff_of_true (start_lt_endOf ht).le (start_lt_endOf hu).le
  | atEnd =>
    cases hplace' with
    | token ht' hu' => exact iff_of_false (start_lt_endOf ht').not_ge (start_lt_endOf hu').not_ge
    | atEnd => exact iff_of_true le_rfl le_rfl

/-- **White space and comments do not matter**: two texts with the same tokens, white space and
comments apart, have trees of the same shape, and the same is found in both, in the same order, each
finding at the same token or at the ends of both texts; only what is found of comments without
their closing marks is left out. -/
theorem parse_congr_lexemes (a b : String)
    (hsame : lexemes (tokenize a) = lexemes (tokenize b)) :
    (parse a).root.shape = (parse b).root.shape ∧
      List.Forall₂ (Diagnostic.Matches (tokenize a) (tokenize b))
        ((parse a).diagnostics.filter (·.isLasting))
        ((parse b).diagnostics.filter (·.isLasting)) := by
  obtain ⟨g, hg, -, hleft⟩ := exists_derives_file (tokenize a)
  obtain ⟨h, hh, ha⟩ := hg.alike hsame (Alike.ofTokens (tokenize a) (tokenize b))
  have hright : pending h.ahead = [] := by
    rw [ha.pending_right]
    have hlength : (pending (tokenize b)).length = (pending (tokenize a)).length := by
      simpa [lexemes] using (congrArg List.length hsame).symm
    have hdrop := ha.pending_left
    rw [hleft, eq_comm, List.drop_eq_nil_iff] at hdrop
    exact List.drop_eq_nil_iff.2 (hlength.trans_le hdrop)
  have hfinish := ha.finish hleft hright
  refine ⟨?_, ?_⟩
  · change (parseTokens (tokenize a)).1.shape = (parseTokens (tokenize b)).1.shape
    rw [parseTokens_eq hg, parseTokens_eq hh]
    exact congrArg (Shape.node .file) hfinish.shapes_eq.symm
  · change List.Forall₂ _ ((parseTokens (tokenize a)).2.filter _)
      ((parseTokens (tokenize b)).2.filter _)
    rw [parseTokens_eq hg, parseTokens_eq hh, Diagnostic.filter_sort, Diagnostic.filter_sort]
    exact forall₂_mergeSort (fun _ _ _ _ h h' => decide_eq_decide.2 (h.start_le_iff h'))
      hfinish.matchLasting

/-- A party without its semicolon, once more with comments: the second comment is never closed, and
the semicolon is missing at the ends of both texts. -/
theorem parse_congr_lexemes_comments :
    lexemes (tokenize "party A") = lexemes (tokenize "// who\nparty /* it is */ A /* open") ∧
      (parse "party A").root.shape =
          (parse "// who\nparty /* it is */ A /* open").root.shape ∧
      List.Forall₂
        (Diagnostic.Matches (tokenize "party A")
          (tokenize "// who\nparty /* it is */ A /* open"))
        ((parse "party A").diagnostics.filter (·.isLasting))
        ((parse "// who\nparty /* it is */ A /* open").diagnostics.filter (·.isLasting)) :=
  ⟨by decide +kernel, parse_congr_lexemes _ _ (by decide +kernel)⟩

end TxTree
