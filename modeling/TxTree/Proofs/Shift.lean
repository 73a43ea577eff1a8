import TxTree.Proofs.Declarations

set_option relaxedAutoImplicit false
set_option autoImplicit false

/-!
# The same text further on

A stream of tokens that stands further on in a text, behind what has been parsed already, is parsed
as it would be by itself: everything in the tree and among the findings is further on by as much,
and stands behind what was there.

## Main definitions

* `TxTree.Span.shift`, `TxTree.Token.shift`, `TxTree.Element.shift`, `TxTree.Diagnostic.shift` —
  what stands further on.
* `TxTree.Grammar.Lead` — what is before a stream.
* `TxTree.Grammar.Gathering.later` — a gathering with all that was before it.
* `TxTree.Grammar.Gathering.advance` — some white space and comments gathered ahead of time.

## Main results

* `TxTree.Grammar.Derives.later` — what is derived of a gathering is derived of it later, too.
* `TxTree.Grammar.Derives.file_of_advance` — a file may gather white space and comments ahead of
  time.
-/

namespace TxTree

/-! ## What stands further on -/

/-- A span further on by `d` bytes. -/
def Span.shift (d : Nat) (s : Span) : Span := ⟨s.start + d, s.stop + d⟩

/-- A token further on. -/
def Token.shift (d : Nat) (t : Token) : Token := { t with span := t.span.shift d }

/-- A diagnostic further on. -/
def Diagnostic.shift (d : Nat) (e : Diagnostic) : Diagnostic := { e with span := e.span.shift d }

mutual

/-- A node further on, with all that is below it. -/
def Node.shift (d : Nat) : Node → Node
  | ⟨k, s, cs⟩ => ⟨k, s.shift d, Element.shiftList d cs⟩

/-- A list of children further on. -/
def Element.shiftList (d : Nat) : List Element → List Element
  | [] => []
  | .token t :: cs => .token (t.shift d) :: Element.shiftList d cs
  | .node n :: cs => .node (n.shift d) :: Element.shiftList d cs

end

/-- A child further on, with all that is below it. -/
def Element.shift (d : Nat) : Element → Element
  | .token t => .token (t.shift d)
  | .node n => .node (n.shift d)

variable (d : Nat)

lemma Element.shiftList_eq_map (cs : List Element) : shiftList d cs = cs.map (shift d) := by
  induction cs with
  | nil => rfl
  | cons c cs ih => cases c <;> simp only [shiftList, List.map_cons, shift, ih]

@[simp] lemma Token.span_shift (t : Token) : (t.shift d).span = t.span.shift d := rfl

@[simp] lemma Element.span_shift (c : Element) : (c.shift d).span = c.span.shift d := by
  cases c with
  | token t => rfl
  | node n =>
    obtain ⟨k, s, cs⟩ := n
    simp only [shift, Node.shift, span]

/-- The span of children further on. -/
lemma Node.spanOf_shift (cs : List Element) (offset : Nat) :
    spanOf (cs.map (Element.shift d)) (offset + d) = (spanOf cs offset).shift d := by
  unfold spanOf
  rw [List.head?_map, List.getLast?_map]
  cases cs.head? with
  | none => rfl
  | some first =>
    cases cs.getLast? with
    | none => rfl
    | some last => simp [Span.shift]

/-- The node of children further on. -/
lemma Node.ofChildren_shift (kind : NodeKind) (cs : List Element) (offset : Nat) :
    ofChildren kind (cs.map (Element.shift d)) (offset + d) =
      (ofChildren kind cs offset).shift d := by
  unfold ofChildren
  rw [Node.shift, Element.shiftList_eq_map, spanOf_shift]

namespace Grammar

open Gathering

lemma complaints_shift (t : Token) :
    complaints (t.shift d) = (complaints t).map (Diagnostic.shift d) := by
  unfold complaints
  by_cases h : t.isUnterminated
  · rw [if_pos h, if_pos (show (t.shift d).isUnterminated from h)]
    rfl
  · rw [if_neg h, if_neg (show ¬(t.shift d).isUnterminated from h)]
    rfl

lemma significant_shift (ts : List Token) :
    significant (ts.map (Token.shift d)) = (significant ts).map (Token.shift d) :=
  List.dropWhile_map ..

lemma takeWhile_shift (ts : List Token) :
    (ts.map (Token.shift d)).takeWhile (·.isTrivia) =
      (ts.takeWhile (·.isTrivia)).map (Token.shift d) :=
  List.takeWhile_map ..

/-! ## Gatherings later on -/

/-- What is before a stream: a number of bytes, of which some tokens were taken, with what was found
and gathered there. -/
structure Lead where
  /-- The number of bytes. -/
  length : Nat
  /-- The number of tokens taken, white space and comments apart. -/
  cursor : Nat
  /-- The findings. -/
  diagnostics : List Diagnostic
  /-- The children gathered since the place. -/
  children : List Element

/-- Inside a node nothing is gathered yet. -/
def Lead.inside (p : Lead) : Lead := { p with children := [] }

namespace Gathering

/-- **A gathering later on**, behind all that was before it. -/
def later (p : Lead) (g : Gathering) : Gathering where
  ahead := g.ahead.map (Token.shift p.length)
  endOffset := g.endOffset + p.length
  cursor := p.cursor + g.cursor
  offset := g.offset + p.length
  diagnostics := p.diagnostics ++ g.diagnostics.map (Diagnostic.shift p.length)
  children := p.children ++ g.children.map (Element.shift p.length)

variable (p : Lead) (g : Gathering)

/-- The same comes next. -/
@[simp] lemma lookahead_later : (g.later p).lookahead = g.lookahead := by
  unfold lookahead later
  rw [significant_shift]
  cases significant g.ahead with
  | nil => rfl
  | cons t rest =>
    simp only [List.map_cons, significant_shift, List.head?_map, Option.map_map]
    rfl

lemma currentSpan_later : (g.later p).currentSpan = g.currentSpan.shift p.length := by
  unfold currentSpan later
  rw [significant_shift]
  cases significant g.ahead with
  | nil => rfl
  | cons t rest => rfl

lemma attach_later (t : Token) :
    (g.later p).attach (t.shift p.length) = (g.attach t).later p := by
  unfold attach later
  rw [complaints_shift]
  simp [Element.shift, Span.shift]

lemma attachAll_later (ts : List Token) :
    (g.later p).attachAll (ts.map (Token.shift p.length)) = (g.attachAll ts).later p := by
  induction ts generalizing g with
  | nil => rfl
  | cons t ts ih => rw [List.map_cons, attachAll_cons, attach_later, ih, attachAll_cons]

lemma flush_later : (g.later p).flush = g.flush.later p := by
  unfold flush
  rw [← attachAll_later, ← takeWhile_shift]
  unfold later
  rw [significant_shift]

lemma fresh_later : (g.later p).fresh = g.fresh.later p.inside := by
  simp [fresh, later, Lead.inside]

lemma report_later (message : String) :
    (g.later p).report message = (g.report message).later p := by
  unfold report
  rw [currentSpan_later]
  simp [later, Diagnostic.shift, Diagnostic.error]

/-- What is gathered inside stands behind what was before. -/
lemma behind_later (g₁ : Gathering) :
    (g₁.later p.inside).behind (g.later p).children = (g₁.behind g.children).later p := by
  simp [behind, later, Lead.inside]

/-- All that is gathered becomes one node, if all that is there is meant. -/
lemma enclose_later (hp : p.children = []) (kind : NodeKind) :
    (g.later p).enclose kind = (g.enclose kind).later p := by
  have hnode := Node.ofChildren_shift p.length kind g.children g.offset
  simp only [enclose, later, hp, List.nil_append, List.map_cons, List.map_nil, Element.shift, hnode]

lemma bump_later : (g.later p).bump = g.bump.later p := by
  cases hs : significant g.ahead with
  | nil =>
    have hs' : significant (g.later p).ahead = [] := by
      change significant (g.ahead.map _) = []
      rw [significant_shift, hs, List.map_nil]
    rw [bump_of_nil hs, bump_of_nil hs']
  | cons t rest =>
    have hs' : significant (g.later p).ahead =
        t.shift p.length :: rest.map (Token.shift p.length) := by
      change significant (g.ahead.map _) = _
      rw [significant_shift, hs, List.map_cons]
    rw [bump_of_cons hs, bump_of_cons hs', flush_later, attach_later]
    rfl

lemma skip_later : (g.later p).skip = g.skip.later p := by
  cases hfirst : g.lookahead.first with
  | none =>
    have hfirst' : (g.later p).lookahead.first = none := by rw [lookahead_later, hfirst]
    rw [skip_of_none hfirst, skip_of_none hfirst']
  | some k =>
    have hfirst' : (g.later p).lookahead.first = some k := by rw [lookahead_later, hfirst]
    rw [skip_of_first hfirst, skip_of_first hfirst', flush_later, fresh_later, bump_later,
      enclose_later _ _ rfl, behind_later]

lemma progress_later (cursor : Nat) :
    (g.later p).progress (p.cursor + cursor) = (g.progress cursor).later p := by
  have hcursor : (g.later p).cursor = p.cursor + g.cursor := rfl
  unfold progress
  by_cases h : g.cursor = cursor
  · rw [if_pos h, if_pos (by omega), skip_later]
  · rw [if_neg h, if_neg (by omega)]

end Gathering

/-! ## Derivations later on -/

/-- **What is derived of a gathering is derived of it later, too**, if the rule takes over nothing
of what was gathered before.

**Proof sketch.** Induction on the derivation. Every move does the same later on; inside a node, and
behind a new place, nothing was gathered before. -/
theorem Derives.later {rules : Nesting → Rule}
    (hrules : ∀ level, (rules level).wellFormed level.wraps = true) {room : Nat} {r : Rule}
    {g g' : Gathering} (h : Derives rules room r g g') {placed : Bool}
    (hr : r.wellFormed placed = true) (p : Lead) (hp : placed = true → p.children = []) :
    Derives rules room r (g.later p) (g'.later p) := by
  induction h generalizing placed p with
  | done => exact .done
  | seq _ _ ih₁ ih₂ =>
    rw [Rule.wellFormed, Bool.and_eq_true] at hr
    exact .seq (ih₁ hr.1 p hp) (ih₂ hr.2 p hp)
  | bump =>
    rw [← bump_later]
    exact .bump
  | skip =>
    rw [← skip_later]
    exact .skip
  | report =>
    rw [← report_later]
    exact .report
  | @node room kind body g g₁ _ ih =>
    have hbody := ih hr p.inside (fun _ => rfl)
    rw [← fresh_later, ← flush_later] at hbody
    have hnode : Derives rules room (.node kind body) _ _ := .node hbody
    rw [enclose_later _ _ rfl, flush_later] at hnode
    rw [← behind_later]
    exact hnode
  | @mark room body g g₁ _ ih =>
    have hbody := ih hr p.inside (fun _ => rfl)
    rw [← fresh_later, ← flush_later] at hbody
    have hmark := Derives.mark hbody
    rw [flush_later, behind_later] at hmark
    exact hmark
  | wrap _ ih =>
    rw [Rule.wellFormed, Bool.and_eq_true] at hr
    rw [← enclose_later p _ (hp hr.1)]
    exact .wrap (ih hr.2 p fun h => absurd h Bool.false_ne_true)
  | yes htest _ ih =>
    rw [Rule.wellFormed, Bool.and_eq_true] at hr
    exact .yes ((congrArg _ (lookahead_later p _)).trans htest) (ih hr.1 p hp)
  | no htest _ ih =>
    rw [Rule.wellFormed, Bool.and_eq_true] at hr
    exact .no ((congrArg _ (lookahead_later p _)).trans htest) (ih hr.2 p hp)
  | stop hstop => exact .stop ((congrArg _ (lookahead_later p _)).trans hstop)
  | step hstop _ _ ih₁ ih₂ =>
    have hbody := hr
    rw [Rule.wellFormed, Bool.and_eq_true] at hbody
    refine .step ((congrArg _ (lookahead_later p _)).trans hstop) (ih₁ hbody.2 p hp) ?_
    have hloop := ih₂ hr p hp
    rw [← progress_later] at hloop
    exact hloop
  | @nest room level otherwise g g₁ _ ih =>
    rw [Rule.wellFormed, Bool.and_eq_true, Bool.or_eq_true, Bool.not_eq_true'] at hr
    exact .nest (ih (hrules level) p fun hwraps =>
      hp (hr.1.resolve_left (by simp [hwraps])))
  | full _ ih =>
    rw [Rule.wellFormed, Bool.and_eq_true] at hr
    have hother := ih hr.2 p hp
    rw [← report_later] at hother
    exact .full hother

/-! ## White space and comments ahead of time -/

namespace Gathering

/-- **Some white space and comments are gathered ahead of time**, and the rest of the stream is
left. -/
def advance (g : Gathering) (ts rest : List Token) : Gathering :=
  { g with ahead := rest }.attachAll ts

variable {g : Gathering} {ts rest : List Token}

/-- Whatever is gathered ahead of time, in the end the same white space and comments are gathered
before the next token. -/
lemma flush_advance (h : g.ahead = ts ++ rest) (hts : ∀ t ∈ ts, t.isTrivia) :
    (g.advance ts rest).flush = g.flush := by
  have htrivia : g.ahead.takeWhile (·.isTrivia) = ts ++ rest.takeWhile (·.isTrivia) := by
    rw [h, List.takeWhile_append_of_pos hts]
  have hsignificant : significant g.ahead = significant rest := by
    rw [h]
    exact List.dropWhile_append_of_pos hts
  have hahead : (g.advance ts rest).ahead = rest := attachAll_ahead ..
  ext1
  · rw [flush_ahead, flush_ahead, hahead, hsignificant]
  · simp only [flush_endOffset, advance, attachAll_endOffset]
  · simp only [flush_cursor, advance, attachAll_cursor]
  · unfold flush
    rw [attachAll_offset, attachAll_offset, hahead, htrivia, List.getLast?_append]
    simp only [advance, attachAll_offset]
    cases (rest.takeWhile (·.isTrivia)).getLast? <;> rfl
  · rw [flush_diagnostics, flush_diagnostics, hahead, htrivia]
    simp [advance]
  · rw [flush_children, flush_children, hahead, htrivia]
    simp [advance]

/-- The same comes next. -/
lemma lookahead_advance (h : g.ahead = ts ++ rest) (hts : ∀ t ∈ ts, t.isTrivia) :
    (g.advance ts rest).lookahead = g.lookahead := by
  rw [← lookahead_flush, flush_advance h hts, lookahead_flush]

/-- If there is nothing amiss with them, white space and comments may as well be gathered after an
error is found. -/
lemma report_advance (h : g.ahead = ts ++ rest) (hts : ∀ t ∈ ts, t.isTrivia)
    (hquiet : ts.flatMap complaints = []) (message : String) :
    (g.advance ts rest).report message = (g.report message).advance ts rest := by
  have hspan : (g.advance ts rest).currentSpan = g.currentSpan := by
    have hsignificant : significant (g.advance ts rest).ahead = significant g.ahead := by
      rw [advance, attachAll_ahead, h]
      exact (List.dropWhile_append_of_pos hts).symm
    unfold currentSpan
    rw [hsignificant]
    simp only [advance, attachAll_endOffset]
  unfold report
  rw [hspan]
  ext1 <;> simp [advance, hquiet]

/-- In the end all that is left is gathered. -/
lemma finish_advance (h : g.ahead = ts ++ rest) : (g.advance ts rest).finish = g.finish := by
  have hahead : (g.advance ts rest).ahead = rest := attachAll_ahead ..
  have hempty : { g.advance ts rest with ahead := [] } = { g with ahead := [] }.attachAll ts := by
    ext1 <;> simp [advance]
  unfold finish
  rw [h, attachAll_append, hahead, hempty]

end Gathering

/-- Whether a rule gathers the white space and comments at the front before all else, or, where
there is nothing amiss with them, at least before it takes a token. -/
def Rule.flushes (quiet : Bool) (l : Lookahead) : Rule → Bool
  | .node _ _ | .mark _ => true
  | .branch test yes no => if test l then yes.flushes quiet l else no.flushes quiet l
  | .seq (.report _) .skip => quiet && !l.isEnd
  | _ => false

/-- A rule that gathers them anyhow leads where it would lead if they were gathered ahead of time.

**Proof sketch.** Induction on the rule. -/
lemma Derives.of_advance {rules : Nesting → Rule} {room : Nat} {r : Rule} (quiet : Bool)
    {g k : Gathering} {ts rest : List Token} (h : Derives rules room r (g.advance ts rest) k)
    (hr : r.flushes quiet g.lookahead = true) (hahead : g.ahead = ts ++ rest)
    (hts : ∀ t ∈ ts, t.isTrivia) (hquiet : quiet = true → ts.flatMap complaints = []) :
    Derives rules room r g k := by
  have hflush := flush_advance hahead hts
  have hlook := lookahead_advance hahead hts
  induction r with
  | node kind body _ =>
    cases h with
    | node h =>
      rw [hflush] at h ⊢
      exact .node h
  | mark body _ =>
    cases h with
    | mark h =>
      rw [hflush] at h ⊢
      exact .mark h
  | branch test yes no ih₁ ih₂ =>
    rw [Rule.flushes] at hr
    cases h with
    | yes htest h =>
      rw [hlook] at htest
      rw [if_pos htest] at hr
      exact .yes htest (ih₁ h hr)
    | no htest h =>
      rw [hlook] at htest
      rw [if_neg (by simp [htest])] at hr
      exact .no htest (ih₂ h hr)
  | seq first second _ _ =>
    cases first with
    | report message =>
      cases second with
      | skip =>
        cases h with
        | seq h₁ h₂ =>
          cases h₁
          cases h₂
          rw [Rule.flushes, Bool.and_eq_true] at hr
          -- The report is about the same token, and the error node gathers what is before it.
          have hreport := report_advance hahead hts (hquiet hr.1) message
          have hahead' : (g.report message).ahead = ts ++ rest := hahead
          have hskip : ((g.report message).advance ts rest).skip = (g.report message).skip := by
            obtain ⟨kind, hfirst⟩ : ∃ kind, (g.report message).lookahead.first = some kind :=
              Option.isSome_iff_exists.1 (by simpa [Lookahead.isEnd] using hr.2)
            have hfirst' : ((g.report message).advance ts rest).lookahead.first = some kind := by
              rw [lookahead_advance hahead' hts, hfirst]
            rw [skip_of_first hfirst, skip_of_first hfirst', flush_advance hahead' hts]
          rw [hreport, hskip]
          exact .seq .report .skip
      | _ => cases hr
    | _ => cases hr
  | _ => cases hr

/-- A choice gathers them if both of its sides do. -/
lemma flushes_branch {quiet : Bool} {l : Lookahead} {test : Lookahead → Bool} {yes no : Rule}
    (hyes : yes.flushes quiet l = true) (hno : no.flushes quiet l = true) :
    (Rule.branch test yes no).flushes quiet l = true := by
  rw [Rule.flushes, hyes, hno, ite_self]

/-- Declarations gather the white space and comments before them, … -/
lemma flushes_declaration {l : Lookahead} (hl : l.isEnd = false) :
    declaration.flushes true l = true := by
  refine flushes_branch rfl (flushes_branch rfl (flushes_branch rfl (flushes_branch rfl ?_)))
  refine flushes_branch rfl (flushes_branch rfl (flushes_branch rfl ?_))
  show (true && !l.isEnd) = true
  rw [hl]
  rfl

/-- … and where a word comes next that is never a name, before all else. -/
lemma flushes_declaration_of_hard {word : TokenKind} (hword : word.isHardDeclarationKeyword = true)
    (second : Option TokenKind) : declaration.flushes false ⟨some word, second⟩ = true := by
  simp only [← mem_hardWords_iff, hardWords, List.mem_cons, List.not_mem_nil, or_false] at hword
  rcases hword with rfl | rfl | rfl | rfl | rfl <;> rfl

/-- **A file may gather white space and comments ahead of time**, if there is nothing amiss with
them or a word that is never a name comes next: in the end the same is gathered and found. -/
theorem Derives.file_of_advance {room : Nat} {g k : Gathering} {ts rest : List Token}
    (h : Derives nested room file (g.advance ts rest) k) (hahead : g.ahead = ts ++ rest)
    (hts : ∀ t ∈ ts, t.isTrivia)
    (hquiet : ts.flatMap complaints = [] ∨
      ∃ word second, g.lookahead = ⟨some word, second⟩ ∧ word.isHardDeclarationKeyword = true) :
    ∃ k', Derives nested room file g k' ∧ k'.finish = k.finish := by
  have hlook := lookahead_advance hahead hts
  cases h with
  | stop hstop =>
    rw [hlook] at hstop
    exact ⟨g, .stop hstop, (finish_advance hahead).symm⟩
  | step hstop h₁ h₂ =>
    rw [hlook] at hstop
    have hcursor : (g.advance ts rest).cursor = g.cursor := attachAll_cursor ..
    rw [hcursor] at h₂
    refine ⟨k, .step hstop ?_ h₂, rfl⟩
    rcases hquiet with hquiet | ⟨word, second, hfirst, hword⟩
    · exact h₁.of_advance true (flushes_declaration hstop) hahead hts fun _ => hquiet
    · refine h₁.of_advance false ?_ hahead hts nofun
      rw [hfirst]
      exact flushes_declaration_of_hard hword second

end Grammar

end TxTree
