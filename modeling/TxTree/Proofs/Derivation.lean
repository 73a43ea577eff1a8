import TxTree.Grammar.Declarations
import TxTree.Proofs.Gathering

set_option relaxedAutoImplicit false
set_option autoImplicit false

/-!
# Derivations

The meaning of a rule as a relation: from which gathering to which one it leads. A derivation
knows no frames, no places and no bound on the steps of a loop, and a property of all that a rule
can do is an induction over derivations, with one case for each kind of rule. That derivations say
what running a rule does holds of the rules that are well formed: they take over children only at
a place that was remembered in the same node, and their loops stop at the end of the stream.

## Main definitions

* `TxTree.Grammar.Rule.wellFormed` — whether a rule is well formed.
* `TxTree.Grammar.Derives` — the derivations.

## Main results

* `TxTree.Grammar.Derives.run_around` — what is derived is what running the rule does.
* `TxTree.Grammar.exists_derives` — a well-formed rule leads somewhere from every gathering.
* `TxTree.Grammar.Derives.unique` — and only to one.
* `TxTree.Grammar.Derives.takes`, `TxTree.Grammar.Derives.consumes` — tokens are taken from the
  front of the stream.
* `TxTree.Grammar.wellFormed_nested`, `TxTree.Grammar.wellFormed_file` — the rules of the grammar
  are well formed.
-/

namespace TxTree.Grammar

/-! ## Well-formed rules -/

/-- Whether a nesting level takes over what stands before it. -/
def Nesting.wraps : Nesting → Bool
  | .expression | .signed | .type => false
  | .suffixed | .array => true

/-- **Whether a rule is well formed**, where a place is remembered in the innermost node or not:
a node is opened at a place only where there is one, and every loop stops at the end. -/
def Rule.wellFormed : Rule → (placed : Bool) → Bool
  | .done, _ | .bump, _ | .skip, _ | .report _, _ => true
  | .seq first second, placed => first.wellFormed placed && second.wellFormed placed
  | .node _ body, _ => body.wellFormed false
  | .mark body, _ => body.wellFormed true
  | .wrap _ body, placed => placed && body.wellFormed false
  | .branch _ yes no, placed => yes.wellFormed placed && no.wellFormed placed
  | .loop stop body, placed => stop ⟨none, none⟩ && body.wellFormed placed
  | .nest level otherwise, placed => (!level.wraps || placed) && otherwise.wellFormed placed

/-- The rules of the nesting levels are well formed. -/
theorem wellFormed_nested (level : Nesting) : (nested level).wellFormed level.wraps = true := by
  cases level <;> rfl

/-- The rule of a file is well formed. -/
theorem wellFormed_file : file.wellFormed false = true := rfl

/-! ## Derivations -/

/-- **What a rule leads to**: with room for `room` nesting levels, whose rules are `rules`, the rule
leads from one gathering to another. -/
inductive Derives (rules : Nesting → Rule) : Nat → Rule → Gathering → Gathering → Prop where
  | done {room : Nat} {g : Gathering} : Derives rules room .done g g
  | seq {room : Nat} {first second : Rule} {g g₁ g₂ : Gathering} :
    Derives rules room first g g₁ → Derives rules room second g₁ g₂ →
      Derives rules room (.seq first second) g g₂
  | bump {room : Nat} {g : Gathering} : Derives rules room .bump g g.bump
  | skip {room : Nat} {g : Gathering} : Derives rules room .skip g g.skip
  | report {room : Nat} {message : String} {g : Gathering} :
    Derives rules room (.report message) g (g.report message)
  | node {room : Nat} {kind : NodeKind} {body : Rule} {g g₁ : Gathering} :
    Derives rules room body g.flush.fresh g₁ →
      Derives rules room (.node kind body) g ((g₁.enclose kind).behind g.flush.children)
  | mark {room : Nat} {body : Rule} {g g₁ : Gathering} :
    Derives rules room body g.flush.fresh g₁ →
      Derives rules room (.mark body) g (g₁.behind g.flush.children)
  | wrap {room : Nat} {kind : NodeKind} {body : Rule} {g g₁ : Gathering} :
    Derives rules room body g g₁ → Derives rules room (.wrap kind body) g (g₁.enclose kind)
  | yes {room : Nat} {test : Lookahead → Bool} {yes no : Rule} {g g₁ : Gathering} :
    test g.lookahead = true → Derives rules room yes g g₁ →
      Derives rules room (.branch test yes no) g g₁
  | no {room : Nat} {test : Lookahead → Bool} {yes no : Rule} {g g₁ : Gathering} :
    test g.lookahead = false → Derives rules room no g g₁ →
      Derives rules room (.branch test yes no) g g₁
  | stop {room : Nat} {stop : Lookahead → Bool} {body : Rule} {g : Gathering} :
    stop g.lookahead = true → Derives rules room (.loop stop body) g g
  | step {room : Nat} {stop : Lookahead → Bool} {body : Rule} {g g₁ g₂ : Gathering} :
    stop g.lookahead = false → Derives rules room body g g₁ →
      Derives rules room (.loop stop body) (g₁.progress g.cursor) g₂ →
      Derives rules room (.loop stop body) g g₂
  | nest {room : Nat} {level : Nesting} {otherwise : Rule} {g g₁ : Gathering} :
    Derives rules room (rules level) g g₁ → Derives rules (room + 1) (.nest level otherwise) g g₁
  | full {level : Nesting} {otherwise : Rule} {g g₁ : Gathering} :
    Derives rules 0 otherwise (g.report tooDeep) g₁ → Derives rules 0 (.nest level otherwise) g g₁

/-! ## Tokens taken -/

namespace Gathering

/-- From one gathering to another `n` pending tokens are taken, the first ones, and the cursor
counts them. -/
def Takes (n : Nat) (g g' : Gathering) : Prop :=
  pending g'.ahead = (pending g.ahead).drop n ∧ g'.cursor = g.cursor + n ∧
    n ≤ (pending g.ahead).length

lemma Takes.refl (g : Gathering) : Takes 0 g g := ⟨rfl, rfl, Nat.zero_le _⟩

lemma Takes.trans {m n : Nat} {g g₁ g₂ : Gathering} (h₁ : Takes m g g₁) (h₂ : Takes n g₁ g₂) :
    Takes (m + n) g g₂ := by
  obtain ⟨hp₁, hc₁, hl₁⟩ := h₁
  obtain ⟨hp₂, hc₂, hl₂⟩ := h₂
  rw [hp₁, List.length_drop] at hl₂
  refine ⟨?_, ?_, ?_⟩
  · rw [hp₂, hp₁, List.drop_drop]
  · omega
  · omega

/-- To make a node of what is gathered takes no token. -/
lemma Takes.enclose {n : Nat} {g g₁ : Gathering} (h : Takes n g g₁) (kind : NodeKind) :
    Takes n g (g₁.enclose kind) := h

/-- What is read from a new place on is read from the stream before it. -/
lemma takes_behind_flush {n : Nat} {g g₁ : Gathering} (h : Takes n g.flush.fresh g₁)
    (before : List Element) : Takes n g (g₁.behind before) := by
  obtain ⟨hp, hc, hl⟩ := h
  rw [pending_flush_fresh] at hp hl
  exact ⟨hp, hc.trans (by rw [fresh, flush_cursor]), hl⟩

lemma takes_bump (g : Gathering) : ∃ n, Takes n g g.bump := by
  cases h : significant g.ahead with
  | nil => exact ⟨0, by rw [bump_of_nil h]; exact Takes.refl g⟩
  | cons t rest =>
    refine ⟨1, ?_, ?_, ?_⟩
    · rw [pending_bump, List.drop_one]
    · rw [bump_of_cons h]
    · rw [pending_of_significant h]
      simp

lemma skip_of_first {g : Gathering} {k : TokenKind} (h : g.lookahead.first = some k) :
    g.skip = (g.flush.fresh.bump.enclose .error).behind g.flush.children := by
  rw [skip, h]

lemma skip_of_none {g : Gathering} (h : g.lookahead.first = none) : g.skip = g := by
  rw [skip, h]

/-- At the end no token is passed over. -/
lemma skip_of_nil {g : Gathering} (h : significant g.ahead = []) : g.skip = g :=
  skip_of_none (by rw [lookahead, h])

lemma takes_skip (g : Gathering) : ∃ n, Takes n g g.skip := by
  cases h : g.lookahead.first with
  | none => exact ⟨0, by rw [skip_of_none h]; exact Takes.refl g⟩
  | some k =>
    obtain ⟨n, hn⟩ := takes_bump g.flush.fresh
    rw [skip_of_first h]
    exact ⟨n, takes_behind_flush (hn.enclose _) _⟩

/-- A step of a loop may be followed by passing over a token. -/
lemma takes_progress (g : Gathering) (cursor : Nat) : ∃ n, Takes n g (g.progress cursor) := by
  rw [progress]
  split
  · exact takes_skip g
  · exact ⟨0, Takes.refl g⟩

/-- After a step of a loop there is less to come, unless there was nothing. -/
lemma length_progress_lt {n : Nat} {g g₁ : Gathering} (h : Takes n g g₁)
    (hne : pending g.ahead ≠ []) :
    (pending (g₁.progress g.cursor).ahead).length < (pending g.ahead).length := by
  obtain ⟨hp, hc, -⟩ := h
  have hpos : 0 < (pending g.ahead).length := List.length_pos_iff.2 hne
  rw [progress]
  split
  · next hsame =>
    rw [pending_skip, hp, List.length_tail, List.length_drop]
    omega
  · next hmoved =>
    rw [hp, List.length_drop]
    omega

/-! ### All tokens, white space and comments among them -/

/-- From one gathering to another some tokens leave the front of the stream, the last of which is
where the new one stands; the end of the text stays where it is. -/
structure Consumes (taken : List Token) (g g' : Gathering) : Prop where
  /-- The tokens taken were at the front. -/
  ahead_eq : g.ahead = taken ++ g'.ahead
  /-- The end of the last token is now that of the last one taken, if there is one. -/
  offset_eq : g'.offset = (taken.getLast?.map (·.span.stop)).getD g.offset
  /-- The text still ends at the same place. -/
  endOffset_eq : g'.endOffset = g.endOffset

namespace Consumes

variable {ts us : List Token} {g g₁ g₂ : Gathering}

lemma refl (g : Gathering) : Consumes [] g g := ⟨rfl, rfl, rfl⟩

lemma trans (h₁ : Consumes ts g g₁) (h₂ : Consumes us g₁ g₂) : Consumes (ts ++ us) g g₂ := by
  refine ⟨?_, ?_, h₂.endOffset_eq.trans h₁.endOffset_eq⟩
  · rw [h₁.ahead_eq, h₂.ahead_eq, List.append_assoc]
  · rw [h₂.offset_eq, h₁.offset_eq, List.getLast?_append]
    cases us.getLast? <;> rfl

lemma attachAll (g : Gathering) (ts us : List Token) (h : g.ahead = ts ++ us) :
    Consumes ts g ({ g with ahead := us }.attachAll ts) :=
  ⟨by rw [attachAll_ahead, h], attachAll_offset .., attachAll_endOffset ..⟩

lemma flush (g : Gathering) : Consumes (g.ahead.takeWhile (·.isTrivia)) g g.flush :=
  attachAll g _ _ (takeWhile_append_significant g.ahead).symm

/-- To make a node of what is gathered takes nothing off the stream. -/
lemma enclose (h : Consumes ts g g₁) (kind : NodeKind) : Consumes ts g (g₁.enclose kind) :=
  ⟨h.ahead_eq, h.offset_eq, h.endOffset_eq⟩

/-- What leaves the stream since a new place leaves it since the one before. -/
lemma behind_flush (h : Consumes ts g.flush.fresh g₁) (before : List Element) :
    Consumes (g.ahead.takeWhile (·.isTrivia) ++ ts) g (g₁.behind before) := by
  have hrest : Consumes ts g.flush (g₁.behind before) :=
    ⟨h.ahead_eq, h.offset_eq, h.endOffset_eq⟩
  exact (flush g).trans hrest

lemma bump (g : Gathering) : ∃ ts, Consumes ts g g.bump := by
  cases h : significant g.ahead with
  | nil =>
    rw [bump_of_nil h]
    exact ⟨[], refl g⟩
  | cons t rest =>
    rw [bump_of_cons h]
    have hnext : Consumes [t] g.flush
        { g.flush.attach t with ahead := rest, cursor := g.cursor + 1 } :=
      ⟨by rw [flush_ahead, h]; rfl, rfl, rfl⟩
    exact ⟨_, (flush g).trans hnext⟩

lemma skip (g : Gathering) : ∃ ts, Consumes ts g g.skip := by
  rw [Gathering.skip]
  cases g.lookahead.first with
  | none => exact ⟨[], refl g⟩
  | some k =>
    obtain ⟨ts, hts⟩ := bump g.flush.fresh
    exact ⟨_, behind_flush (hts.enclose .error) _⟩

lemma progress (g : Gathering) (cursor : Nat) : ∃ ts, Consumes ts g (g.progress cursor) := by
  rw [Gathering.progress]
  split
  · exact skip g
  · exact ⟨[], refl g⟩

end Consumes

end Gathering

open Gathering Surroundings

/-! ## What is derived -/

namespace Derives

variable {rules : Nesting → Rule} {room : Nat} {r : Rule} {g g' : Gathering}

/-- **Tokens are taken from the front**, one after the other: the stream never grows and the cursor
never moves back. -/
theorem takes (h : Derives rules room r g g') : ∃ n, Takes n g g' := by
  induction h with
  | done => exact ⟨0, Takes.refl _⟩
  | seq _ _ ih₁ ih₂ =>
    obtain ⟨m, hm⟩ := ih₁
    obtain ⟨n, hn⟩ := ih₂
    exact ⟨m + n, hm.trans hn⟩
  | bump => exact takes_bump _
  | skip => exact takes_skip _
  | report => exact ⟨0, Takes.refl _⟩
  | node _ ih =>
    obtain ⟨n, hn⟩ := ih
    exact ⟨n, takes_behind_flush (hn.enclose _) _⟩
  | mark _ ih =>
    obtain ⟨n, hn⟩ := ih
    exact ⟨n, takes_behind_flush hn _⟩
  | wrap _ ih => exact ih
  | yes _ _ ih => exact ih
  | no _ _ ih => exact ih
  | stop => exact ⟨0, Takes.refl _⟩
  | step _ _ _ ih₁ ih₂ =>
    obtain ⟨l, hl⟩ := ih₁
    obtain ⟨m, hm⟩ := takes_progress _ _
    obtain ⟨n, hn⟩ := ih₂
    exact ⟨l + m + n, (hl.trans hm).trans hn⟩
  | nest _ ih => exact ih
  | full _ ih => exact ih

/-- **Tokens leave the front of the stream**, white space and comments among them. -/
theorem consumes (h : Derives rules room r g g') : ∃ ts, Consumes ts g g' := by
  induction h with
  | done => exact ⟨[], .refl _⟩
  | seq _ _ ih₁ ih₂ =>
    obtain ⟨ts, hts⟩ := ih₁
    obtain ⟨us, hus⟩ := ih₂
    exact ⟨ts ++ us, hts.trans hus⟩
  | bump => exact Consumes.bump _
  | skip => exact Consumes.skip _
  | report => exact ⟨[], rfl, rfl, rfl⟩
  | node _ ih =>
    obtain ⟨ts, hts⟩ := ih
    exact ⟨_, Consumes.behind_flush (hts.enclose _) _⟩
  | mark _ ih =>
    obtain ⟨ts, hts⟩ := ih
    exact ⟨_, Consumes.behind_flush hts _⟩
  | wrap _ ih =>
    obtain ⟨ts, hts⟩ := ih
    exact ⟨ts, hts.enclose _⟩
  | yes _ _ ih => exact ih
  | no _ _ ih => exact ih
  | stop => exact ⟨[], .refl _⟩
  | step _ _ _ ih₁ ih₂ =>
    obtain ⟨ts, hts⟩ := ih₁
    obtain ⟨ts', hts'⟩ := Consumes.progress _ _
    obtain ⟨us, hus⟩ := ih₂
    exact ⟨ts ++ ts' ++ us, (hts.trans hts').trans hus⟩
  | nest _ ih => exact ih
  | full _ ih =>
    obtain ⟨ts, hts⟩ := ih
    exact ⟨ts, hts.ahead_eq, hts.offset_eq, hts.endOffset_eq⟩

/-- As long as no token is taken, the same comes next. -/
lemma lookahead_eq_of_cursor_eq (h : Derives rules room r g g') (hsame : g'.cursor = g.cursor) :
    g'.lookahead = g.lookahead := by
  obtain ⟨n, hp, hc, -⟩ := h.takes
  obtain rfl : n = 0 := by omega
  exact lookahead_congr hp

/-- A loop stops because its test says so. -/
theorem stop_of_loop {stop : Lookahead → Bool} {body : Rule}
    (h : Derives rules room (.loop stop body) g g') : stop g'.lookahead = true := by
  generalize hr : Rule.loop stop body = r at h
  induction h with
  | stop hstop =>
    cases hr
    exact hstop
  | step _ _ _ _ ih => exact ih hr
  | _ => cases hr

end Derives

/-- A loop that has not stopped has a token to come. -/
lemma pending_ne_nil_of_not_stop {stop : Lookahead → Bool} {g : Gathering}
    (hend : stop ⟨none, none⟩ = true) (h : stop g.lookahead = false) : pending g.ahead ≠ [] := by
  intro hnil
  rw [lookahead_eq, hnil] at h
  simp only [List.head?_nil, List.getElem?_nil, Option.map_none, hend, reduceCtorEq] at h

/-! ## Derivations and runs -/

/-- A rule that is run with a bound of one's own on the steps of its outermost loop. -/
def Rule.runWithin (deeper : Option (Nesting → Checkpoint → State → State)) (bound : List Token)
    (place : Checkpoint) (s : State) : Rule → State
  | .loop stop body => iterate stop (fun s => body.run deeper place s) bound s
  | r => r.run deeper place s

/-- There are no more pending tokens than tokens. -/
lemma length_pending_le (tokens : List Token) : (pending tokens).length ≤ tokens.length :=
  List.length_filter_le ..

/-- The bound that a run uses is the stream, which is enough for all its pending tokens. -/
lemma Rule.run_of_runWithin {deeper : Option (Nesting → Checkpoint → State → State)}
    {place : Checkpoint} {c : Surroundings} {g : Gathering} {s : State} {r : Rule}
    (h : ∀ bound : List Token, (pending g.ahead).length ≤ bound.length →
      r.runWithin deeper bound place (c.around g) = s) : r.run deeper place (c.around g) = s := by
  rw [← h g.ahead (length_pending_le _)]
  cases r <;> rfl

/-- Where a loop stops it does nothing, … -/
lemma iterate_around_of_stop {stop : Lookahead → Bool} (step : State → State)
    (bound : List Token) (c : Surroundings) {g : Gathering} (hstop : stop g.lookahead = true) :
    iterate stop step bound (c.around g) = c.around g := by
  cases bound with
  | nil => rfl
  | cons t bound => rw [iterate, if_pos (by rw [around_lookahead, hstop])]

/-- … and elsewhere it takes a step, passes over a token if the step took none, and goes on. -/
lemma iterate_around_of_step {stop : Lookahead → Bool} {step : State → State} {c : Surroundings}
    {g g₁ : Gathering} (hstop : stop g.lookahead = false) (hstep : step (c.around g) = c.around g₁)
    (t : Token) (bound : List Token) :
    iterate stop step (t :: bound) (c.around g) =
      iterate stop step bound (c.around (g₁.progress g.cursor)) := by
  have hnext : (if (c.around g₁).cursor = (c.around g).cursor then (c.around g₁).skip
      else c.around g₁) = c.around (g₁.progress g.cursor) := by
    rw [progress, apply_ite c.around, around_skip]
    rfl
  rw [iterate, if_neg (by rw [around_lookahead, hstop]; exact Bool.false_ne_true)]
  simp only [hstep, hnext]

section Runs

variable {rules : Nesting → Rule} {room : Nat}

/-- Running a well-formed rule does what is derived of it, if its outermost loop may take at least
as many steps as tokens are pending.

**Proof sketch.** Induction on the derivation. A node is run inside new surroundings, and so is a
node at the place that is remembered, with what was gathered since; what is gathered since a new
place is put behind what was before. Only a rule that wraps looks at the place, and there it is
that of the surroundings. A step of a loop takes a token, so that one step less is enough for the
further ones. -/
lemma Derives.runWithin_around (hrules : ∀ level, (rules level).wellFormed level.wraps = true)
    {r : Rule} {g g' : Gathering} (h : Derives rules room r g g') {placed : Bool}
    (hr : r.wellFormed placed = true) (c : Surroundings) (place : Checkpoint)
    (hplace : placed = true → place = c.place) (bound : List Token)
    (hbound : (pending g.ahead).length ≤ bound.length) :
    r.runWithin (descend rules room) bound place (c.around g) = c.around g' := by
  induction h generalizing placed c place bound with
  | done => rfl
  | @seq room first second g g₁ g₂ _ _ ih₁ ih₂ =>
    rw [Rule.wellFormed, Bool.and_eq_true] at hr
    have h₁ := Rule.run_of_runWithin (ih₁ hr.1 c place hplace)
    have h₂ := Rule.run_of_runWithin (ih₂ hr.2 c place hplace)
    change second.run _ place (first.run _ place (c.around g)) = _
    rw [h₁, h₂]
  | bump => exact c.around_bump _
  | skip => exact c.around_skip _
  | report => exact c.around_report _ _
  | @node room kind body g g₁ _ ih =>
    have hbody := Rule.run_of_runWithin
      (ih hr ((c.past g.flush.children).inside kind) place nofun)
    change (body.run _ place ((c.around g).start kind)).finishNode = _
    rw [around_start, hbody, around_finishNode, around_past]
  | @mark room body g g₁ _ ih =>
    have hbody := Rule.run_of_runWithin (ih hr (c.past g.flush.children) _ fun _ => rfl)
    change body.run _ (c.around g).flush.builder.checkpoint (c.around g).flush = _
    rw [around_flush, checkpoint_around, ← around_fresh, hbody, around_past]
  | @wrap room kind body g g₁ _ ih =>
    rw [Rule.wellFormed, Bool.and_eq_true] at hr
    -- Only here is the place looked at; what was gathered since it is now inside the node.
    have hbody := Rule.run_of_runWithin (ih hr.2 (c.inside kind) place nofun)
    change (body.run _ place ((c.around g).startAt place kind)).finishNode = _
    rw [hplace hr.1, around_startAt, ← hplace hr.1, hbody, around_finishNode]
  | @yes room test yes no g g₁ htest _ ih =>
    rw [Rule.wellFormed, Bool.and_eq_true] at hr
    change (if test (c.around g).lookahead then yes.run _ place (c.around g)
      else no.run _ place (c.around g)) = _
    rw [if_pos (by rw [around_lookahead, htest])]
    exact Rule.run_of_runWithin (ih hr.1 c place hplace)
  | @no room test yes no g g₁ htest _ ih =>
    rw [Rule.wellFormed, Bool.and_eq_true] at hr
    change (if test (c.around g).lookahead then yes.run _ place (c.around g)
      else no.run _ place (c.around g)) = _
    rw [if_neg (by rw [around_lookahead, htest]; exact Bool.false_ne_true)]
    exact Rule.run_of_runWithin (ih hr.2 c place hplace)
  | stop hstop => exact iterate_around_of_stop _ bound c hstop
  | @step room stop body g g₁ g₂ hstop hbody _ ih₁ ih₂ =>
    have hr' := hr
    rw [Rule.wellFormed, Bool.and_eq_true] at hr'
    have hne := pending_ne_nil_of_not_stop hr'.1 hstop
    obtain ⟨n, hn⟩ := hbody.takes
    -- The step takes a token or one is passed over, so that the bound may be shorter by one.
    have hlt := length_progress_lt hn hne
    have h₁ := Rule.run_of_runWithin (ih₁ hr'.2 c place hplace)
    cases bound with
    | nil => exact absurd (List.length_eq_zero_iff.1 (Nat.le_zero.1 hbound)) hne
    | cons t bound =>
      have henough : (pending (g₁.progress g.cursor).ahead).length ≤ bound.length := by
        rw [List.length_cons] at hbound
        omega
      exact (iterate_around_of_step hstop h₁ t bound).trans
        (ih₂ hr c place hplace bound henough)
  | @nest room level otherwise g g₁ _ ih =>
    rw [Rule.wellFormed, Bool.and_eq_true, Bool.or_eq_true, Bool.not_eq_true'] at hr
    have hlevel := Rule.run_of_runWithin (ih (hrules level) c.deeper place fun hwraps =>
      hplace (hr.1.resolve_left (by simp [hwraps])))
    change ((rules level).run _ place (c.around g).enter).leave = _
    change (rules level).run _ place (c.around g).enter = _ at hlevel
    rw [hlevel]
    rfl
  | @full level otherwise g g₁ _ ih =>
    rw [Rule.wellFormed, Bool.and_eq_true] at hr
    change otherwise.run _ place ((c.around g).report tooDeep) = _
    rw [around_report]
    exact Rule.run_of_runWithin (ih hr.2 c place hplace)

/-- **Running a well-formed rule does what is derived of it**, whatever is around the place. -/
theorem Derives.run_around (hrules : ∀ level, (rules level).wellFormed level.wraps = true)
    {r : Rule} {g g' : Gathering} (h : Derives rules room r g g') {placed : Bool}
    (hr : r.wellFormed placed = true) (c : Surroundings) (place : Checkpoint)
    (hplace : placed = true → place = c.place) :
    r.run (descend rules room) place (c.around g) = c.around g' :=
  Rule.run_of_runWithin (h.runWithin_around hrules hr c place hplace)

/-! ### Totality -/

/-- A loop that stops at the end leads somewhere if its body does.

**Proof sketch.** Strong induction on the number of pending tokens, of which each step takes at
least one. -/
lemma exists_derives_loop {stop : Lookahead → Bool} {body : Rule}
    (hend : stop ⟨none, none⟩ = true) (hbody : ∀ g, ∃ g', Derives rules room body g g')
    (g : Gathering) : ∃ g', Derives rules room (.loop stop body) g g' := by
  induction hn : (pending g.ahead).length using Nat.strong_induction_on generalizing g with
  | _ n ih =>
    cases hstop : stop g.lookahead with
    | true => exact ⟨g, .stop hstop⟩
    | false =>
      obtain ⟨g₁, h₁⟩ := hbody g
      obtain ⟨k, hk⟩ := h₁.takes
      have hlt := length_progress_lt hk (pending_ne_nil_of_not_stop hend hstop)
      obtain ⟨g₂, h₂⟩ := ih _ (hn ▸ hlt) _ rfl
      exact ⟨g₂, .step hstop h₁ h₂⟩

/-- A well-formed rule leads somewhere if the nesting levels in it do.

**Proof sketch.** Induction on the rule. -/
lemma exists_derives_of_nest
    (hnest : ∀ level otherwise, (∀ g, ∃ g', Derives rules room otherwise g g') →
      ∀ g, ∃ g', Derives rules room (.nest level otherwise) g g')
    (r : Rule) {placed : Bool} (hr : r.wellFormed placed = true) (g : Gathering) :
    ∃ g', Derives rules room r g g' := by
  induction r generalizing placed g with
  | done => exact ⟨g, .done⟩
  | seq first second ih₁ ih₂ =>
    rw [Rule.wellFormed, Bool.and_eq_true] at hr
    obtain ⟨g₁, h₁⟩ := ih₁ hr.1 g
    obtain ⟨g₂, h₂⟩ := ih₂ hr.2 g₁
    exact ⟨g₂, .seq h₁ h₂⟩
  | bump => exact ⟨_, .bump⟩
  | skip => exact ⟨_, .skip⟩
  | report message => exact ⟨_, .report⟩
  | node kind body ih =>
    obtain ⟨g₁, h₁⟩ := ih hr g.flush.fresh
    exact ⟨_, .node h₁⟩
  | mark body ih =>
    obtain ⟨g₁, h₁⟩ := ih hr g.flush.fresh
    exact ⟨_, .mark h₁⟩
  | wrap kind body ih =>
    rw [Rule.wellFormed, Bool.and_eq_true] at hr
    obtain ⟨g₁, h₁⟩ := ih hr.2 g
    exact ⟨_, .wrap h₁⟩
  | branch test yes no ih₁ ih₂ =>
    rw [Rule.wellFormed, Bool.and_eq_true] at hr
    cases htest : test g.lookahead with
    | true =>
      obtain ⟨g₁, h₁⟩ := ih₁ hr.1 g
      exact ⟨g₁, .yes htest h₁⟩
    | false =>
      obtain ⟨g₁, h₁⟩ := ih₂ hr.2 g
      exact ⟨g₁, .no htest h₁⟩
  | loop stop body ih =>
    rw [Rule.wellFormed, Bool.and_eq_true] at hr
    exact exists_derives_loop hr.1 (ih hr.2) g
  | nest level otherwise ih =>
    rw [Rule.wellFormed, Bool.and_eq_true] at hr
    exact hnest level otherwise (ih hr.2) g

/-- **A well-formed rule leads somewhere** from every gathering.

**Proof sketch.** Induction on the room: without any the other rule is taken, and otherwise the
rule of the level, with room for one less. -/
theorem exists_derives (hrules : ∀ level, (rules level).wellFormed level.wraps = true)
    (r : Rule) {placed : Bool} (hr : r.wellFormed placed = true) (g : Gathering) :
    ∃ g', Derives rules room r g g' := by
  induction room generalizing r placed g with
  | zero =>
    refine exists_derives_of_nest (fun level otherwise hother g => ?_) r hr g
    obtain ⟨g', h⟩ := hother (g.report tooDeep)
    exact ⟨g', .full h⟩
  | succ room ih =>
    refine exists_derives_of_nest (fun level otherwise _ g => ?_) r hr g
    obtain ⟨g', h⟩ := ih (rules level) (hrules level) g
    exact ⟨g', .nest h⟩

/-! ### Uniqueness -/

/-- A gathering can be read off its state. -/
lemma Surroundings.around_injective (c : Surroundings) {g h : Gathering}
    (he : c.around g = c.around h) : g = h := by
  obtain ⟨ahead, endOffset, cursor, offset, diagnostics, children⟩ := g
  obtain ⟨ahead', endOffset', cursor', offset', diagnostics', children'⟩ := h
  simp only [around, State.mk.injEq, Builder.mk.injEq, Frame.mk.injEq, Array.mk.injEq,
    List.append_cancel_left_eq, true_and, and_true] at he
  obtain ⟨rfl, rfl, rfl, ⟨rfl, rfl⟩, rfl⟩ := he
  rfl

/-- **A well-formed rule leads to one gathering only.** -/
theorem Derives.unique (hrules : ∀ level, (rules level).wellFormed level.wraps = true)
    {r : Rule} {placed : Bool} (hr : r.wellFormed placed = true) {g g₁ g₂ : Gathering}
    (h₁ : Derives rules room r g g₁) (h₂ : Derives rules room r g g₂) : g₁ = g₂ := by
  let c : Surroundings := ⟨.file, [], [], none, 0⟩
  apply c.around_injective
  rw [← h₁.run_around hrules hr c c.place fun _ => rfl,
    h₂.run_around hrules hr c c.place fun _ => rfl]

end Runs

end TxTree.Grammar
