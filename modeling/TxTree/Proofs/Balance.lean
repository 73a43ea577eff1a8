import TxTree.Proofs.File

set_option relaxedAutoImplicit false
set_option autoImplicit false

/-!
# Balance and completeness

Every part of the grammar leaves the open frames, the nesting counter and the record of faults as
it found them, takes tokens from the front of the stream only, and stays behind the place that it
was given; each of its loops ends by its own test. So a parse never takes a step of the builder out
of place, and when it ends every token has been taken and only the root is open.

## Main definitions

* `TxTree.Grammar.MovesPreserve` — a property of states that every move preserves.
* `TxTree.Grammar.Rule.IsPart` — whether a rule is part of another.
* `TxTree.Grammar.Rule.InGrammar` — the parts of the grammar: its productions and what they are
  made of.
* `TxTree.Grammar.State.Holds` — whether a place lies in the innermost node.
* `TxTree.Grammar.Balanced` — what running a part of the grammar leaves as it was.

## Main results

* `TxTree.Grammar.MovesPreserve.run` — what every move preserves, every run preserves.
* `TxTree.Grammar.run_nest` — a nesting level is entered if and only if the counter is below its
  limit.
* `TxTree.Grammar.Rule.InGrammar.balanced` — running a part of the grammar is balanced.
* `TxTree.runFile_complete` — no fault, no frame left open, no token left over.
-/

namespace TxTree.Grammar

/-! ## What a run preserves -/

/-- Every move of a parse preserves a property of states. -/
structure MovesPreserve (P : State → Prop) : Prop where
  /-- Gathering white space and comments does. -/
  flush : ∀ s : State, P s → P s.flush
  /-- Taking a token does. -/
  bump : ∀ s : State, P s → P s.bump
  /-- Passing over a token does. -/
  skip : ∀ s : State, P s → P s.skip
  /-- Reporting an error does. -/
  report : ∀ (s : State) (message : String), P s → P (s.report message)
  /-- Opening a node does. -/
  start : ∀ (s : State) (kind : NodeKind), P s → P (s.start kind)
  /-- Opening a node at a place does, be the place right or wrong. -/
  startAt : ∀ (s : State) (place : Checkpoint) (kind : NodeKind), P s → P (s.startAt place kind)
  /-- Finishing a node does. -/
  finishNode : ∀ s : State, P s → P s.finishNode
  /-- Entering a nesting level does. -/
  enter : ∀ s : State, P s → P s.enter
  /-- Leaving a nesting level does. -/
  leave : ∀ s : State, P s → P s.leave

namespace MovesPreserve

variable {P : State → Prop} (h : MovesPreserve P)

include h in
/-- A loop preserves what its step preserves. -/
lemma iterate {stop : Lookahead → Bool} {step : State → State} (hstep : ∀ s, P s → P (step s))
    (bound : List Token) {s : State} (hs : P s) : P (iterate stop step bound s) := by
  induction bound generalizing s with
  | nil => exact hs
  | cons t bound ih =>
    rw [Grammar.iterate]
    split
    · exact hs
    · refine ih ?_
      split
      · exact h.skip _ (hstep s hs)
      · exact hstep s hs

include h in
/-- A run preserves what the nesting levels in it preserve.

**Proof sketch.** Induction on the rule. -/
lemma run_of_deeper {deeper : Option (Nesting → Checkpoint → State → State)}
    (hdeeper : ∀ go, deeper = some go → ∀ level place s, P s → P (go level place s))
    (r : Rule) (place : Checkpoint) {s : State} (hs : P s) : P (r.run deeper place s) := by
  induction r generalizing place s with
  | done => exact hs
  | seq first second ih₁ ih₂ => exact ih₂ place (ih₁ place hs)
  | bump => exact h.bump s hs
  | skip => exact h.skip s hs
  | report message => exact h.report s message hs
  | node kind body ih => exact h.finishNode _ (ih place (h.start s kind hs))
  | mark body ih => exact ih _ (h.flush s hs)
  | wrap kind body ih => exact h.finishNode _ (ih place (h.startAt s place kind hs))
  | branch test yes no ih₁ ih₂ =>
    rw [Rule.run]
    split
    · exact ih₁ place hs
    · exact ih₂ place hs
  | loop stop body ih => exact h.iterate (fun s hs => ih place hs) _ hs
  | nest level otherwise ih =>
    cases hd : deeper with
    | none =>
      subst hd
      exact ih place (h.report s tooDeep hs)
    | some go =>
      subst hd
      exact hdeeper go rfl level place s hs

include h in
/-- **What every move preserves, every run preserves.**

**Proof sketch.** Induction on the room: without any no level is entered, and otherwise a level is
entered, run with room for one less, and left. -/
theorem run (rules : Nesting → Rule) (room : Nat) (r : Rule) (place : Checkpoint) {s : State}
    (hs : P s) : P (r.run (descend rules room) place s) := by
  induction room generalizing r place s with
  | zero =>
    refine h.run_of_deeper (fun go hgo => ?_) r place hs
    rw [descend] at hgo
    cases hgo
  | succ room ih =>
    refine h.run_of_deeper (fun go hgo level place s hs => ?_) r place hs
    cases hgo
    exact h.leave _ (ih (rules level) place (h.enter s hs))

end MovesPreserve

/-- White space and comments that reach the tree are no step out of place. -/
lemma fault_attachAll (s : State) (tokens : List Token) : (s.attachAll tokens).fault = s.fault := by
  induction tokens generalizing s with
  | nil => rfl
  | cons t tokens ih => exact ih (s.attach t)

lemma fault_bump (s : State) : s.bump.fault = s.fault := by
  rw [State.bump]
  split
  · rfl
  · exact fault_attachAll _ _

/-- **The first fault is kept** by every move. -/
lemma movesPreserve_fault (f : Builder.Fault) : MovesPreserve fun s => s.fault = some f where
  flush s hs := (fault_attachAll _ _).trans hs
  bump s hs := (fault_bump s).trans hs
  skip s hs := by
    rw [State.skip]
    split
    · exact hs
    · have hstart : (s.start .error).fault = some f := (fault_attachAll _ _).trans hs
      rw [State.finishNode, fault_bump, hstart]
      rfl
  report s message hs := hs
  start s kind hs := (fault_attachAll _ _).trans hs
  startAt s place kind hs := by rw [State.startAt, hs]; rfl
  finishNode s hs := by rw [State.finishNode, hs]; rfl
  enter s hs := hs
  leave s hs := hs

/-! ## The nesting counter -/

/-- **A nesting level is entered if and only if the counter is below its limit**, if the room is
what the counter leaves of it; and then the counter and the room agree inside, too. -/
theorem run_nest (rules : Nesting → Rule) (limit : Nat) (level : Nesting) (otherwise : Rule)
    (place : Checkpoint) (s : State) :
    (Rule.nest level otherwise).run (descend rules (limit - s.depth)) place s =
      if s.depth < limit then
        ((rules level).run (descend rules (limit - s.enter.depth)) place s.enter).leave
      else
        otherwise.run (descend rules (limit - s.depth)) place (s.report tooDeep) := by
  split
  · next hlt =>
    obtain ⟨room, hroom⟩ : ∃ room, limit - s.depth = room + 1 := ⟨limit - s.depth - 1, by omega⟩
    have hinner : limit - s.enter.depth = room := by
      change limit - (s.depth + 1) = room
      omega
    rw [hroom, hinner]
    rfl
  · next hge =>
    rw [show limit - s.depth = 0 by omega]
    rfl

/-! ## The parts of the grammar -/

/-- The rules that a rule is made of, itself among them. -/
inductive Rule.IsPart (whole : Rule) : Rule → Prop where
  | self : IsPart whole whole
  | first {first second : Rule} : IsPart whole (.seq first second) → IsPart whole first
  | second {first second : Rule} : IsPart whole (.seq first second) → IsPart whole second
  | node {kind : NodeKind} {body : Rule} : IsPart whole (.node kind body) → IsPart whole body
  | mark {body : Rule} : IsPart whole (.mark body) → IsPart whole body
  | wrap {kind : NodeKind} {body : Rule} : IsPart whole (.wrap kind body) → IsPart whole body
  | yes {test : Lookahead → Bool} {yes no : Rule} :
    IsPart whole (.branch test yes no) → IsPart whole yes
  | no {test : Lookahead → Bool} {yes no : Rule} :
    IsPart whole (.branch test yes no) → IsPart whole no
  | loop {stop : Lookahead → Bool} {body : Rule} :
    IsPart whole (.loop stop body) → IsPart whole body
  | otherwise {level : Nesting} {otherwise : Rule} :
    IsPart whole (.nest level otherwise) → IsPart whole otherwise

/-- The parts of the grammar: its productions, and what they are made of. -/
def Rule.InGrammar (r : Rule) : Prop := file.IsPart r ∨ ∃ level, (nested level).IsPart r

/-- A place in the innermost node only allows more. -/
lemma Rule.wellFormed_placed {r : Rule} {placed : Bool} (h : r.wellFormed placed = true) :
    r.wellFormed true = true := by
  cases placed with
  | true => exact h
  | false =>
    induction r with
    | done | bump | skip | report => rfl
    | seq first second ih₁ ih₂ =>
      rw [wellFormed, Bool.and_eq_true] at h ⊢
      exact ⟨ih₁ h.1, ih₂ h.2⟩
    | node | mark => exact h
    | wrap => exact absurd h Bool.false_ne_true
    | branch test yes no ih₁ ih₂ =>
      rw [wellFormed, Bool.and_eq_true] at h ⊢
      exact ⟨ih₁ h.1, ih₂ h.2⟩
    | loop stop body ih =>
      rw [wellFormed, Bool.and_eq_true] at h ⊢
      exact ⟨h.1, ih h.2⟩
    | nest level otherwise ih =>
      rw [wellFormed, Bool.and_eq_true] at h ⊢
      exact ⟨Bool.or_true _, ih h.2⟩

/-- The parts of a well-formed rule are well formed, be it with a place or without.

**Proof sketch.** Induction on the way from the rule to its part. -/
lemma Rule.IsPart.exists_wellFormed {whole r : Rule} {placed : Bool}
    (hwhole : whole.wellFormed placed = true) (h : whole.IsPart r) :
    ∃ placed, r.wellFormed placed = true := by
  induction h with
  | self => exact ⟨placed, hwhole⟩
  | first _ ih | yes _ ih =>
    obtain ⟨placed, h⟩ := ih
    rw [wellFormed, Bool.and_eq_true] at h
    exact ⟨placed, h.1⟩
  | second _ ih | no _ ih | loop _ ih | otherwise _ ih =>
    obtain ⟨placed, h⟩ := ih
    rw [wellFormed, Bool.and_eq_true] at h
    exact ⟨placed, h.2⟩
  | node _ ih =>
    obtain ⟨_, h⟩ := ih
    exact ⟨false, h⟩
  | mark _ ih =>
    obtain ⟨_, h⟩ := ih
    exact ⟨true, h⟩
  | wrap _ ih =>
    obtain ⟨_, h⟩ := ih
    rw [wellFormed, Bool.and_eq_true] at h
    exact ⟨false, h.2⟩

/-- Every part of the grammar is well formed where a place is remembered. -/
lemma Rule.InGrammar.wellFormed {r : Rule} (h : r.InGrammar) : r.wellFormed true = true := by
  rcases h with h | ⟨level, h⟩
  · obtain ⟨_, h⟩ := h.exists_wellFormed wellFormed_file
    exact wellFormed_placed h
  · obtain ⟨_, h⟩ := h.exists_wellFormed (wellFormed_nested level)
    exact wellFormed_placed h

/-! ## Balance -/

/-- A place lies in the innermost node: it was saved at its depth, and not behind its children. -/
def State.Holds (s : State) (place : Checkpoint) : Prop :=
  place.depth = s.builder.depth ∧ place.size ≤ s.builder.top.children.size

/-- What running a part of the grammar leaves as it was: the innermost node and the frames around
it, the nesting counter, and the record of faults; and of the stream only the first pending tokens
are taken, which the cursor counts. -/
structure Balanced (s s' : State) : Prop where
  /-- The innermost node is still the same one. -/
  kind_eq : s'.builder.top.kind = s.builder.top.kind
  /-- The frames around it are as they were. -/
  below_eq : s'.builder.below = s.builder.below
  /-- The nesting counter is as it was. -/
  nesting_eq : s'.depth = s.depth
  /-- No step of the builder was out of place. -/
  fault_eq : s'.fault = s.fault
  /-- The cursor does not move back. -/
  cursor_le : s.cursor ≤ s'.cursor
  /-- Every token taken is counted, and none is taken twice or left out. -/
  pending_eq : pending s'.ahead = (pending s.ahead).drop (s'.cursor - s.cursor)
  /-- No token is counted that was not there. -/
  count_eq : s'.cursor + (pending s'.ahead).length = s.cursor + (pending s.ahead).length

/-- Every place in the innermost node of a state is one that surroundings are around. -/
lemma State.Holds.exists_around {s : State} {place : Checkpoint} (h : s.Holds place) :
    ∃ (c : Surroundings) (g : Gathering), c.around g = s ∧ c.place = place := by
  obtain ⟨ahead, endOffset, cursor, ⟨⟨kind, ⟨children⟩⟩, below, offset⟩, ⟨diagnostics⟩, fault,
    depth⟩ := s
  obtain ⟨hdepth, hsize⟩ := h
  refine ⟨⟨kind, children.take place.size, below, fault, depth⟩,
    ⟨ahead, endOffset, cursor, offset, diagnostics, children.drop place.size⟩, ?_, ?_⟩
  · simp [Surroundings.around]
  · have hlength : (children.take place.size).length = place.size := List.length_take_of_le hsize
    change Checkpoint.mk (below.length + 1) (children.take place.size).length = place
    rw [hlength]
    cases place
    cases hdepth
    rfl

/-- There is a place in the innermost node of every state. -/
lemma State.holds_checkpoint (s : State) : s.Holds s.builder.checkpoint := ⟨rfl, Nat.le_refl _⟩

/-- What is around a place is left alone. -/
lemma Surroundings.balanced_around (c : Surroundings) {n : Nat} {g g' : Gathering}
    (h : g.Takes n g') : Balanced (c.around g) (c.around g') := by
  obtain ⟨hp, hc, hl⟩ := h
  refine ⟨rfl, rfl, rfl, rfl, ?_, ?_, ?_⟩
  · simp only [around_cursor, hc]
    omega
  · simp only [around_cursor, around_ahead, hc, hp, Nat.add_sub_cancel_left]
  · simp only [around_cursor, around_ahead, hc, hp, List.length_drop]
    omega

/-- **Running a part of the grammar is balanced**, from every state and with every room; a rule
that looks at the place that is remembered needs one in the innermost node, and it will still be
there. A loop ends by its own test.

**Proof sketch.** The state is that of a gathering in the surroundings of the place, so that the
run is what a derivation says, and derivations only take pending tokens. -/
theorem Rule.InGrammar.balanced {r : Rule} (hr : r.InGrammar) (room : Nat) {s : State}
    {place : Checkpoint} (hplace : r.wellFormed false = true ∨ s.Holds place) :
    Balanced s (r.run (descend nested room) place s) ∧
      (s.Holds place → (r.run (descend nested room) place s).Holds place) ∧
      ∀ stop body, r = .loop stop body →
        stop (r.run (descend nested room) place s).lookahead = true := by
  by_cases hholds : s.Holds place
  · -- What stands behind the place is what the rule may take over.
    obtain ⟨c, g, rfl, rfl⟩ := hholds.exists_around
    obtain ⟨g', hg'⟩ := exists_derives wellFormed_nested r hr.wellFormed g
    obtain ⟨n, hn⟩ := hg'.takes
    rw [hg'.run_around wellFormed_nested hr.wellFormed c c.place fun _ => rfl]
    refine ⟨c.balanced_around hn, fun _ => ⟨rfl, ?_⟩, ?_⟩
    · simp [Surroundings.around, Surroundings.place]
    · rintro stop body rfl
      exact hg'.stop_of_loop
  · -- The rule does not look at its place, so that any other will do.
    have hfree := hplace.resolve_right hholds
    obtain ⟨c, g, rfl, -⟩ := s.holds_checkpoint.exists_around
    obtain ⟨g', hg'⟩ := exists_derives wellFormed_nested r hfree g
    obtain ⟨n, hn⟩ := hg'.takes
    rw [hg'.run_around wellFormed_nested hfree c place fun h => absurd h Bool.false_ne_true]
    refine ⟨c.balanced_around hn, fun h => absurd h hholds, ?_⟩
    rintro stop body rfl
    exact hg'.stop_of_loop

end TxTree.Grammar

namespace TxTree

open Grammar

/-- The state after the last declaration is complete. -/
lemma runFile_complete (tokens : List Token) :
    (runFile tokens).fault = none ∧ (runFile tokens).depth = 0 ∧
      (runFile tokens).builder.below = [] ∧ (runFile tokens).builder.top.kind = .file ∧
      pending (runFile tokens).ahead = [] ∧
      (runFile tokens).cursor = (pending tokens).length := by
  obtain ⟨g, hg, hrun, hend⟩ := exists_derives_file tokens
  obtain ⟨n, hp, hc, hl⟩ := hg.takes
  rw [hrun]
  refine ⟨rfl, rfl, rfl, rfl, hend, ?_⟩
  have hlength : (pending tokens).length - n = 0 := by
    rw [← List.length_drop, ← List.length_nil, ← hend, hp]
    rfl
  change g.cursor = (pending tokens).length
  change g.cursor = 0 + n at hc
  change n ≤ (pending tokens).length at hl
  omega

end TxTree
