import TxTree.Grammar.Indexed
import TxTree.Proofs.Balance

set_option relaxedAutoImplicit false
set_option autoImplicit false

/-!
# The indices of a parse stay in range

A parse by indices does the same as one that takes a stream apart. What is ahead of a state is the
rest of the stream, so that one index is the number of tokens before it, and another the number of
the pending ones among these; the frames of the builder are those on the stack, from the last to the
first. Each move reads only what is behind an index that is in range, and takes the indices of a
state to those of the next one.

Two moves may be out of place. Neither is where a part of the grammar is run: a node is opened at a
place only if that lies in the innermost node, and is finished only if it was opened before. So the
induction over derivations that says what a run does also says that a parse by indices does the
same, and that it comes to an end.

## Main definitions

* `TxTree.Grammar.State.Reads` — whether a state stands in a stream of tokens.
* `TxTree.Grammar.State.indexed` — the indices of a state, and the stack of its frames.

## Main results

* `TxTree.Grammar.State.Reads.token?` — behind each further number is the pending token there.
* `TxTree.Grammar.Derives.run?_around` — a parse by indices does what is derived.
* `TxTree.parseTokens?_eq` — it has the tree and the diagnostics of the stream.
* `TxTree.parse_balanced` — no fault, no frame left open, no token left over, no index out of range.
-/

namespace TxTree.Grammar

/-! ## Numbers of tokens -/

/-- The tokens that are numbered are the pending ones. -/
lemma map_fst_filter_zipIdx (tokens : List Token) (k : Nat) :
    ((tokens.zipIdx k).filter fun entry => !entry.1.isTrivia).map (·.1) = pending tokens := by
  have hall : (tokens.zipIdx k).map (·.1) = tokens := List.zipIdx_map_fst k tokens
  have hfilter := List.filter_map (p := fun t : Token => !t.isTrivia) (f := (·.1))
    (l := tokens.zipIdx k)
  rw [hall] at hfilter
  exact hfilter.symm

lemma length_indices (tokens : List Token) : (indices tokens).length = (pending tokens).length := by
  rw [indices, List.length_map, ← map_fst_filter_zipIdx tokens 0, List.length_map]

/-- Behind each number stands the pending token of which it is the number. -/
lemma token?_indices (tokens : List Token) (k : Nat) :
    (match (indices tokens)[k]? with
      | none => some none
      | some i => tokens[i]?.map some) = some (pending tokens)[k]? := by
  rw [indices, ← map_fst_filter_zipIdx tokens 0, List.getElem?_map, List.getElem?_map]
  cases hentry : (tokens.zipIdx.filter fun entry => !entry.1.isTrivia)[k]? with
  | none => rfl
  | some entry =>
    have hmem := (List.mem_filter.1 (List.mem_of_getElem? hentry)).1
    have hthere := List.mem_zipIdx_iff_getElem?.1 hmem
    simp only [Option.map_some, hthere]

section Indices

variable {taken rest : List Token} {t : Token}

/-- The next number is that of the next pending token, … -/
lemma getElem?_indices_cons (ht : t.isTrivia = false) :
    (indices (taken ++ t :: rest))[(pending taken).length]? = some taken.length := by
  have hlength : ((taken.zipIdx.filter fun entry => !entry.1.isTrivia).map (·.2)).length =
      (pending taken).length := length_indices taken
  rw [indices, List.zipIdx_append, List.filter_append, List.map_append, ← hlength,
    List.getElem?_append_right (Nat.le_refl _), Nat.sub_self, List.zipIdx_cons]
  simp [ht]

/-- … if there is one. -/
lemma getElem?_indices_nil (h : pending rest = []) :
    (indices (taken ++ rest))[(pending taken).length]? = none := by
  rw [List.getElem?_eq_none_iff, length_indices, pending_append, h, List.append_nil]

end Indices

/-! ## The indices of a state -/

namespace State

/-- **A state reads a stream of tokens** if what is ahead is the rest of the stream, the cursor
counts the pending tokens before that, and the text ends where the stream does. -/
def Reads (tokens : List Token) (s : State) : Prop :=
  ∃ taken : List Token, tokens = taken ++ s.ahead ∧ s.cursor = (pending taken).length ∧
    s.endOffset = endOf tokens

/-- **The indices of a state** into a stream of tokens, and the stack of its frames. -/
def indexed (tokens : List Token) (s : State) : Indexed where
  tokens := tokens
  significant := indices tokens
  cursor := s.cursor
  emitted := tokens.length - s.ahead.length
  stack := s.builder.below.reverse ++ [s.builder.top]
  offset := s.builder.offset
  diagnostics := s.diagnostics
  depth := s.depth

variable {tokens : List Token} {s : State}

lemma cursor_indexed : (s.indexed tokens).cursor = s.cursor := rfl

lemma reads_ofTokens (tokens : List Token) : (ofTokens tokens).Reads tokens := ⟨[], rfl, rfl, rfl⟩

lemma indexed_ofTokens (tokens : List Token) :
    (ofTokens tokens).indexed tokens = Indexed.ofTokens tokens := by
  simp [indexed, ofTokens, Indexed.ofTokens]

/-! ### Looking -/

/-- What comes next is told by the next two pending tokens. -/
lemma lookahead_eq : s.lookahead =
    ⟨(pending s.ahead)[0]?.map (·.kind), (pending s.ahead)[1]?.map (·.kind)⟩ := by
  rw [← List.head?_eq_getElem?]
  exact Gathering.lookahead_eq (g := ⟨s.ahead, s.endOffset, s.cursor, 0, [], []⟩)

namespace Reads

/-- Behind each further number is the pending token that far ahead. -/
lemma token? (h : s.Reads tokens) (n : Nat) :
    (s.indexed tokens).token? n = some (pending s.ahead)[n]? := by
  obtain ⟨taken, htokens, hcursor, -⟩ := h
  have hpending : (pending tokens)[s.cursor + n]? = (pending s.ahead)[n]? := by
    rw [htokens, hcursor, pending_append, List.getElem?_append_right (Nat.le_add_right ..),
      Nat.add_sub_cancel_left]
  rw [← hpending]
  exact token?_indices tokens (s.cursor + n)

/-- There are as many further numbers as there are pending tokens. -/
lemma left_indexed (h : s.Reads tokens) :
    (s.indexed tokens).significant.length - (s.indexed tokens).cursor =
      (pending s.ahead).length := by
  obtain ⟨taken, htokens, hcursor, -⟩ := h
  change (indices tokens).length - s.cursor = _
  rw [length_indices, hcursor, htokens, pending_append, List.length_append,
    Nat.add_sub_cancel_left]

lemma lookahead? (h : s.Reads tokens) : (s.indexed tokens).lookahead? = some s.lookahead := by
  rw [Indexed.lookahead?, h.token?, h.token?, lookahead_eq]
  rfl

lemma currentSpan? (h : s.Reads tokens) :
    (s.indexed tokens).currentSpan? = some s.currentSpan := by
  rw [Indexed.currentSpan?, h.token?, ← List.head?_eq_getElem?, State.currentSpan]
  obtain ⟨taken, -, -, hend⟩ := h
  cases hs : significant s.ahead with
  | nil =>
    rw [significant_eq_nil_iff.1 hs, hend]
    rfl
  | cons t rest =>
    rw [pending_of_significant hs]
    rfl

lemma report? (h : s.Reads tokens) (message : String) :
    (s.indexed tokens).report? message = some ((s.report message).indexed tokens) := by
  rw [Indexed.report?, h.currentSpan?]
  rfl

end Reads

/-! ### Frames -/

/-- There always is an innermost frame. -/
lemma top?_indexed : (s.indexed tokens).top? = some s.builder.top := by
  simp [Indexed.top?, indexed]

lemma modifyTop?_indexed (f : Frame → Frame) :
    (s.indexed tokens).modifyTop? f = some
      (({ s with builder := { s.builder with top := f s.builder.top } } : State).indexed
        tokens) := by
  rw [Indexed.modifyTop?, top?_indexed]
  simp [indexed]

lemma push?_indexed (child : Element) :
    (s.indexed tokens).push? child =
      some (({ s with builder := s.builder.push child } : State).indexed tokens) :=
  modifyTop?_indexed _

lemma checkpoint_indexed : (s.indexed tokens).checkpoint = s.builder.checkpoint := by
  simp [Indexed.checkpoint, indexed, Builder.checkpoint, Builder.depth]

/-- A frame is put on the stack where a node is opened. -/
lemma indexed_open (frame : Frame) :
    { s.indexed tokens with stack := (s.indexed tokens).stack ++ [frame] } =
      ({ s with
          builder := { s.builder with top := frame, below := s.builder.top :: s.builder.below } } :
        State).indexed tokens := by
  simp [indexed]

/-- A node may be opened at a place that lies in the innermost node. -/
lemma Holds.startAt? {place : Checkpoint} (h : s.Holds place) (kind : NodeKind) :
    (s.indexed tokens).startAt? place kind = some ((s.startAt place kind).indexed tokens) := by
  obtain ⟨hdepth, hsize⟩ := h
  have hlength : (s.indexed tokens).stack.length = place.depth := by
    simp [indexed, hdepth, Builder.depth]
  rw [Indexed.startAt?, if_neg (by rw [hlength]; exact not_not_intro rfl), top?_indexed]
  simp only [Option.bind_eq_bind, Option.bind_some, modifyTop?_indexed, Nat.min_eq_left hsize]
  exact congrArg some (indexed_open _)

/-- The innermost frame is taken off the stack where a node is finished. -/
lemma indexed_close {outer : Frame} {below : List Frame} (h : s.builder.below = outer :: below) :
    { s.indexed tokens with stack := (s.indexed tokens).stack.dropLast } =
      ({ s with builder := { s.builder with top := outer, below := below } } : State).indexed
        tokens := by
  simp [indexed, h]

/-- A node may be finished if there is one beside the root. -/
lemma finishNode?_indexed (h : s.builder.below ≠ []) :
    (s.indexed tokens).finishNode? = some (s.finishNode.indexed tokens) := by
  obtain ⟨outer, below, hbelow⟩ := List.exists_cons_of_ne_nil h
  have hlength : ¬(s.indexed tokens).stack.length ≤ 1 := by simp [indexed, hbelow]
  have htop : (s.indexed tokens).stack.getLast? = some s.builder.top := List.getLast?_concat
  rw [Indexed.finishNode?, if_neg hlength, htop]
  simp only [Option.bind_eq_bind, Option.bind_some, indexed_close hbelow, push?_indexed]
  simp only [State.finishNode, Builder.finishNode, hbelow]
  rfl

/-- All frames close to the root. -/
lemma root?_indexed : (s.indexed tokens).root? = some s.builder.finish := by
  obtain ⟨ahead, endOffset, cursor, ⟨top, below, offset⟩, diagnostics, fault, depth⟩ := s
  induction below generalizing top fault with
  | nil => exact loop?_of_done rfl
  | cons outer below ih =>
    refine (loop?_of_step ?_ ?_).trans (ih fault _)
    · rw [if_pos (by simp [indexed]), finishNode?_indexed (List.cons_ne_nil _ _)]
      rfl
    · simp [indexed]

/-! ### Tokens -/

lemma attach?_indexed (t : Token) :
    (s.indexed tokens).attach? t = some ((s.attach t).indexed tokens) := by
  rw [Indexed.attach?, push?_indexed]
  rfl

/-- As many tokens reached the tree as are before what is ahead. -/
lemma emitted_indexed {taken : List Token} (h : tokens = taken ++ s.ahead) :
    (s.indexed tokens).emitted = taken.length := by
  simp [indexed, h]

/-- One more token reached the tree where one less is ahead. -/
lemma indexed_passed {taken ahead : List Token} {t : Token} (htokens : tokens = taken ++ s.ahead)
    (hahead : s.ahead = t :: ahead) :
    { s.indexed tokens with emitted := (s.indexed tokens).emitted + 1 } =
      ({ s with ahead } : State).indexed tokens := by
  have hlength : tokens.length - s.ahead.length + 1 = tokens.length - ahead.length := by
    rw [htokens, hahead, List.length_append, List.length_cons]
    omega
  simp only [indexed, hlength]

/-- What is ahead is no matter to the tokens that reach the tree. -/
lemma attachAll_with_ahead (s : State) (ahead now : List Token) :
    ({ s with ahead } : State).attachAll now = { s.attachAll now with ahead } := by
  induction now generalizing s with
  | nil => rfl
  | cons t now ih => exact ih (s.attach t)

/-- The tokens before a number reach the tree, each of them there.

**Proof sketch.** Induction on the tokens that are still to reach the tree. -/
lemma emitUntil?_indexed {taken now rest : List Token} (htokens : tokens = taken ++ s.ahead)
    (hahead : s.ahead = now ++ rest) :
    (s.indexed tokens).emitUntil? (taken ++ now).length =
      some ((({ s with ahead := rest } : State).attachAll now).indexed tokens) := by
  induction now generalizing taken s with
  | nil =>
    have hdone : ¬(s.indexed tokens).emitted < (taken ++ []).length := by
      rw [emitted_indexed htokens, List.append_nil]
      exact Nat.lt_irrefl _
    obtain rfl : s.ahead = rest := hahead
    exact loop?_of_done (if_neg hdone)
  | cons t now ih =>
    have hemitted := emitted_indexed htokens
    have hthere : (s.indexed tokens).tokens[(s.indexed tokens).emitted]? = some t := by
      change tokens[(s.indexed tokens).emitted]? = some t
      rw [hemitted, htokens, hahead, List.getElem?_append_right (Nat.le_refl _), Nat.sub_self]
      rfl
    have hmore : (s.indexed tokens).emitted < (taken ++ t :: now).length := by
      rw [hemitted, List.length_append, List.length_cons]
      omega
    have hnext : tokens = taken ++ [t] ++ (now ++ rest) := by
      rw [htokens, hahead, List.append_assoc]
      rfl
    have hpassed := indexed_passed (s := s.attach t) htokens hahead
    have hlater := ih (s := { s.attach t with ahead := now ++ rest }) hnext rfl
    rw [List.append_assoc, List.singleton_append] at hlater
    refine (loop?_of_step ?_ ?_).trans hlater
    · rw [if_pos hmore, hthere]
      simp only [Option.bind_eq_bind, Option.bind_some, attach?_indexed]
      exact congrArg (fun x => some (Sum.inl x)) hpassed
    · rw [emitted_indexed hnext, hemitted]
      simp only [List.length_append, List.length_cons, List.length_nil]
      omega

namespace Reads

/-- What consumes tokens goes on reading the stream.

**Proof sketch.** The cursor counts the pending tokens that are taken, and these are the pending
ones among those that leave the stream. -/
lemma consumes {c c' : Surroundings} {n : Nat} {ts : List Token} {g g' : Gathering}
    (h : (c.around g).Reads tokens) (htakes : g.Takes n g') (hconsumes : g.Consumes ts g') :
    (c'.around g').Reads tokens := by
  obtain ⟨taken, htokens, hcursor, hend⟩ := h
  obtain ⟨hpending, hcount, hle⟩ := htakes
  have hlength : n = (pending ts).length := by
    have hall := congrArg (fun ts => (pending ts).length) hconsumes.ahead_eq
    have hrest := congrArg List.length hpending
    simp only [pending_append, List.length_append] at hall
    rw [List.length_drop] at hrest
    omega
  refine ⟨taken ++ ts, ?_, ?_, hconsumes.endOffset_eq.trans hend⟩
  · rw [htokens, List.append_assoc]
    exact congrArg (taken ++ ·) hconsumes.ahead_eq
  · change g'.cursor = _
    change g.cursor = _ at hcursor
    rw [pending_append, List.length_append, hcount, hcursor, hlength]

/-- The next number is that of the next pending token, … -/
lemma number_of_cons {taken rest : List Token} {t : Token} (htokens : tokens = taken ++ s.ahead)
    (hcursor : s.cursor = (pending taken).length) (hs : significant s.ahead = t :: rest) :
    (s.indexed tokens).significant[(s.indexed tokens).cursor]? =
      some (taken ++ s.ahead.takeWhile (·.isTrivia)).length := by
  have hcount : s.cursor = (pending (taken ++ s.ahead.takeWhile (·.isTrivia))).length := by
    rw [pending_append, pending_takeWhile, List.append_nil, hcursor]
  have hsplit : tokens = taken ++ s.ahead.takeWhile (·.isTrivia) ++ t :: rest := by
    rw [← hs, List.append_assoc, takeWhile_append_significant, htokens]
  change (indices tokens)[s.cursor]? = _
  rw [hcount, hsplit]
  exact getElem?_indices_cons (not_isTrivia_of_significant hs)

/-- … and at the end there is none. -/
lemma number_of_nil (h : s.Reads tokens) (hs : significant s.ahead = []) :
    (s.indexed tokens).significant[(s.indexed tokens).cursor]? = none := by
  obtain ⟨taken, htokens, hcursor, -⟩ := h
  change (indices tokens)[s.cursor]? = none
  rw [hcursor, htokens]
  exact getElem?_indices_nil (significant_eq_nil_iff.1 hs)

/-- The white space and comments before the next token reach the tree. -/
lemma flush? (h : s.Reads tokens) : (s.indexed tokens).flush? = some (s.flush.indexed tokens) := by
  have hread := h
  obtain ⟨taken, htokens, hcursor, -⟩ := h
  have hstop : (s.indexed tokens).significant[(s.indexed tokens).cursor]?.getD tokens.length =
      (taken ++ s.ahead.takeWhile (·.isTrivia)).length := by
    cases hs : significant s.ahead with
    | nil =>
      have hall := takeWhile_append_significant s.ahead
      rw [hs, List.append_nil] at hall
      rw [hread.number_of_nil hs, hall, Option.getD_none, htokens]
    | cons t rest => rw [number_of_cons htokens hcursor hs, Option.getD_some]
  change (s.indexed tokens).emitUntil?
    ((s.indexed tokens).significant[(s.indexed tokens).cursor]?.getD tokens.length) = _
  rw [hstop]
  exact emitUntil?_indexed htokens (takeWhile_append_significant s.ahead).symm

lemma flush (h : s.Reads tokens) : s.flush.Reads tokens := by
  obtain ⟨c, g, rfl, -⟩ := s.holds_checkpoint.exists_around
  have htakes : g.Takes 0 g.flush := ⟨by simp, by simp, Nat.zero_le _⟩
  rw [c.around_flush]
  exact h.consumes htakes (.flush g)

/-- The next token is taken. -/
lemma bump? (h : s.Reads tokens) : (s.indexed tokens).bump? = some (s.bump.indexed tokens) := by
  cases hs : significant s.ahead with
  | nil =>
    rw [Indexed.bump?, h.number_of_nil hs, State.bump, hs]
    rfl
  | cons t rest =>
    obtain ⟨taken, htokens, hcursor, -⟩ := h
    have hsplit : s.ahead = s.ahead.takeWhile (·.isTrivia) ++ [t] ++ rest := by
      rw [List.append_assoc, List.singleton_append, ← hs, takeWhile_append_significant]
    have hemit := emitUntil?_indexed htokens hsplit
    rw [← List.append_assoc, List.length_append, List.length_singleton] at hemit
    rw [Indexed.bump?, number_of_cons htokens hcursor hs, State.bump, hs]
    have hsame : ({ s with ahead := rest } : State).attachAll
        (s.ahead.takeWhile (·.isTrivia) ++ [t]) = { s.flush.attach t with ahead := rest } := by
      rw [State.flush, attachAll_with_ahead s rest, attachAll_with_ahead s (significant s.ahead),
        attachAll, List.foldl_append]
      rfl
    rw [hsame] at hemit
    simp only [hemit, Option.bind_eq_bind, Option.bind_some]
    rfl

/-- All that is left of the stream reaches the tree. -/
lemma finish? (h : s.Reads tokens) :
    (s.indexed tokens).emitUntil? tokens.length = some (s.finish.indexed tokens) := by
  obtain ⟨taken, htokens, -⟩ := h
  have hemit := emitUntil?_indexed htokens (List.append_nil s.ahead).symm
  rwa [← htokens] at hemit

lemma start? (h : s.Reads tokens) (kind : NodeKind) :
    (s.indexed tokens).start? kind = some ((s.start kind).indexed tokens) := by
  rw [Indexed.start?, h.flush?]
  exact congrArg some (indexed_open _)

lemma start (h : s.Reads tokens) (kind : NodeKind) : (s.start kind).Reads tokens := h.flush

/-- The next token is passed over. -/
lemma skip? (h : s.Reads tokens) : (s.indexed tokens).skip? = some (s.skip.indexed tokens) := by
  rw [Indexed.skip?, h.token?, State.skip, lookahead_eq]
  cases (pending s.ahead)[0]? with
  | none => rfl
  | some t =>
    have hbelow : (s.start .error).bump.builder.below ≠ [] := by
      obtain ⟨c, g, rfl, -⟩ := s.holds_checkpoint.exists_around
      rw [c.around_start, Surroundings.around_bump]
      exact List.cons_ne_nil _ _
    simp only [Option.bind_eq_bind, Option.bind_some, h.start?, (h.start .error).bump?,
      finishNode?_indexed hbelow]
    rfl

end Reads

end State

/-! ## What is derived -/

section Runs

variable {rules : Nesting → Rule} {room : Nat} {tokens : List Token}

/-- What is derived goes on reading the stream. -/
lemma Derives.reads {r : Rule} {c c' : Surroundings} {g g' : Gathering}
    (hd : Derives rules room r g g') (h : (c.around g).Reads tokens) :
    (c'.around g').Reads tokens := by
  obtain ⟨n, hn⟩ := hd.takes
  obtain ⟨ts, hts⟩ := hd.consumes
  exact h.consumes hn hts

/-- So does a step of a loop that may be followed by passing over a token. -/
lemma State.Reads.progress {c : Surroundings} {g : Gathering} (h : (c.around g).Reads tokens)
    (cursor : Nat) : (c.around (g.progress cursor)).Reads tokens := by
  obtain ⟨n, hn⟩ := Gathering.takes_progress g cursor
  obtain ⟨ts, hts⟩ := Gathering.Consumes.progress g cursor
  exact h.consumes hn hts

/-- A step of a loop may be followed by passing over a token. -/
lemma Surroundings.progress?_around (c : Surroundings) {g : Gathering}
    (h : (c.around g).Reads tokens) (cursor : Nat) :
    ((c.around g).indexed tokens).progress? cursor =
      some ((c.around (g.progress cursor)).indexed tokens) := by
  rw [Indexed.progress?, Gathering.progress, State.cursor_indexed, around_cursor]
  split
  · rw [h.skip?, around_skip]
  · rfl

/-- There is a node to finish inside any node. -/
lemma Surroundings.finishNode?_inside (c : Surroundings) (g : Gathering) (kind : NodeKind) :
    (((c.inside kind).around g).indexed tokens).finishNode? =
      some ((c.around (g.enclose kind)).indexed tokens) := by
  rw [State.finishNode?_indexed (List.cons_ne_nil _ _), around_finishNode]

/-- **A parse by indices does what is derived** of a well-formed rule, and nothing fails.

**Proof sketch.** Induction on the derivation, as for a run. Every place is in the innermost node
where it is looked at, and there is a node to finish wherever one was opened. -/
theorem Derives.run?_around (hrules : ∀ level, (rules level).wellFormed level.wraps = true)
    {r : Rule} {g g' : Gathering} (h : Derives rules room r g g') {placed : Bool}
    (hr : r.wellFormed placed = true) (c : Surroundings) (place : Checkpoint)
    (hplace : placed = true → place = c.place) {limit : Nat} (hroom : limit - c.depth = room)
    (hreads : (c.around g).Reads tokens) :
    Indexed.run? (Indexed.descend? rules limit room) limit place ((c.around g).indexed tokens) r =
      some ((c.around g').indexed tokens) := by
  induction h generalizing placed c place with
  | done => rw [Indexed.run?]
  | @seq room first second g g₁ g₂ h₁ _ ih₁ ih₂ =>
    rw [Rule.wellFormed, Bool.and_eq_true] at hr
    rw [Indexed.run?]
    simp only [ih₁ hr.1 c place hplace hroom hreads, Option.bind_eq_bind, Option.bind_some]
    exact ih₂ hr.2 c place hplace hroom (h₁.reads hreads)
  | bump =>
    rw [Indexed.run?, hreads.bump?, c.around_bump]
  | skip =>
    rw [Indexed.run?, hreads.skip?, c.around_skip]
  | report =>
    rw [Indexed.run?, hreads.report?, c.around_report]
  | @node room kind body g g₁ _ ih =>
    have hstart := hreads.start kind
    rw [c.around_start] at hstart
    have hbody := ih hr ((c.past g.flush.children).inside kind) place (by simp) hroom hstart
    rw [Indexed.run?]
    simp only [hreads.start?, c.around_start, hbody, Option.bind_eq_bind, Option.bind_some]
    rw [Surroundings.finishNode?_inside, c.around_past]
  | @mark room body g g₁ _ ih =>
    have hflush := hreads.flush
    rw [c.around_flush, ← c.around_fresh] at hflush
    have hbody := ih hr (c.past g.flush.children) _ (fun _ => rfl) hroom hflush
    rw [Indexed.run?]
    simp only [hreads.flush?, Option.bind_eq_bind, Option.bind_some, State.checkpoint_indexed]
    rw [c.around_flush, c.checkpoint_around, ← c.around_fresh, hbody, c.around_past]
  | @wrap room kind body g g₁ _ ih =>
    rw [Rule.wellFormed, Bool.and_eq_true] at hr
    have hholds : (c.around g).Holds c.place := by
      refine ⟨rfl, ?_⟩
      simp [Surroundings.around, Surroundings.place]
    have hbody := ih hr.2 (c.inside kind) c.place (by simp) hroom hreads
    obtain rfl := hplace hr.1
    rw [Indexed.run?]
    simp only [hholds.startAt?, c.around_startAt, hbody, Option.bind_eq_bind, Option.bind_some]
    exact c.finishNode?_inside g₁ kind
  | @yes room test yes no g g₁ htest _ ih =>
    rw [Rule.wellFormed, Bool.and_eq_true] at hr
    rw [Indexed.run?]
    simp only [hreads.lookahead?, Option.bind_eq_bind, Option.bind_some, c.around_lookahead, htest]
    exact ih hr.1 c place hplace hroom hreads
  | @no room test yes no g g₁ htest _ ih =>
    rw [Rule.wellFormed, Bool.and_eq_true] at hr
    rw [Indexed.run?]
    simp only [hreads.lookahead?, Option.bind_eq_bind, Option.bind_some, c.around_lookahead, htest]
    exact ih hr.2 c place hplace hroom hreads
  | stop hstop =>
    rw [Indexed.run?]
    refine loop?_of_done ?_
    simp only [hreads.lookahead?, Option.bind_eq_bind, Option.bind_some, c.around_lookahead, hstop]
    rfl
  | @step room stop body g g₁ g₂ hstop hbody _ ih₁ ih₂ =>
    have hr' := hr
    rw [Rule.wellFormed, Bool.and_eq_true] at hr'
    have hstep := ih₁ hr'.2 c place hplace hroom hreads
    have hreads₁ : (c.around g₁).Reads tokens := hbody.reads hreads
    have hreads₂ := hreads₁.progress g.cursor
    have hlater := ih₂ hr c place hplace hroom hreads₂
    rw [Indexed.run?] at hlater ⊢
    refine (loop?_of_step ?_ ?_).trans hlater
    · simp only [hreads.lookahead?, Option.bind_eq_bind, Option.bind_some, c.around_lookahead,
        hstop, hstep, Bool.false_eq_true, if_false, State.cursor_indexed, c.around_cursor,
        c.progress?_around hreads₁]
      rfl
    · obtain ⟨n, hn⟩ := hbody.takes
      rw [hreads₂.left_indexed, hreads.left_indexed]
      exact Gathering.length_progress_lt hn (pending_ne_nil_of_not_stop hr'.1 hstop)
  | @nest room level otherwise g g₁ _ ih =>
    rw [Rule.wellFormed, Bool.and_eq_true, Bool.or_eq_true, Bool.not_eq_true'] at hr
    have hinner : limit - c.deeper.depth = room := by
      change limit - (c.depth + 1) = room
      omega
    have hlevel : Indexed.descend? rules limit (room + 1) level place
        ((c.around g).indexed tokens).enter = some ((c.deeper.around g₁).indexed tokens) :=
      ih (hrules level) c.deeper place (fun hwraps => hplace (hr.1.resolve_left (by simp [hwraps])))
        hinner hreads
    have hlt : ((c.around g).indexed tokens).depth < limit := by
      change c.depth < limit
      omega
    rw [Indexed.run?, if_pos hlt, hlevel]
    rfl
  | @full level otherwise g g₁ _ ih =>
    rw [Rule.wellFormed, Bool.and_eq_true] at hr
    have hge : ¬((c.around g).indexed tokens).depth < limit := by
      change ¬c.depth < limit
      omega
    have hother := ih hr.2 c place hplace hroom hreads
    rw [← c.around_report] at hother
    rw [Indexed.run?]
    simp only [if_neg hge, hreads.report?, Option.bind_eq_bind, Option.bind_some]
    exact hother

end Runs

/-- **A part of the grammar that is run by indices** from a state that reads a stream leads to the
indices of the state to which the part leads, and that state goes on reading the stream; a rule that
looks at the place that is remembered needs one in the innermost node. -/
theorem Rule.InGrammar.run?_indexed {r : Rule} (hr : r.InGrammar) (limit : Nat)
    {tokens : List Token} {s : State} {place : Checkpoint} (hs : s.Reads tokens)
    (hplace : r.wellFormed false = true ∨ s.Holds place) :
    let s' := r.run (descend nested (limit - s.depth)) place s
    Indexed.run? (Indexed.descend? nested limit (limit - s.depth)) limit place (s.indexed tokens)
        r = some (s'.indexed tokens) ∧
      s'.Reads tokens := by
  intro s'
  by_cases hholds : s.Holds place
  · obtain ⟨c, g, rfl, rfl⟩ := hholds.exists_around
    obtain ⟨g', hg'⟩ := exists_derives wellFormed_nested r hr.wellFormed g
    have hrun : s' = c.around g' :=
      hg'.run_around wellFormed_nested hr.wellFormed c c.place fun _ => rfl
    rw [hrun]
    exact ⟨hg'.run?_around wellFormed_nested hr.wellFormed c c.place (fun _ => rfl) rfl hs,
      hg'.reads hs⟩
  · have hfree := hplace.resolve_right hholds
    obtain ⟨c, g, rfl, -⟩ := s.holds_checkpoint.exists_around
    obtain ⟨g', hg'⟩ := exists_derives wellFormed_nested r hfree g
    have hrun : s' = c.around g' := hg'.run_around wellFormed_nested hfree c place (by simp)
    rw [hrun]
    exact ⟨hg'.run?_around wellFormed_nested hfree c place (by simp) rfl hs, hg'.reads hs⟩

end TxTree.Grammar

namespace TxTree

open Grammar

/-- **A parse by indices has the tree and the diagnostics of a stream**: it comes to an end, no
index is out of range, and no move of the builder is out of place. -/
theorem parseTokens?_eq (tokens : List Token) :
    parseTokens? tokens = some (parseTokens tokens) := by
  obtain ⟨g, hg, hrun, -⟩ := exists_derives_file tokens
  have hstart : (Surroundings.root.around (.ofTokens tokens)).Reads tokens :=
    State.reads_ofTokens tokens
  have hfile := hg.run?_around wellFormed_nested wellFormed_file Surroundings.root
    (State.ofTokens tokens).builder.checkpoint (by simp) (Nat.sub_zero maxNesting) hstart
  have hreads : (Surroundings.root.around g).Reads tokens := hg.reads hstart
  change Indexed.run? _ _ _ ((State.ofTokens tokens).indexed tokens) _ = _ at hfile
  rw [← hrun, ← State.checkpoint_indexed (s := State.ofTokens tokens), State.indexed_ofTokens]
    at hfile
  rw [← hrun] at hreads
  rw [parseTokens?]
  simp only [hfile, hreads.finish?, State.root?_indexed, Option.bind_eq_bind, Option.bind_some]
  rfl

/-- **A parse is balanced and complete, and its indices are in range.** Every part of the grammar,
run from any state, leaves the open frames, the nesting counter and the record of faults as they
were, takes only pending tokens from the front, keeps the place that it was given, and ends its
loops by their own tests. A fault would be kept to the end. Run by indices from where a state stands
in a stream, every part comes to where the state comes, with no look at a token or a frame that is
not there. And at the end of a stream there is no fault: only the root is open, no nesting level is
entered, every token that is not white space or comment has been taken, and the parse by indices has
the same tree and diagnostics. -/
theorem parse_balanced :
    (∀ r : Rule, r.InGrammar → ∀ (room : Nat) (s : State) (place : Checkpoint),
      r.wellFormed false = true ∨ s.Holds place →
        Balanced s (r.run (descend nested room) place s) ∧
          (s.Holds place → (r.run (descend nested room) place s).Holds place) ∧
          ∀ stop body, r = .loop stop body →
            stop (r.run (descend nested room) place s).lookahead = true) ∧
      (∀ (r : Rule) (room : Nat) (s : State) (place : Checkpoint) (f : Builder.Fault),
        s.fault = some f → (r.run (descend nested room) place s).fault = some f) ∧
      (∀ r : Rule, r.InGrammar →
        ∀ (limit : Nat) (tokens : List Token) (s : State) (place : Checkpoint),
          s.Reads tokens → r.wellFormed false = true ∨ s.Holds place →
            let s' := r.run (descend nested (limit - s.depth)) place s
            Indexed.run? (Indexed.descend? nested limit (limit - s.depth)) limit place
                (s.indexed tokens) r = some (s'.indexed tokens) ∧
              s'.Reads tokens) ∧
      ∀ tokens : List Token,
        (runFile tokens).fault = none ∧ (runFile tokens).depth = 0 ∧
          (runFile tokens).builder.below = [] ∧ (runFile tokens).builder.top.kind = .file ∧
          pending (runFile tokens).ahead = [] ∧
          (runFile tokens).cursor = (pending tokens).length ∧
          parseTokens? tokens = some (parseTokens tokens) := by
  refine ⟨fun r hr room s place hplace => hr.balanced room hplace,
    fun r room s place f hf => (movesPreserve_fault f).run nested room r place hf,
    fun r hr limit tokens s place hs hplace => hr.run?_indexed limit hs hplace, fun tokens => ?_⟩
  obtain ⟨hfault, hdepth, hbelow, hkind, hpending, hcursor⟩ := runFile_complete tokens
  exact ⟨hfault, hdepth, hbelow, hkind, hpending, hcursor, parseTokens?_eq tokens⟩

/-- An expression with a bracket that is never closed: a part of the grammar that runs out of
tokens is balanced, too, and no index runs out of range. -/
theorem parse_balanced_unclosed :
    (nested .expression).InGrammar ∧
      Balanced (.ofTokens (tokenize "(1 +"))
        ((nested .expression).run (descend nested 2) ⟨1, 0⟩ (.ofTokens (tokenize "(1 +"))) ∧
      ∃ x, Indexed.run? (Indexed.descend? nested 2 2) 2 ⟨1, 0⟩ (.ofTokens (tokenize "(1 +"))
        (nested .expression) = some x := by
  have hpart : (nested .expression).InGrammar := .inr ⟨.expression, .self⟩
  have hbalanced := parse_balanced
  refine ⟨hpart, (hbalanced.1 _ hpart 2 _ ⟨1, 0⟩ (.inl rfl)).1, ?_⟩
  have hindexed := hbalanced.2.2.1 _ hpart 2 _ _ ⟨1, 0⟩ (State.reads_ofTokens (tokenize "(1 +"))
    (.inl rfl)
  rw [State.indexed_ofTokens] at hindexed
  exact ⟨_, hindexed.1⟩

end TxTree
