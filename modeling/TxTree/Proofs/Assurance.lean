import TxTree.Proofs.Findings
import TxTree.Proofs.Plain

set_option relaxedAutoImplicit false
set_option autoImplicit false

/-!
# What rules assure

Of a parse seen from inside one node, most properties depend on little: what comes next, the parts
gathered so far, and whether an error was reported just now. Such a *view* can be followed through
a rule without running it. What a rule has to assure so that all it leads to has a property is read
off the rule, as a condition on the view before it; nothing but the nesting levels must be known
beforehand, and for them it is enough that each keeps a *contract* if all others do.

Along the way every node that is made is held to a law, and every token that is passed over must
have been reported: at a loop whose step takes no token this means that the step found an error
there.

## Main definitions

* `TxTree.Node.parts` — the children of a node without white space and comments.
* `TxTree.Grammar.View` — what is known of a parse.
* `TxTree.Grammar.Contract` — a law for nodes, and what the nesting levels start from and make.
* `TxTree.Grammar.Rule.Assures` — the condition under which a rule leads to a property.
* `TxTree.Grammar.Contract.Kept` — the rules of the nesting levels keep the contract.

## Main results

* `TxTree.Grammar.Derives.assured` — what a rule assures holds of all that is derived.
* `TxTree.Grammar.Rule.Assures.mono` — what assures more assures less.
-/

namespace TxTree

/-! ## Parts -/

namespace Element

/-- Children without white space and comments. -/
def parts (cs : List Element) : List Element := cs.filter (!·.isTrivia)

@[simp] lemma parts_append (cs ds : List Element) : parts (cs ++ ds) = parts cs ++ parts ds :=
  List.filter_append ..

@[simp] lemma parts_node (n : Node) : parts [.node n] = [.node n] := rfl

lemma parts_token {t : Token} (h : t.isTrivia = false) : parts [.token t] = [.token t] :=
  List.filter_cons_of_pos (by simp [isTrivia, h])

/-- White space and comments have no part. -/
lemma parts_map_token {tokens : List Token} (h : ∀ t ∈ tokens, t.isTrivia) :
    parts (tokens.map .token) = [] := by
  rw [parts, List.filter_eq_nil_iff]
  intro c hc
  obtain ⟨t, ht, rfl⟩ := List.mem_map.1 hc
  simp [isTrivia, h t ht]

/-- The tokens among some children. -/
lemma mem_tokens_iff {t : Token} {cs : List Element} : t ∈ cs.filterMap token? ↔ .token t ∈ cs := by
  refine List.mem_filterMap.trans ⟨?_, fun h => ⟨_, h, rfl⟩⟩
  rintro ⟨c, hc, hct⟩
  cases c with
  | token u =>
    cases hct
    exact hc
  | node n => cases hct

/-- The nodes among some children. -/
lemma mem_nodes_iff {n : Node} {cs : List Element} : n ∈ cs.filterMap node? ↔ .node n ∈ cs := by
  refine List.mem_filterMap.trans ⟨?_, fun h => ⟨_, h, rfl⟩⟩
  rintro ⟨c, hc, hcn⟩
  cases c with
  | token t => cases hcn
  | node m =>
    cases hcn
    exact hc

end Element

namespace Node

/-- The parts of a node: its children without white space and comments. -/
def parts (n : Node) : List Element := Element.parts n.children

/-- The child nodes of a node are the nodes among its parts, … -/
lemma childNodes_eq (n : Node) : n.childNodes = n.parts.filterMap Element.node? := by
  rw [childNodes, parts, Element.parts, List.filterMap_filter]
  refine List.filterMap_congr fun c _ => ?_
  cases c <;> simp [Element.isTrivia, Element.node?]

/-- … and its significant tokens are the tokens among them. -/
lemma significantTokens_eq (n : Node) : n.significantTokens = n.parts.filterMap Element.token? := by
  rw [significantTokens, childTokens, parts, Element.parts, List.filterMap_filter,
    List.filter_filterMap]
  refine List.filterMap_congr fun c _ => ?_
  cases c with
  | token t => cases h : t.isTrivia <;> simp [Element.isTrivia, Element.token?, h]
  | node n => rfl

end Node

namespace Grammar

open Element

/-! ## Views -/

/-- **What is known of a parse**, seen from inside one node. -/
structure View where
  /-- What comes next. -/
  lookahead : Lookahead
  /-- The parts gathered since the place. -/
  parts : List Element
  /-- Whether an error is known to have been reported at the token that comes next. -/
  answered : Bool := false
  /-- Whether it is known that in the innermost step of a loop a token was taken, or that an error
  was reported at the token that comes next. -/
  settled : Bool := false
  /-- Whether it is known that a token was taken in the innermost step of a loop. -/
  moved : Bool := false

namespace View

/-- A token was taken, and something comes next. -/
def take (v : View) (t : Token) (next : Lookahead) : View :=
  { lookahead := next, parts := v.parts ++ [.token t], settled := true, moved := true }

/-- A token was passed over, and something comes next. -/
def skip (v : View) (n : Node) (next : Lookahead) : View :=
  { lookahead := next, parts := v.parts ++ [.node n], settled := true, moved := true }

/-- An error was reported. -/
def report (v : View) : View := { v with answered := true, settled := true }

/-- A new place was remembered. -/
def fresh (v : View) : View := { v with parts := [] }

/-- What is gathered since a new place is behind what was before. -/
def behind (v : View) (before : List Element) : View := { v with parts := before ++ v.parts }

/-- All that was gathered became one node. -/
def enclose (v : View) (n : Node) : View := { v with parts := [.node n] }

end View

/-! ## Contracts -/

/-- **A law for nodes**, and what the nesting levels start from and make. -/
structure Contract where
  /-- Whether errors may be found at all. -/
  faulty : Prop
  /-- What holds of every node. -/
  law : Node → Prop
  /-- What comes next and what is gathered where a level is entered. -/
  entry : Nesting → Lookahead → List Element → Prop
  /-- What a level makes of the parts gathered before it. -/
  result : Nesting → List Element → List Element → Prop

/-- **What a rule has to assure** so that a property holds of all views that it leads to. There may
be no room for nesting levels if `full` holds; and where no error may be found, nothing has to be
assured behind one. -/
def Rule.Assures (c : Contract) (full : Prop) : Rule → (View → Prop) → View → Prop
  | .done, Q, v => Q v
  | .seq first second, Q, v => first.Assures c full (second.Assures c full Q) v
  | .bump, Q, v =>
    v.lookahead.first ≠ none ∧
      ∀ (t : Token) (next : Lookahead), v.lookahead.first = some t.kind →
        next.first = v.lookahead.second → Q (v.take t next)
  | .skip, Q, v =>
    v.lookahead.first ≠ none ∧ v.answered = true ∧
      (c.faulty → ∀ (n : Node) (next : Lookahead), n.kind = .error →
        next.first = v.lookahead.second → Q (v.skip n next))
  | .report _, Q, v => c.faulty → Q v.report
  | .node kind body, Q, v =>
    kind ≠ .error ∧ body.Assures c full (fun w => ∀ n : Node, n.kind = kind → n.parts = w.parts →
      c.law n ∧ Q ((w.enclose n).behind v.parts)) v.fresh
  | .mark body, Q, v => body.Assures c full (fun w => Q (w.behind v.parts)) v.fresh
  | .wrap kind body, Q, v =>
    kind ≠ .error ∧ body.Assures c full (fun w => ∀ n : Node, n.kind = kind → n.parts = w.parts →
      c.law n ∧ Q (w.enclose n)) v
  | .branch test yes no, Q, v =>
    (test v.lookahead = true → yes.Assures c full Q v) ∧
      (test v.lookahead = false → no.Assures c full Q v)
  | .loop stop body, Q, v =>
    ∃ I : Lookahead → List Element → Prop, I v.lookahead v.parts ∧ ∀ next ps, I next ps →
      (stop next = true →
        Q { lookahead := next, parts := ps, settled := v.settled, moved := v.moved }) ∧
      (stop next = false → body.Assures c full (fun w => w.settled = true ∧
        I w.lookahead w.parts ∧ (c.faulty → w.moved = false → ∀ (n : Node) (next : Lookahead),
          n.kind = .error → I next (w.parts ++ [.node n]))) { lookahead := next, parts := ps })
  | .nest level otherwise, Q, v =>
    c.entry level v.lookahead v.parts ∧
      (∀ w : View, w.settled = true → w.moved = v.moved → c.result level v.parts w.parts → Q w) ∧
      (full → c.faulty → otherwise.Assures c full Q v.report)

/-- **The rules of the nesting levels keep a contract**, and the law does not ask for more of a
token that is passed over than that it is one. -/
structure Contract.Kept (c : Contract) : Prop where
  /-- The law holds of a token that is passed over. -/
  law_error : c.faulty → ∀ (n : Node) (t : Token), n.kind = .error → n.parts = [.token t] → c.law n
  /-- Each level makes what it should, and either takes a token or reports an error. -/
  levels : ∀ (level : Nesting) (next : Lookahead) (ps : List Element), c.entry level next ps →
    (nested level).Assures c True (fun w => w.settled = true ∧ c.result level ps w.parts)
      { lookahead := next, parts := ps }

/-- What assures more assures less.

**Proof sketch.** Induction on the rule. -/
theorem Rule.Assures.mono {c : Contract} {full : Prop} {r : Rule} {Q Q' : View → Prop}
    (hQ : ∀ w, Q w → Q' w) {v : View} (h : r.Assures c full Q v) : r.Assures c full Q' v := by
  induction r generalizing Q Q' v with
  | done => exact hQ v h
  | seq first second ih₁ ih₂ => exact ih₁ (fun w => ih₂ hQ) h
  | bump => exact ⟨h.1, fun t next ht hnext => hQ _ (h.2 t next ht hnext)⟩
  | skip => exact ⟨h.1, h.2.1, fun hf n next hn hnext => hQ _ (h.2.2 hf n next hn hnext)⟩
  | report message => exact fun hf => hQ _ (h hf)
  | node kind body ih =>
    exact ⟨h.1, ih (fun w hw n hk hp => ⟨(hw n hk hp).1, hQ _ (hw n hk hp).2⟩) h.2⟩
  | mark body ih => exact ih (fun w hw => hQ _ hw) h
  | wrap kind body ih =>
    exact ⟨h.1, ih (fun w hw n hk hp => ⟨(hw n hk hp).1, hQ _ (hw n hk hp).2⟩) h.2⟩
  | branch test yes no ih₁ ih₂ => exact ⟨fun ht => ih₁ hQ (h.1 ht), fun ht => ih₂ hQ (h.2 ht)⟩
  | loop stop body ih =>
    obtain ⟨I, hfirst, hI⟩ := h
    exact ⟨I, hfirst, fun next ps hps => ⟨fun hstop => hQ _ ((hI next ps hps).1 hstop),
      (hI next ps hps).2⟩⟩
  | nest level otherwise ih =>
    obtain ⟨hentry, hresult, hother⟩ := h
    exact ⟨hentry, fun w hw hmoved hps => hQ w (hresult w hw hmoved hps),
      fun hfull hf => ih hQ (hother hfull hf)⟩

/-! ## Views of gatherings -/

namespace Gathering

variable {start : Nat} {g g' : Gathering} {v : View}

/-- An error was reported at the token that comes next. -/
def Answered (g : Gathering) : Prop := ∃ d ∈ g.diagnostics, d.span = g.currentSpan

/-- Since the cursor was at `start`, a token was taken, or an error was reported at the one that
comes next. -/
def Settled (start : Nat) (g : Gathering) : Prop := start < g.cursor ∨ g.Answered

/-- **A gathering is seen as a view**, in a step of a loop that began where the cursor was at
`start`. -/
structure SeenAs (start : Nat) (g : Gathering) (v : View) : Prop where
  /-- The step began no later. -/
  start_le : start ≤ g.cursor
  /-- The same comes next. -/
  lookahead_eq : g.lookahead = v.lookahead
  /-- The same parts were gathered. -/
  parts_eq : parts g.children = v.parts
  /-- What is known to be answered is. -/
  answered : v.answered = true → g.Answered
  /-- What is known to be settled is. -/
  settled : v.settled = true → g.Settled start
  /-- A token was taken if that is known. -/
  moved : v.moved = true → start < g.cursor

/-- What is known at least: what comes next, and the parts. -/
lemma seenAs_start (g : Gathering) :
    g.SeenAs g.cursor { lookahead := g.lookahead, parts := parts g.children } :=
  ⟨Nat.le_refl _, rfl, rfl, nofun, nofun, nofun⟩

/-- **What every node gathered so far is held to**: the law, and that a token which was passed over
is its only child and was reported. -/
def Lawful (law : Node → Prop) (g : Gathering) : Prop :=
  ∀ n ∈ nodesOfList g.children, law n ∧ (n.kind = .error → ∃ t, n.children = [.token t] ∧
    t.isTrivia = false ∧ ∃ d ∈ g.diagnostics, d.span = t.span)

variable {law : Node → Prop}

/-- More findings, and no more nodes. -/
lemma Lawful.of_nodes_eq (h : g.Lawful law)
    (hnodes : nodesOfList g'.children = nodesOfList g.children)
    (hfound : g.diagnostics <+: g'.diagnostics) : g'.Lawful law := by
  intro n hn
  rw [hnodes] at hn
  obtain ⟨hlaw, herror⟩ := h n hn
  refine ⟨hlaw, fun hk => ?_⟩
  obtain ⟨t, hcs, ht, d, hd, hspan⟩ := herror hk
  exact ⟨t, hcs, ht, d, hfound.subset hd, hspan⟩

/-! ### Moves -/

@[simp] lemma currentSpan_flush (g : Gathering) : g.flush.currentSpan = g.currentSpan := by
  simp only [currentSpan, flush_ahead, significant_significant, flush_endOffset]

@[simp] lemma parts_flush (g : Gathering) : parts g.flush.children = parts g.children := by
  rw [flush_children, parts_append, parts_map_token fun t => List.mem_takeWhile_imp,
    List.append_nil]

lemma Answered.flush (h : g.Answered) : g.flush.Answered := by
  obtain ⟨d, hd, hspan⟩ := h
  exact ⟨d, (diagnostics_prefix_flush g).subset hd, by rw [currentSpan_flush, hspan]⟩

lemma Settled.flush (h : g.Settled start) : g.flush.Settled start :=
  h.imp (by rw [flush_cursor]; exact id) Answered.flush

lemma answered_report (g : Gathering) (message : String) : (g.report message).Answered :=
  ⟨_, List.mem_append_right _ (List.mem_singleton.2 rfl), rfl⟩

/-- Before something is parsed from a new place, nothing is gathered there. -/
lemma SeenAs.flush_fresh (h : g.SeenAs start v) : g.flush.fresh.SeenAs start v.fresh where
  start_le := by
    change start ≤ g.flush.cursor
    rw [flush_cursor]
    exact h.start_le
  lookahead_eq := by rw [lookahead_fresh, lookahead_flush, h.lookahead_eq]; rfl
  parts_eq := rfl
  answered := fun hv => (h.answered hv).flush
  settled := fun hv => (h.settled hv).flush
  moved := fun hv => by
    change start < g.flush.cursor
    rw [flush_cursor]
    exact h.moved hv

lemma SeenAs.report (h : g.SeenAs start v) (message : String) :
    (g.report message).SeenAs start v.report where
  start_le := h.start_le
  lookahead_eq := h.lookahead_eq
  parts_eq := h.parts_eq
  answered := fun _ => answered_report g message
  settled := fun _ => .inr (answered_report g message)
  moved := h.moved

/-- What was parsed from a new place is put behind what was before. -/
lemma SeenAs.behind {w : View} (h : g.SeenAs start v) (hw : g'.SeenAs start w) :
    (g'.behind g.flush.children).SeenAs start (w.behind v.parts) where
  start_le := hw.start_le
  lookahead_eq := hw.lookahead_eq
  parts_eq := by
    change parts (g.flush.children ++ g'.children) = _
    rw [parts_append, parts_flush, h.parts_eq, hw.parts_eq]
    rfl
  answered := hw.answered
  settled := hw.settled
  moved := hw.moved

/-- All that is gathered becomes one node. -/
lemma SeenAs.enclose (h : g.SeenAs start v) (kind : NodeKind) :
    (g.enclose kind).SeenAs start (v.enclose (Node.ofChildren kind g.children g.offset)) where
  start_le := h.start_le
  lookahead_eq := h.lookahead_eq
  parts_eq := rfl
  answered := h.answered
  settled := h.settled
  moved := h.moved

/-- The token that comes next is taken. -/
lemma SeenAs.bump (h : g.SeenAs start v) {t : Token} {rest : List Token}
    (hs : significant g.ahead = t :: rest) : g.bump.SeenAs start (v.take t g.bump.lookahead) := by
  have hmoved : start < g.bump.cursor := by
    rw [bump_of_cons hs]
    exact Nat.lt_succ_of_le h.start_le
  refine ⟨hmoved.le, rfl, ?_, nofun, fun _ => .inl hmoved, fun _ => hmoved⟩
  rw [bump_of_cons hs]
  change parts (g.flush.children ++ [.token t]) = _
  rw [parts_append, parts_flush, h.parts_eq, parts_token (not_isTrivia_of_significant hs)]
  rfl

/-- The node that a token becomes when it is passed over. -/
def skipped (g : Gathering) : Node :=
  Node.ofChildren .error g.flush.fresh.bump.children g.flush.fresh.bump.offset

/-- The token that comes next is passed over. -/
lemma SeenAs.skip (h : g.SeenAs start v) {t : Token} {rest : List Token}
    (hs : significant g.ahead = t :: rest) :
    g.skip.SeenAs start (v.skip g.skipped g.skip.lookahead) := by
  have hfirst := lookahead_first_of_significant hs
  have hmoved : start < g.skip.cursor := by
    rw [skip_of_first hfirst]
    change start < g.flush.fresh.bump.cursor
    rw [bump_flush_fresh hs]
    exact Nat.lt_succ_of_le h.start_le
  refine ⟨hmoved.le, rfl, ?_, nofun, fun _ => .inl hmoved, fun _ => hmoved⟩
  rw [skip_of_first hfirst]
  change parts (g.flush.children ++ [.node g.skipped]) = _
  rw [parts_append, parts_flush, h.parts_eq, parts_node]
  rfl

/-! ### Nodes -/

lemma nodesOfList_flush (g : Gathering) :
    nodesOfList g.flush.children = nodesOfList g.children := by
  rw [flush_children, nodesOfList_append, nodesOfList_map_token, List.append_nil]

lemma nodesOfList_bump (g : Gathering) : nodesOfList g.bump.children = nodesOfList g.children := by
  cases hs : significant g.ahead with
  | nil => rw [bump_of_nil hs]
  | cons t rest =>
    rw [bump_of_cons hs]
    change nodesOfList (g.flush.children ++ [t].map .token) = _
    rw [nodesOfList_append, nodesOfList_map_token, List.append_nil, nodesOfList_flush]

/-- The nodes gathered since a new place are behind those gathered before. -/
lemma mem_nodesOfList_behind {n : Node} :
    n ∈ nodesOfList (g'.behind g.flush.children).children ↔
      n ∈ nodesOfList g.children ∨ n ∈ nodesOfList g'.children := by
  change n ∈ nodesOfList (g.flush.children ++ g'.children) ↔ _
  rw [nodesOfList_append, nodesOfList_flush, List.mem_append]

/-- To make a node of what is gathered adds that node. -/
lemma mem_nodesOfList_enclose {n : Node} {kind : NodeKind} :
    n ∈ nodesOfList (g.enclose kind).children ↔
      n = Node.ofChildren kind g.children g.offset ∨ n ∈ nodesOfList g.children := by
  change n ∈ nodesOfList [.node (Node.ofChildren kind g.children g.offset)] ↔ _
  rw [nodesOfList_node, List.mem_cons]

lemma Lawful.bump (h : g.Lawful law) : g.bump.Lawful law :=
  h.of_nodes_eq (nodesOfList_bump g) (diagnostics_prefix_bump g)

lemma Lawful.report (h : g.Lawful law) (message : String) : (g.report message).Lawful law :=
  h.of_nodes_eq rfl (List.prefix_append ..)

/-- Where nothing is gathered, no node is. -/
lemma lawful_fresh (law : Node → Prop) (g : Gathering) : g.fresh.Lawful law := by
  intro n hn
  simp [Gathering.fresh, nodesOfList, Node.walk] at hn

/-- What was parsed from a new place is put behind what was before. -/
lemma Lawful.behind (h : g.Lawful law) (h' : g'.Lawful law)
    (hfound : g.diagnostics <+: g'.diagnostics) : (g'.behind g.flush.children).Lawful law := by
  intro n hn
  rcases mem_nodesOfList_behind.1 hn with hn | hn
  · obtain ⟨hlaw, herror⟩ := h n hn
    refine ⟨hlaw, fun hk => ?_⟩
    obtain ⟨t, hcs, ht, d, hd, hspan⟩ := herror hk
    exact ⟨t, hcs, ht, d, hfound.subset hd, hspan⟩
  · exact h' n hn

/-- A node that obeys the law is added to those gathered. -/
lemma Lawful.enclose (h : g.Lawful law) {kind : NodeKind} (hkind : kind ≠ .error)
    (hlaw : law (Node.ofChildren kind g.children g.offset)) : (g.enclose kind).Lawful law := by
  intro n hn
  rcases mem_nodesOfList_enclose.1 hn with rfl | hn
  · exact ⟨hlaw, fun hk => absurd hk hkind⟩
  · exact h n hn

/-- A token that was reported may be passed over. -/
lemma Lawful.skip (h : g.Lawful law) (hanswered : g.Answered)
    (hlaw : ∀ (n : Node) (t : Token), n.kind = .error → n.parts = [.token t] → law n) :
    g.skip.Lawful law := by
  cases hs : significant g.ahead with
  | nil =>
    rw [skip_of_nil hs]
    exact h
  | cons t rest =>
    have hfirst := lookahead_first_of_significant hs
    have htrivia := not_isTrivia_of_significant hs
    have hchildren : g.flush.fresh.bump.children = [.token t] := by
      rw [bump_flush_fresh hs]
      rfl
    obtain ⟨d, hd, hspan⟩ := hanswered
    have hfound : g.diagnostics <+: g.skip.diagnostics := diagnostics_prefix_skip g
    rw [skip_of_first hfirst] at hfound ⊢
    refine h.behind (fun n hn => ?_) hfound
    change n ∈ nodesOfList [.node g.skipped] at hn
    rw [skipped, hchildren, nodesOfList_node, List.mem_cons] at hn
    rcases hn with rfl | hn
    · refine ⟨hlaw _ t rfl (parts_token htrivia),
        fun _ => ⟨t, rfl, htrivia, d, hfound.subset hd, ?_⟩⟩
      rw [hspan, currentSpan, hs]
    · rw [← List.map_singleton, nodesOfList_map_token] at hn
      cases hn

end Gathering

open Gathering

/-! ## Soundness -/

section Soundness

variable {c : Contract} {rules : Nesting → Rule} {room start : Nat} {r : Rule} {g g' : Gathering}

/-- Where the same tokens are pending, errors are reported at the same place. -/
lemma Gathering.currentSpan_congr (hpending : pending g'.ahead = pending g.ahead)
    (hend : g'.endOffset = g.endOffset) : g'.currentSpan = g.currentSpan := by
  rw [currentSpan, currentSpan]
  cases hs : significant g.ahead with
  | nil =>
    rw [significant_eq_nil_iff, ← hpending, ← significant_eq_nil_iff] at hs
    rw [hs, hend]
  | cons t rest =>
    rw [pending_of_significant hs] at hpending
    cases hs' : significant g'.ahead with
    | nil =>
      rw [significant_eq_nil_iff.1 hs'] at hpending
      cases hpending
    | cons u rest' =>
      rw [pending_of_significant hs', List.cons.injEq] at hpending
      rw [hpending.1]

/-- **What was settled stays so**: the cursor never moves back, and as long as it stays, what was
reported there is still reported at the token that comes next. -/
lemma Derives.settled (h : Derives rules room r g g') (hle : start ≤ g.cursor)
    (hg : g.Settled start) : g'.Settled start := by
  obtain ⟨n, hpending, hcursor, -⟩ := h.takes
  obtain ⟨taken, htaken⟩ := h.consumes
  rcases hg with hg | ⟨d, hd, hspan⟩
  · exact .inl (by omega)
  · rcases Nat.eq_zero_or_pos n with rfl | hn
    · have hsame : g'.currentSpan = g.currentSpan := currentSpan_congr hpending htaken.endOffset_eq
      exact .inr ⟨d, h.diagnostics_prefix.subset hd, by rw [hsame, hspan]⟩
    · exact .inl (by omega)

/-- If errors may not be found later on, none were found before. -/
lemma Contract.clean_of_prefix (hfound : g.diagnostics <+: g'.diagnostics)
    (hclean : c.faulty ∨ g'.diagnostics = []) : c.faulty ∨ g.diagnostics = [] := by
  refine hclean.imp_right fun hnil => ?_
  rw [hnil] at hfound
  exact List.prefix_nil.1 hfound

/-- Where errors may not be found, nothing is answered. -/
lemma Gathering.Answered.faulty (h : g.Answered) (hclean : c.faulty ∨ g.diagnostics = []) :
    c.faulty := by
  refine hclean.resolve_right fun hnil => ?_
  obtain ⟨d, hd, -⟩ := h
  rw [hnil] at hd
  cases hd

/-- Behind a step of a loop that settled something a token may be passed over, and what stays so
then stays so. -/
lemma Gathering.SeenAs.progress {w : View} {I : Lookahead → List Element → Prop}
    (hg : g.SeenAs start w) (hsettled : w.settled = true) (hclean : c.faulty ∨ g.diagnostics = [])
    (hw : I w.lookahead w.parts) (herror : c.faulty → w.moved = false →
      ∀ (n : Node) (next : Lookahead), n.kind = .error → I next (w.parts ++ [.node n])) :
    I (g.progress start).lookahead (parts (g.progress start).children) := by
  rw [← hg.lookahead_eq, ← hg.parts_eq] at hw
  rw [Gathering.progress]
  split
  · next hsame =>
    have hanswered : g.Answered :=
      (hg.settled hsettled).resolve_left fun hlt => absurd hsame (Nat.ne_of_gt hlt)
    cases hs : significant g.ahead with
    | nil =>
      have hnone : g.lookahead.first = none := by rw [lookahead, hs]
      rw [skip_of_nil hs]
      exact hw
    | cons t rest =>
      have hmoved : w.moved = false :=
        Bool.eq_false_iff.2 fun hmoved => absurd hsame (Nat.ne_of_gt (hg.moved hmoved))
      rw [(hg.skip hs).parts_eq]
      exact herror (hanswered.faulty hclean) hmoved _ _ rfl
  · exact hw

/-- What is gathered behind a step of a loop obeys the law. -/
lemma Gathering.Lawful.progress (hkept : c.Kept) {w : View} (h : g.Lawful c.law)
    (hg : g.SeenAs start w) (hsettled : w.settled = true)
    (hclean : c.faulty ∨ g.diagnostics = []) : (g.progress start).Lawful c.law := by
  rw [Gathering.progress]
  split
  · next hsame =>
    have hanswered : g.Answered :=
      (hg.settled hsettled).resolve_left fun hlt => absurd hsame (Nat.ne_of_gt hlt)
    exact h.skip hanswered (hkept.law_error (hanswered.faulty hclean))
  · exact h

/-- What was settled before a step of a loop is settled behind it. -/
lemma Gathering.Settled.progress (h : g.Settled start) (hle : start ≤ g.cursor) (cursor : Nat) :
    (g.progress cursor).Settled start := by
  rw [Gathering.progress]
  split
  · have hskip : Derives nested 0 .skip g g.skip := .skip
    exact hskip.settled hle h
  · exact h

/-- **What a rule assures holds of all that is derived**, and all nodes that it makes obey the law.

**Proof sketch.** Induction on the derivation, along which the view is followed. A nesting level
does what the contract says since its rule does. A step of a loop that takes no token has reported
an error there, so that the token may be passed over. -/
theorem Derives.assured (hkept : c.Kept) (h : Derives nested room r g g') {full : Prop}
    (hfull : room = 0 → full) (hclean : c.faulty ∨ g'.diagnostics = []) {Q : View → Prop} {v : View}
    (hr : r.Assures c full Q v) (hv : g.SeenAs start v) (hg : g.Lawful c.law) :
    ∃ w, Q w ∧ g'.SeenAs start w ∧ g'.Lawful c.law := by
  induction h generalizing full Q v start with
  | done => exact ⟨v, hr, hv, hg⟩
  | seq h₁ h₂ ih₁ ih₂ =>
    obtain ⟨w, hw, hseen, hlawful⟩ :=
      ih₁ hfull (c.clean_of_prefix h₂.diagnostics_prefix hclean) hr hv hg
    exact ih₂ hfull hclean hw hseen hlawful
  | @bump room g =>
    obtain ⟨hne, hQ⟩ := hr
    rw [← hv.lookahead_eq] at hne
    obtain ⟨kind, hfirst⟩ := Option.ne_none_iff_exists'.1 hne
    obtain ⟨t, rest, hs, rfl⟩ := exists_significant_of_first hfirst
    refine ⟨_, hQ t g.bump.lookahead ?_ ?_, hv.bump hs, hg.bump⟩
    · rw [← hv.lookahead_eq, hfirst]
    · rw [lookahead_bump_first, hv.lookahead_eq]
  | @skip room g =>
    obtain ⟨hne, hanswered, hQ⟩ := hr
    rw [← hv.lookahead_eq] at hne
    obtain ⟨kind, hfirst⟩ := Option.ne_none_iff_exists'.1 hne
    obtain ⟨t, rest, hs, rfl⟩ := exists_significant_of_first hfirst
    have hreported := hv.answered hanswered
    have hfaulty : c.faulty :=
      hreported.faulty (c.clean_of_prefix (diagnostics_prefix_skip g) hclean)
    refine ⟨_, hQ hfaulty g.skipped g.skip.lookahead rfl ?_, hv.skip hs,
      hg.skip hreported (hkept.law_error hfaulty)⟩
    rw [lookahead_skip_first, hv.lookahead_eq]
  | @report room message g =>
    have hfaulty : c.faulty := (answered_report g message).faulty hclean
    exact ⟨_, hr hfaulty, hv.report message, hg.report message⟩
  | @node room kind body g g₁ h ih =>
    obtain ⟨hkind, hbody⟩ := hr
    obtain ⟨w, hw, hseen, hlawful⟩ :=
      ih hfull hclean hbody hv.flush_fresh (lawful_fresh _ _)
    obtain ⟨hlaw, hQ⟩ := hw (Node.ofChildren kind g₁.children g₁.offset) rfl hseen.parts_eq
    have hfound : g.diagnostics <+: g₁.diagnostics :=
      (diagnostics_prefix_flush g).trans h.diagnostics_prefix
    exact ⟨_, hQ, hv.behind (hseen.enclose kind),
      hg.behind (hlawful.enclose hkind hlaw) hfound⟩
  | @mark room body g g₁ h ih =>
    obtain ⟨w, hw, hseen, hlawful⟩ := ih hfull hclean hr hv.flush_fresh (lawful_fresh _ _)
    have hfound : g.diagnostics <+: g₁.diagnostics :=
      (diagnostics_prefix_flush g).trans h.diagnostics_prefix
    exact ⟨_, hw, hv.behind hseen, hg.behind hlawful hfound⟩
  | @wrap room kind body g g₁ h ih =>
    obtain ⟨hkind, hbody⟩ := hr
    obtain ⟨w, hw, hseen, hlawful⟩ := ih hfull hclean hbody hv hg
    obtain ⟨hlaw, hQ⟩ := hw (Node.ofChildren kind g₁.children g₁.offset) rfl hseen.parts_eq
    exact ⟨_, hQ, hseen.enclose kind, hlawful.enclose hkind hlaw⟩
  | yes htest _ ih => exact ih hfull hclean (hr.1 (hv.lookahead_eq ▸ htest)) hv hg
  | no htest _ ih => exact ih hfull hclean (hr.2 (hv.lookahead_eq ▸ htest)) hv hg
  | @stop room stop body g hstop =>
    obtain ⟨I, hfirst, hI⟩ := hr
    have hQ := (hI _ _ hfirst).1 (hv.lookahead_eq ▸ hstop)
    exact ⟨_, hQ, ⟨hv.start_le, hv.lookahead_eq, hv.parts_eq, nofun, hv.settled, hv.moved⟩, hg⟩
  | @step room stop body g g₁ g₂ hstop h₁ h₂ ih₁ ih₂ =>
    obtain ⟨I, hfirst, hI⟩ := hr
    have hmoved := c.clean_of_prefix h₂.diagnostics_prefix hclean
    have hclean₁ := c.clean_of_prefix (diagnostics_prefix_progress g₁ _) hmoved
    rw [← hv.lookahead_eq, ← hv.parts_eq] at hfirst
    obtain ⟨w, ⟨hsettled, hw, herror⟩, hseen, hlawful⟩ :=
      ih₁ hfull hclean₁ ((hI _ _ hfirst).2 hstop) g.seenAs_start hg
    obtain ⟨n, -, hcursor, -⟩ := h₁.takes
    obtain ⟨m, -, hcursor', -⟩ := takes_progress g₁ g.cursor
    have hle := hv.start_le
    have hstays : v.settled = true → (g₁.progress g.cursor).Settled start := fun h =>
      (h₁.settled hle (hv.settled h)).progress (by omega) _
    have hgone : v.moved = true → start < (g₁.progress g.cursor).cursor := fun h => by
      have hlt := hv.moved h
      omega
    -- The further steps begin with what the invariant says behind this one.
    refine ih₂ hfull hclean
      (v := ⟨_, parts (g₁.progress g.cursor).children, false, v.settled, v.moved⟩)
      ⟨I, hseen.progress hsettled hclean₁ hw herror, hI⟩
      ⟨by omega, rfl, rfl, nofun, hstays, hgone⟩ (hlawful.progress hkept hseen hsettled hclean₁)
  | @nest room level otherwise g g₁ h ih =>
    obtain ⟨hentry, hQ, -⟩ := hr
    rw [← hv.lookahead_eq, ← hv.parts_eq] at hentry
    obtain ⟨w, ⟨hsettled, hresult⟩, hseen, hlawful⟩ := ih (fun _ => trivial) hclean
      (hkept.levels level _ _ hentry) g.seenAs_start hg
    rw [hv.parts_eq] at hresult
    refine ⟨{ w with moved := v.moved }, hQ _ hsettled rfl hresult, ?_, hlawful⟩
    exact ⟨hv.start_le.trans hseen.start_le, hseen.lookahead_eq, hseen.parts_eq, hseen.answered,
      fun _ => (hseen.settled hsettled).imp_left fun hlt => Nat.lt_of_le_of_lt hv.start_le hlt,
      fun hmoved => Nat.lt_of_lt_of_le (hv.moved hmoved) hseen.start_le⟩
  | @full level otherwise g g₁ h ih =>
    obtain ⟨-, -, hother⟩ := hr
    have hfaulty : c.faulty := (answered_report g tooDeep).faulty
      (c.clean_of_prefix h.diagnostics_prefix hclean)
    exact ih hfull hclean (hother (hfull rfl) hfaulty) (hv.report _) (hg.report _)

end Soundness

end Grammar

end TxTree
