import Mathlib.Data.List.TakeWhile
import TxTree.Grammar.Rule

set_option relaxedAutoImplicit false
set_option autoImplicit false

/-!
# A parse seen from inside one node

A rule only ever adds to the innermost open node, or takes over what stands there since the place
that it remembers. What is around that place neither matters to the rule nor changes. So a parse
can be followed without a stack of frames: a *gathering* is the stream, the findings and the
children gathered since a place, and the *surroundings* are all the rest of the state.

## Main definitions

* `TxTree.Grammar.pending` — the tokens of a stream, without white space and comments.
* `TxTree.Grammar.Gathering` — the stream, the findings, and the children since a place.
* `TxTree.Grammar.Surroundings` — the frames around a place, and what else a rule leaves alone.
* `TxTree.Grammar.Surroundings.around` — the state of a gathering in its surroundings.

## Main results

* `TxTree.Grammar.Surroundings.around_bump`, `TxTree.Grammar.Surroundings.around_skip`,
  `TxTree.Grammar.Surroundings.around_report`, `TxTree.Grammar.Surroundings.around_flush` — a move
  of a state is the same move of its gathering.
* `TxTree.Grammar.Gathering.pending_bump`, `TxTree.Grammar.Gathering.pending_skip` — a move that
  takes a token takes the next pending one.
-/

namespace TxTree.Grammar

/-! ## Pending tokens -/

/-- The tokens of a stream, without white space and comments. -/
def pending (tokens : List Token) : List Token := tokens.filter (!·.isTrivia)

@[simp] lemma pending_nil : pending [] = [] := rfl

@[simp] lemma pending_append (ts us : List Token) : pending (ts ++ us) = pending ts ++ pending us :=
  List.filter_append ..

/-- Nothing is pending if and only if there is nothing but white space and comments. -/
lemma pending_eq_nil_iff {tokens : List Token} :
    pending tokens = [] ↔ ∀ t ∈ tokens, t.isTrivia := by
  rw [pending, List.filter_eq_nil_iff]
  simp only [Bool.not_eq_true', Bool.not_eq_false]

/-- A stream is its leading white space and comments, and then its significant part. -/
lemma takeWhile_append_significant (tokens : List Token) :
    tokens.takeWhile (·.isTrivia) ++ significant tokens = tokens :=
  List.takeWhile_append_dropWhile

/-- A significant part that is not empty begins with a token that is pending. -/
lemma not_isTrivia_of_significant {tokens rest : List Token} {t : Token}
    (h : significant tokens = t :: rest) : t.isTrivia = false := by
  change tokens.dropWhile Token.isTrivia = t :: rest at h
  have hhead := List.head_dropWhile_not Token.isTrivia (l := tokens) (by simp only [h]; simp)
  simpa only [h, List.head_cons] using hhead

/-- No white space or comment is before the significant part. -/
@[simp] lemma takeWhile_significant (tokens : List Token) :
    (significant tokens).takeWhile (·.isTrivia) = [] := by
  cases h : significant tokens with
  | nil => rfl
  | cons t rest =>
    exact List.takeWhile_cons_of_neg (by simp [not_isTrivia_of_significant h])

@[simp] lemma significant_significant (tokens : List Token) :
    significant (significant tokens) = significant tokens := by
  have h := takeWhile_append_significant (significant tokens)
  rwa [takeWhile_significant, List.nil_append] at h

/-- Nothing is pending before the significant part. -/
lemma pending_takeWhile (tokens : List Token) : pending (tokens.takeWhile (·.isTrivia)) = [] :=
  pending_eq_nil_iff.2 fun _ ht => List.mem_takeWhile_imp ht

/-- The pending tokens of a stream are those of its significant part. -/
@[simp] lemma pending_significant (tokens : List Token) :
    pending (significant tokens) = pending tokens := by
  calc pending (significant tokens)
      = pending (tokens.takeWhile (·.isTrivia)) ++ pending (significant tokens) := by
        rw [pending_takeWhile, List.nil_append]
    _ = pending tokens := by rw [← pending_append, takeWhile_append_significant]

/-- The significant part of a stream is empty if and only if nothing is pending. -/
lemma significant_eq_nil_iff {tokens : List Token} :
    significant tokens = [] ↔ pending tokens = [] := by
  constructor
  · intro h
    rw [← pending_significant, h, pending_nil]
  · intro h
    cases hs : significant tokens with
    | nil => rfl
    | cons t rest =>
      have ht := not_isTrivia_of_significant hs
      rw [← pending_significant, hs] at h
      simp [pending, ht] at h

/-- The first pending token heads the significant part. -/
lemma pending_of_significant {tokens rest : List Token} {t : Token}
    (h : significant tokens = t :: rest) : pending tokens = t :: pending rest := by
  rw [← pending_significant, h, pending, List.filter_cons_of_pos]
  · rfl
  · simp [not_isTrivia_of_significant h]

/-! ## Gatherings -/

/-- What a token brings with it: a finding if it lacks its closing mark. -/
def complaints (t : Token) : List Diagnostic :=
  if t.isUnterminated then [.error t.span (State.unterminatedMessage t.kind)] else []

/-- The stream, the findings, and the children gathered since a place. -/
@[ext]
structure Gathering where
  /-- The tokens that are not in the tree yet. -/
  ahead : List Token
  /-- Where the text ends. -/
  endOffset : Nat
  /-- The number of tokens taken, white space and comments apart. -/
  cursor : Nat
  /-- The end of the last token. -/
  offset : Nat
  /-- The findings, in the order in which they were made. -/
  diagnostics : List Diagnostic
  /-- The children gathered since the place. -/
  children : List Element

namespace Gathering

/-- Before the first token of a stream nothing is gathered. -/
def ofTokens (tokens : List Token) : Gathering := ⟨tokens, endOf tokens, 0, 0, [], []⟩

/-! ### Looking -/

/-- What comes next. -/
def lookahead (g : Gathering) : Lookahead :=
  match significant g.ahead with
  | [] => ⟨none, none⟩
  | t :: rest => ⟨some t.kind, (significant rest).head?.map (·.kind)⟩

/-- The span of the next token; at the end, the empty span there. -/
def currentSpan (g : Gathering) : Span :=
  match significant g.ahead with
  | [] => Span.emptyAt g.endOffset
  | t :: _ => t.span

/-! ### Moves -/

/-- A token is gathered. -/
def attach (g : Gathering) (t : Token) : Gathering :=
  { g with
    offset := t.span.stop
    diagnostics := g.diagnostics ++ complaints t
    children := g.children ++ [.token t] }

/-- Tokens are gathered one after the other. -/
def attachAll (g : Gathering) (tokens : List Token) : Gathering := tokens.foldl attach g

/-- The white space and comments before the next token are gathered. -/
def flush (g : Gathering) : Gathering :=
  { g with ahead := significant g.ahead }.attachAll (g.ahead.takeWhile (·.isTrivia))

/-- The next token is gathered, with the white space and comments before it. -/
def bump (g : Gathering) : Gathering :=
  match significant g.ahead with
  | [] => g
  | t :: rest =>
    let g := g.flush.attach t
    { g with ahead := rest, cursor := g.cursor + 1 }

/-- An error is found at the next token. -/
def report (g : Gathering) (message : String) : Gathering :=
  { g with diagnostics := g.diagnostics ++ [.error g.currentSpan message] }

/-- Nothing is gathered yet since a new place. -/
def fresh (g : Gathering) : Gathering := { g with children := [] }

/-- What is gathered stands behind what was before. -/
def behind (g : Gathering) (before : List Element) : Gathering :=
  { g with children := before ++ g.children }

/-- All that is gathered becomes one node. -/
def enclose (g : Gathering) (kind : NodeKind) : Gathering :=
  { g with children := [.node (Node.ofChildren kind g.children g.offset)] }

/-- The next token is passed over: it becomes an error node of its own. -/
def skip (g : Gathering) : Gathering :=
  match g.lookahead.first with
  | none => g
  | some _ => (g.flush.fresh.bump.enclose .error).behind g.flush.children

/-- After a step of a loop that began at `cursor`, a token is passed over if none was taken. -/
def progress (g : Gathering) (cursor : Nat) : Gathering := if g.cursor = cursor then g.skip else g

end Gathering

/-! ## Surroundings -/

/-- What is around a place and is left alone by the rules that run there. -/
structure Surroundings where
  /-- The kind of the node that the place is in. -/
  kind : NodeKind
  /-- The children of that node before the place. -/
  before : List Element
  /-- The frames around that node, from the inside out. -/
  below : List Frame
  /-- The first step of the builder that was out of place, if there was one. -/
  fault : Option Builder.Fault
  /-- The number of nesting levels around the place. -/
  depth : Nat

namespace Surroundings

/-- **The state of a gathering** in its surroundings. -/
def around (c : Surroundings) (g : Gathering) : State where
  ahead := g.ahead
  endOffset := g.endOffset
  cursor := g.cursor
  builder := ⟨⟨c.kind, (c.before ++ g.children).toArray⟩, c.below, g.offset⟩
  diagnostics := g.diagnostics.toArray
  fault := c.fault
  depth := c.depth

/-- The place that the surroundings are around. -/
def place (c : Surroundings) : Checkpoint := ⟨c.below.length + 1, c.before.length⟩

/-- The surroundings of a later place in the same node. -/
def past (c : Surroundings) (children : List Element) : Surroundings :=
  { c with before := c.before ++ children }

/-- The surroundings of the beginning of a node inside. -/
def inside (c : Surroundings) (kind : NodeKind) : Surroundings :=
  { c with kind, before := [], below := ⟨c.kind, c.before.toArray⟩ :: c.below }

/-- The surroundings one nesting level further in. -/
def deeper (c : Surroundings) : Surroundings := { c with depth := c.depth + 1 }

end Surroundings

/-! ## Gathering tokens -/

namespace Gathering

variable (g : Gathering) (tokens : List Token)

@[simp] lemma attachAll_nil : g.attachAll [] = g := rfl

lemma attachAll_cons (t : Token) : g.attachAll (t :: tokens) = (g.attach t).attachAll tokens := rfl

lemma attachAll_append (us : List Token) :
    g.attachAll (tokens ++ us) = (g.attachAll tokens).attachAll us :=
  List.foldl_append ..

@[simp] lemma attachAll_ahead : (g.attachAll tokens).ahead = g.ahead := by
  induction tokens generalizing g with
  | nil => rfl
  | cons t tokens ih => rw [attachAll_cons, ih]; rfl

@[simp] lemma attachAll_endOffset : (g.attachAll tokens).endOffset = g.endOffset := by
  induction tokens generalizing g with
  | nil => rfl
  | cons t tokens ih => rw [attachAll_cons, ih]; rfl

@[simp] lemma attachAll_cursor : (g.attachAll tokens).cursor = g.cursor := by
  induction tokens generalizing g with
  | nil => rfl
  | cons t tokens ih => rw [attachAll_cons, ih]; rfl

@[simp] lemma attachAll_offset :
    (g.attachAll tokens).offset = (tokens.getLast?.map (·.span.stop)).getD g.offset := by
  induction tokens generalizing g with
  | nil => rfl
  | cons t tokens ih =>
    rw [attachAll_cons, ih, List.getLast?_cons]
    cases tokens.getLast? <;> rfl

@[simp] lemma attachAll_children :
    (g.attachAll tokens).children = g.children ++ tokens.map .token := by
  induction tokens generalizing g with
  | nil => simp
  | cons t tokens ih => rw [attachAll_cons, ih]; simp [attach]

@[simp] lemma attachAll_diagnostics :
    (g.attachAll tokens).diagnostics = g.diagnostics ++ tokens.flatMap complaints := by
  induction tokens generalizing g with
  | nil => simp
  | cons t tokens ih => rw [attachAll_cons, ih]; simp [attach]

/-! ### What a move takes -/

@[simp] lemma flush_ahead : g.flush.ahead = significant g.ahead := attachAll_ahead ..

@[simp] lemma flush_cursor : g.flush.cursor = g.cursor := attachAll_cursor ..

@[simp] lemma flush_endOffset : g.flush.endOffset = g.endOffset := attachAll_endOffset ..

@[simp] lemma flush_children :
    g.flush.children = g.children ++ (g.ahead.takeWhile (·.isTrivia)).map .token :=
  attachAll_children ..

@[simp] lemma flush_diagnostics :
    g.flush.diagnostics = g.diagnostics ++ (g.ahead.takeWhile (·.isTrivia)).flatMap complaints :=
  attachAll_diagnostics ..

/-- Gathering white space and comments takes nothing that is pending. -/
@[simp] lemma pending_flush_fresh : pending g.flush.fresh.ahead = pending g.ahead := by
  change pending g.flush.ahead = _
  rw [flush_ahead, pending_significant]

variable {g}

/-- Nothing comes next if and only if nothing is pending. -/
lemma lookahead_first_eq_none_iff : g.lookahead.first = none ↔ pending g.ahead = [] := by
  rw [← significant_eq_nil_iff, lookahead]
  cases significant g.ahead <;> simp

/-- What comes next is the kind of the first pending token. -/
lemma lookahead_eq : g.lookahead =
    ⟨(pending g.ahead).head?.map (·.kind), (pending g.ahead)[1]?.map (·.kind)⟩ := by
  rw [lookahead]
  cases h : significant g.ahead with
  | nil => simp [significant_eq_nil_iff.1 h]
  | cons t rest =>
    rw [pending_of_significant h]
    cases hr : significant rest with
    | nil => simp [hr, significant_eq_nil_iff.1 hr]
    | cons u rest' => simp [hr, pending_of_significant hr]

/-- Two gatherings with the same pending tokens see the same. -/
lemma lookahead_congr {g h : Gathering} (he : pending g.ahead = pending h.ahead) :
    g.lookahead = h.lookahead := by
  rw [lookahead_eq, lookahead_eq, he]

/-- The kind that comes next is that of the first significant token, … -/
lemma lookahead_first_of_significant {t : Token} {rest : List Token}
    (h : significant g.ahead = t :: rest) : g.lookahead.first = some t.kind := by
  rw [lookahead, h]

/-- … and where a kind comes next, there is one. -/
lemma exists_significant_of_first {kind : TokenKind} (h : g.lookahead.first = some kind) :
    ∃ t rest, significant g.ahead = t :: rest ∧ t.kind = kind := by
  cases hs : significant g.ahead with
  | nil =>
    rw [lookahead, hs] at h
    cases h
  | cons t rest =>
    rw [lookahead_first_of_significant hs] at h
    exact ⟨t, rest, rfl, Option.some_inj.1 h⟩

lemma bump_of_cons {t : Token} {rest : List Token} (h : significant g.ahead = t :: rest) :
    g.bump = { g.flush.attach t with ahead := rest, cursor := g.cursor + 1 } := by
  rw [bump, h]
  simp [attach]

lemma bump_of_nil (h : significant g.ahead = []) : g.bump = g := by
  rw [bump, h]

/-- The token that comes next is taken at once where what is before it has been gathered. -/
lemma bump_flush_fresh {t : Token} {rest : List Token} (h : significant g.ahead = t :: rest) :
    g.flush.fresh.bump =
      { g.flush.fresh.attach t with ahead := rest, cursor := g.cursor + 1 } := by
  have hahead : significant g.flush.fresh.ahead = t :: rest := by
    change significant g.flush.ahead = _
    rw [flush_ahead, significant_significant, h]
  have htrivia : g.flush.fresh.ahead.takeWhile (·.isTrivia) = [] := by
    change g.flush.ahead.takeWhile _ = _
    rw [flush_ahead, takeWhile_significant]
  rw [bump_of_cons hahead, flush, htrivia, attachAll_nil]
  simp [attach, fresh]

/-- The next token that is taken is the first pending one. -/
lemma pending_bump : pending g.bump.ahead = (pending g.ahead).tail := by
  cases h : significant g.ahead with
  | nil => rw [bump_of_nil h, significant_eq_nil_iff.1 h]; rfl
  | cons t rest => rw [bump_of_cons h, pending_of_significant h]; rfl

/-- The next token that is passed over is the first pending one. -/
lemma pending_skip : pending g.skip.ahead = (pending g.ahead).tail := by
  rw [skip]
  cases h : g.lookahead.first with
  | none =>
    rw [lookahead_first_eq_none_iff.1 h]
    rfl
  | some k =>
    change pending g.flush.fresh.bump.ahead = _
    rw [pending_bump, pending_flush_fresh]

/-- Gathering white space and comments does not change what comes next. -/
@[simp] lemma lookahead_flush : g.flush.lookahead = g.lookahead :=
  lookahead_congr (by rw [flush_ahead, pending_significant])

@[simp] lemma lookahead_fresh : g.fresh.lookahead = g.lookahead := rfl

@[simp] lemma lookahead_report (message : String) :
    (g.report message).lookahead = g.lookahead := rfl

/-- When a token is taken, what came after it comes next. -/
lemma lookahead_bump_first : g.bump.lookahead.first = g.lookahead.second := by
  rw [lookahead_eq, lookahead_eq, pending_bump, List.head?_tail]

/-- When a token is passed over, what came after it comes next. -/
lemma lookahead_skip_first : g.skip.lookahead.first = g.lookahead.second := by
  rw [lookahead_eq, lookahead_eq, pending_skip, List.head?_tail]

end Gathering

/-! ## Moves in surroundings -/

namespace Surroundings

variable (c : Surroundings) (g : Gathering)

@[simp] lemma around_lookahead : (c.around g).lookahead = g.lookahead := rfl

@[simp] lemma around_cursor : (c.around g).cursor = g.cursor := rfl

@[simp] lemma around_ahead : (c.around g).ahead = g.ahead := rfl

@[simp] lemma around_currentSpan : (c.around g).currentSpan = g.currentSpan := rfl

/-- Surroundings of a later place take in what is behind the earlier one. -/
lemma around_past (children : List Element) :
    (c.past children).around g = c.around (g.behind children) := by
  simp [around, past, Gathering.behind]

lemma around_attach (t : Token) : (c.around g).attach t = c.around (g.attach t) := by
  simp only [around, State.attach, Gathering.attach, complaints, Builder.token, Builder.push]
  split <;> simp

lemma around_attachAll (tokens : List Token) :
    (c.around g).attachAll tokens = c.around (g.attachAll tokens) := by
  induction tokens generalizing g with
  | nil => rfl
  | cons t tokens ih =>
    rw [Gathering.attachAll_cons, ← ih, ← around_attach]
    rfl

lemma around_flush : (c.around g).flush = c.around g.flush :=
  around_attachAll c { g with ahead := significant g.ahead } _

lemma around_bump : (c.around g).bump = c.around g.bump := by
  rw [State.bump, Gathering.bump, around_ahead]
  cases h : significant g.ahead with
  | nil => rfl
  | cons t rest =>
    simp only [around_flush, around_attach]
    rfl

lemma around_report (message : String) :
    (c.around g).report message = c.around (g.report message) := by
  rw [State.report, around_currentSpan]
  simp [around, Gathering.report]

/-- To open a node is to move on to the surroundings inside it. -/
lemma around_start (kind : NodeKind) :
    (c.around g).start kind = ((c.past g.flush.children).inside kind).around g.flush.fresh := by
  rw [State.start, around_flush]
  rfl

/-- To open a node at the place that is remembered is to let what was gathered since be inside. -/
lemma around_startAt (kind : NodeKind) :
    (c.around g).startAt c.place kind = (c.inside kind).around g := by
  simp [around, State.startAt, Builder.startAt, Builder.startAtFault?, Builder.depth, place, inside]

/-- To finish a node is to leave its surroundings, with the node as what was gathered there. -/
lemma around_finishNode (kind : NodeKind) :
    ((c.inside kind).around g).finishNode = c.around (g.enclose kind) := by
  simp [around, State.finishNode, Builder.finishNode, Builder.finishFault?, Builder.push,
    Builder.close, inside, Gathering.enclose]

lemma around_skip : (c.around g).skip = c.around g.skip := by
  rw [State.skip, Gathering.skip, around_lookahead]
  cases g.lookahead.first with
  | none => rfl
  | some k =>
    simp only [around_start, around_bump, around_finishNode, around_past]

/-- The place that is remembered at a token, once what is before it is gathered. -/
lemma checkpoint_around : (c.around g).builder.checkpoint = (c.past g.children).place := by
  simp [around, Builder.checkpoint, Builder.depth, place, past]

lemma around_fresh : (c.past g.children).around g.fresh = c.around g := by
  simp [around, past, Gathering.fresh]

end Surroundings

end TxTree.Grammar
