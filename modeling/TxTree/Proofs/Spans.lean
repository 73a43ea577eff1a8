import TxTree.Proofs.Lossless
import TxTree.Proofs.Tiling

set_option relaxedAutoImplicit false
set_option autoImplicit false

/-!
# Spans tile the tree

The children of a node stand one behind the other from its start to its stop, at every node of the
tree of a text. A node without children is where the tokens on its left end and those on its right
begin. So the span of a node says which piece of the text its tokens spell.

## Main definitions

* `TxTree.Node.Tiled`, `TxTree.Element.Tile` — children that stand one behind the other, at a node
  and at all nodes below it.
* `TxTree.Node.Occurs` — a node in a tree, with the tokens on its left and on its right.
* `TxTree.Node.LiesIn` — whether a node is a piece of a text, cut out at its span.

## Main results

* `TxTree.Grammar.Derives.tiled` — what a rule gathers is tiled if what was gathered before is.
* `TxTree.parse_tiled` — the tree of a text is tiled, and its spans cut out what its nodes spell.
-/

namespace TxTree

/-! ## Tiled nodes -/

mutual

/-- **A node is tiled** if its children tile its span. -/
def Node.Tiled : Node → Prop
  | ⟨_, s, cs⟩ => Element.Tile s.start cs s.stop

/-- **Elements tile the bytes** from one offset to another if the first starts at the one, each
starts where the one before it stops, and the last stops at the other; no token is empty, and each
node is tiled itself. -/
def Element.Tile : (start : Nat) → List Element → (stop : Nat) → Prop
  | start, [], stop => start = stop
  | start, .token t :: cs, stop =>
    t.span.start = start ∧ start < t.span.stop ∧ Element.Tile t.span.stop cs stop
  | start, .node n :: cs, stop =>
    n.Tiled ∧ n.span.start = start ∧ Element.Tile n.span.stop cs stop

end

/-- A node is tiled if its children tile its span. -/
lemma Node.tiled_iff {n : Node} : n.Tiled ↔ Element.Tile n.span.start n.children n.span.stop := by
  obtain ⟨k, s, cs⟩ := n
  rw [Tiled]
  rfl

namespace Tiles

variable {start mid stop : Nat} {ts us : List Token}

/-- Tiles one behind the other. -/
lemma append (h : Tiles start ts mid) (h' : Tiles mid us stop) : Tiles start (ts ++ us) stop := by
  induction ts generalizing start with
  | nil =>
    obtain rfl : start = mid := h
    exact h'
  | cons t ts ih =>
    obtain ⟨hstart, hlt, hrest⟩ := h
    exact ⟨hstart, hlt, ih hrest⟩

/-- Tiles are cut where one of them stops. -/
lemma of_append (h : Tiles start (ts ++ us) stop) :
    Tiles start ts ((ts.getLast?.map (·.span.stop)).getD start) ∧
      Tiles ((ts.getLast?.map (·.span.stop)).getD start) us stop := by
  induction ts generalizing start with
  | nil => exact ⟨rfl, h⟩
  | cons t ts ih =>
    obtain ⟨hstart, hlt, hrest⟩ := h
    obtain ⟨hleft, hright⟩ := ih hrest
    have hlast : (((t :: ts).getLast?.map (·.span.stop)).getD start) =
        (ts.getLast?.map (·.span.stop)).getD t.span.stop := by
      rw [List.getLast?_cons]
      cases ts.getLast? <;> rfl
    rw [hlast]
    exact ⟨⟨hstart, hlt, hleft⟩, hright⟩

/-- Tiles stop no earlier than they start. -/
lemma le (h : Tiles start ts stop) : start ≤ stop := by
  induction ts generalizing start with
  | nil => exact Nat.le_of_eq h
  | cons t ts ih =>
    obtain ⟨hstart, hlt, hrest⟩ := h
    exact hlt.le.trans (ih hrest)

/-- Tiles take up the bytes of their texts, if each takes up those of its own. -/
lemma stop_eq (h : Tiles start ts stop)
    (hsize : ∀ t ∈ ts, t.span.stop = t.span.start + t.text.utf8ByteSize) :
    stop = start + (String.join (ts.map (·.text))).utf8ByteSize := by
  induction ts generalizing start with
  | nil => exact Eq.symm h
  | cons t ts ih =>
    obtain ⟨hstart, -, hrest⟩ := h
    rw [List.forall_mem_cons] at hsize
    rw [ih hrest hsize.2, hsize.1, hstart, List.map_cons, String.join_cons,
      String.utf8ByteSize_append, Nat.add_assoc]

end Tiles

namespace Element

variable {start stop : Nat}

/-- Elements one behind the other. -/
lemma tile_append_iff {cs ds : List Element} :
    Tile start (cs ++ ds) stop ↔ ∃ mid, Tile start cs mid ∧ Tile mid ds stop := by
  induction cs generalizing start with
  | nil => simp [Tile]
  | cons c cs ih => cases c <;> simp [Tile, ih, and_assoc]

/-- Tokens tile the same bytes as children. -/
lemma tile_map_token_iff {ts : List Token} :
    Tile start (ts.map .token) stop ↔ Tiles start ts stop := by
  induction ts generalizing start with
  | nil => simp [Tile, Tiles]
  | cons t ts ih => simp [Tile, Tiles, ih]

/-- A single element tiles its span. -/
lemma span_of_tile_singleton {c : Element} (h : Tile start [c] stop) : c.span = ⟨start, stop⟩ := by
  cases c with
  | token t =>
    simp only [Tile] at h
    obtain ⟨rfl, -, rfl⟩ := h
    rfl
  | node n =>
    obtain ⟨k, s, cs⟩ := n
    simp only [Tile, Node.span_mk] at h
    obtain ⟨-, rfl, rfl⟩ := h
    rfl

/-- The span that is read off the children is the one that they tile. -/
lemma spanOf_of_tile {cs : List Element} (h : Tile start cs stop) :
    Node.spanOf cs stop = ⟨start, stop⟩ := by
  cases cs with
  | nil =>
    rw [Tile] at h
    rw [h]
    rfl
  | cons c cs =>
    obtain ⟨first, hfirst, -⟩ := tile_append_iff.1 (show Tile start ([c] ++ cs) stop from h)
    have hlast := List.dropLast_concat_getLast (List.cons_ne_nil c cs)
    rw [← hlast] at h
    obtain ⟨mid, -, hmid⟩ := tile_append_iff.1 h
    rw [Node.spanOf, List.getLast?_eq_some_getLast (List.cons_ne_nil c cs)]
    simp only [List.head?_cons, span_of_tile_singleton hfirst, span_of_tile_singleton hmid]

/-- A node whose children tile some bytes is tiled, and tiles them itself. -/
lemma tile_ofChildren {cs : List Element} (kind : NodeKind) (h : Tile start cs stop) :
    Tile start [.node (Node.ofChildren kind cs stop)] stop := by
  have hspan := spanOf_of_tile h
  simp only [Tile, Node.ofChildren, Node.Tiled, Node.span_mk, hspan, and_true]
  exact h

end Element

mutual

/-- The leaves of a tiled node tile its span, … -/
lemma Node.tiles_leaves : (n : Node) → n.Tiled → Tiles n.span.start n.leaves n.span.stop
  | ⟨k, s, cs⟩, h => by
    rw [Node.Tiled] at h
    rw [Node.leaves]
    exact Element.tiles_leavesOfList cs h

/-- … and those of a list of elements tile the same bytes. -/
lemma Element.tiles_leavesOfList {start stop : Nat} :
    (cs : List Element) → Element.Tile start cs stop → Tiles start (Element.leavesOfList cs) stop
  | [], h => by
    rw [Element.Tile] at h
    exact h
  | .token t :: cs, h => by
    rw [Element.Tile] at h
    rw [Element.leavesOfList]
    exact ⟨h.1, h.2.1, Element.tiles_leavesOfList cs h.2.2⟩
  | .node n :: cs, h => by
    rw [Element.Tile] at h
    obtain ⟨hn, rfl, hrest⟩ := h
    rw [Element.leavesOfList]
    exact (Node.tiles_leaves n hn).append (Element.tiles_leavesOfList cs hrest)

end

/-- Elements that tile some bytes lie between their ends. -/
lemma Element.within_of_tile {start stop : Nat} {cs : List Element} (h : Tile start cs stop) :
    ∀ c ∈ cs, start ≤ c.span.start ∧ c.span.stop ≤ stop := by
  intro c hc
  obtain ⟨before, after, rfl⟩ := List.append_of_mem hc
  obtain ⟨left, hbefore, hrest⟩ := tile_append_iff.1 h
  obtain ⟨right, hmid, hafter⟩ := tile_append_iff.1 (show Tile left ([c] ++ after) stop from hrest)
  rw [span_of_tile_singleton hmid]
  exact ⟨(tiles_leavesOfList before hbefore).le, (tiles_leavesOfList after hafter).le⟩

namespace Grammar

/-! ## Tiling what is gathered -/

/-- **What is gathered since an offset is tiled** up to the end of the last token, and from there
the tokens to come tile the text to its end. -/
structure Gathering.Tiled (start stop : Nat) (g : Gathering) : Prop where
  /-- The children gathered tile what has been read. -/
  children : Element.Tile start g.children g.offset
  /-- The tokens to come tile the rest. -/
  ahead : Tiles g.offset g.ahead stop

namespace Gathering.Tiled

variable {start stop : Nat} {g g' : Gathering}

/-- Tokens from the front of the stream are gathered one after the other. -/
lemma attachAll (h : g.Tiled start stop) {ts us : List Token} (hahead : g.ahead = ts ++ us) :
    (({ g with ahead := us } : Gathering).attachAll ts).Tiled start stop := by
  have hcut := h.ahead
  rw [hahead] at hcut
  obtain ⟨hleft, hright⟩ := hcut.of_append
  refine ⟨?_, ?_⟩
  · rw [attachAll_children, attachAll_offset]
    exact Element.tile_append_iff.2 ⟨_, h.children, Element.tile_map_token_iff.2 hleft⟩
  · rw [attachAll_offset, attachAll_ahead]
    exact hright

lemma flush (h : g.Tiled start stop) : g.flush.Tiled start stop :=
  h.attachAll (takeWhile_append_significant g.ahead).symm

/-- A new place is where the last token ends. -/
lemma fresh (h : g.Tiled start stop) : g.fresh.Tiled g.offset stop := by
  refine ⟨?_, h.ahead⟩
  rw [Gathering.fresh, Element.Tile]

/-- What is gathered since a new place goes on where what was before it ends. -/
lemma behind (h : g.Tiled start stop) (h' : g'.Tiled g.offset stop) :
    (g'.behind g.children).Tiled start stop :=
  ⟨Element.tile_append_iff.2 ⟨_, h.children, h'.children⟩, h'.ahead⟩

lemma enclose (h : g.Tiled start stop) (kind : NodeKind) : (g.enclose kind).Tiled start stop :=
  ⟨Element.tile_ofChildren kind h.children, h.ahead⟩

lemma bump (h : g.Tiled start stop) : g.bump.Tiled start stop := by
  cases hs : significant g.ahead with
  | nil =>
    rw [bump_of_nil hs]
    exact h
  | cons t rest =>
    have hahead : g.flush.ahead = [t] ++ rest := by
      rw [flush_ahead, hs]
      rfl
    have hnext := h.flush.attachAll hahead
    rw [bump_of_cons hs]
    exact ⟨hnext.children, hnext.ahead⟩

lemma skip (h : g.Tiled start stop) : g.skip.Tiled start stop := by
  rw [Gathering.skip]
  cases g.lookahead.first with
  | none => exact h
  | some k => exact h.flush.behind (h.flush.fresh.bump.enclose .error)

lemma progress (h : g.Tiled start stop) (cursor : Nat) : (g.progress cursor).Tiled start stop := by
  rw [Gathering.progress]
  split
  · exact h.skip
  · exact h

/-- In the end the children tile all of the text. -/
lemma finish (h : g.Tiled start stop) :
    g.finish.offset = stop ∧ Element.Tile start g.finish.children stop := by
  have hall := h.attachAll (List.append_nil g.ahead).symm
  have hstop : g.finish.offset = stop := by
    have hrest := hall.ahead
    rw [attachAll_ahead] at hrest
    exact hrest
  refine ⟨hstop, ?_⟩
  rw [← hstop]
  exact hall.children

end Gathering.Tiled

/-- **What a rule gathers is tiled** if what was gathered before is.

**Proof sketch.** Induction on the derivation. A node begins where the last token before it ended,
wherever it is opened, and it ends where the last token in it does; without children it takes up no
bytes there. -/
theorem Derives.tiled {rules : Nesting → Rule} {room : Nat} {r : Rule} {g g' : Gathering}
    (h : Derives rules room r g g') {start stop : Nat} (hg : g.Tiled start stop) :
    g'.Tiled start stop := by
  induction h generalizing start with
  | done => exact hg
  | seq _ _ ih₁ ih₂ => exact ih₂ (ih₁ hg)
  | bump => exact hg.bump
  | skip => exact hg.skip
  | report => exact ⟨hg.children, hg.ahead⟩
  | node _ ih => exact hg.flush.behind ((ih hg.flush.fresh).enclose _)
  | mark _ ih => exact hg.flush.behind (ih hg.flush.fresh)
  | wrap _ ih => exact (ih hg).enclose _
  | yes _ _ ih => exact ih hg
  | no _ _ ih => exact ih hg
  | stop => exact hg
  | step _ _ _ ih₁ ih₂ => exact ih₂ ((ih₁ hg).progress _)
  | nest _ ih => exact ih hg
  | full _ ih => exact ih ⟨hg.children, hg.ahead⟩

end Grammar

/-- The tree of tokens that tile a text is tiled, and covers it. -/
lemma tiled_root {tokens : List Token} {stop : Nat} (h : Tiles 0 tokens stop) :
    (parseTokens tokens).1.Tiled ∧ (parseTokens tokens).1.span = ⟨0, stop⟩ := by
  obtain ⟨g, hg, -, -⟩ := Grammar.exists_derives_file tokens
  have hstart : (Grammar.Gathering.ofTokens tokens).Tiled 0 stop := by
    refine ⟨?_, h⟩
    rw [Grammar.Gathering.ofTokens, Element.Tile]
  obtain ⟨hstop, hchildren⟩ := (hg.tiled hstart).finish
  rw [Grammar.parseTokens_eq hg, hstop, Node.tiled_iff]
  rw [Node.ofChildren, Node.span_mk, Node.children_mk, Element.spanOf_of_tile hchildren]
  exact ⟨hchildren, rfl⟩

/-! ## Nodes in a tree -/

/-- **A node occurs in a tree** with the tokens `before` on its left and `after` on its right. -/
inductive Node.Occurs : (root : Node) → (before : List Token) → Node → (after : List Token) → Prop
    where
  | root (n : Node) : Occurs n [] n []
  | inside {kind : NodeKind} {span : Span} {cs ds : List Element} {m n : Node}
      {before after : List Token} : Occurs m before n after →
    Occurs ⟨kind, span, cs ++ .node m :: ds⟩ (Element.leavesOfList cs ++ before) n
      (after ++ Element.leavesOfList ds)

namespace Node

variable {root n : Node} {before after : List Token}

/-- The leaves of a tree are those of a node in it, and those on its left and on its right. -/
lemma Occurs.leaves_eq (h : root.Occurs before n after) :
    root.leaves = before ++ n.leaves ++ after := by
  induction h with
  | root n => simp
  | inside _ ih => simp [leaves, Element.leavesOfList, ih]

/-- **A node in a tiled tree** is tiled, the tokens on its left end where it starts, and those on
its right begin where it stops. -/
lemma Occurs.tiles (h : root.Occurs before n after) (hroot : root.Tiled) :
    n.Tiled ∧ Tiles root.span.start before n.span.start ∧
      Tiles n.span.stop after root.span.stop := by
  induction h with
  | root n => exact ⟨hroot, rfl, rfl⟩
  | @inside kind span cs ds m n before after _ ih =>
    rw [tiled_iff] at hroot
    obtain ⟨mid, hleft, hright⟩ := Element.tile_append_iff.1 hroot
    rw [Element.Tile] at hright
    obtain ⟨hm, rfl, hrest⟩ := hright
    obtain ⟨hn, hbefore, hafter⟩ := ih hm
    exact ⟨hn, (Element.tiles_leavesOfList _ hleft).append hbefore,
      hafter.append (Element.tiles_leavesOfList _ hrest)⟩

/-- **A node lies in a text** if its span is between two boundaries of characters and its tokens
spell what stands there. -/
structure LiesIn (text : String) (n : Node) : Prop where
  /-- The span starts at a boundary of characters. -/
  start_isValid : (⟨n.span.start⟩ : String.Pos.Raw).IsValid text
  /-- The span stops at a boundary of characters. -/
  stop_isValid : (⟨n.span.stop⟩ : String.Pos.Raw).IsValid text
  /-- What stands there is the text of the node. -/
  extract_eq : text.extract ⟨⟨n.span.start⟩, start_isValid⟩ ⟨⟨n.span.stop⟩, stop_isValid⟩ = n.text

end Node

/-- A token of a text takes up the bytes of its own text. -/
lemma stop_eq_of_mem_tokensFrom {start : Nat} {cs : List Char} :
    ∀ t ∈ tokensFrom start cs, t.span.stop = t.span.start + t.text.utf8ByteSize := by
  induction start, cs using tokens_induction with
  | nil start => simp
  | cons start c cs ih =>
    rw [tokensFrom_cons, List.forall_mem_cons]
    exact ⟨rfl, ih⟩

/-- What stands between the tokens on the left of a node and those on its right is what its own
tokens spell. -/
lemma Node.liesIn_of_tiles {text : String} {n : Node} {before after : List Token}
    (hsplit : tokenize text = before ++ n.leaves ++ after) (hbefore : Tiles 0 before n.span.start)
    (hleaves : Tiles n.span.start n.leaves n.span.stop) : n.LiesIn text := by
  have hsize : ∀ t ∈ before ++ n.leaves ++ after,
      t.span.stop = t.span.start + t.text.utf8ByteSize :=
    fun t ht => stop_eq_of_mem_tokensFrom t (hsplit ▸ ht)
  simp only [List.forall_mem_append] at hsize
  have hstart := hbefore.stop_eq hsize.1.1
  have hstop := hleaves.stop_eq hsize.1.2
  have htext : text = String.join (before.map (·.text)) ++ n.text ++
      String.join (after.map (·.text)) := by
    rw [← join_text_tokenize text, hsplit, Node.text]
    simp [String.append_assoc]
  have hspan : n.span = (Token.ofText .ident n.text
      (String.join (before.map (·.text))).utf8ByteSize).span := by
    rw [Nat.zero_add] at hstart
    change n.span = Span.mk _ (_ + (String.join (n.leaves.map (·.text))).utf8ByteSize)
    rw [← hstart, ← hstop]
  obtain ⟨hvalid, hvalid', hextract⟩ := Token.liesIn_append .ident
    (String.join (before.map (·.text))) n.text (String.join (after.map (·.text)))
  rw [htext]
  refine ⟨?_, ?_, ?_⟩
  · rwa [hspan]
  · rwa [hspan]
  · simp only [hspan]
    exact hextract

/-- **Spans tile the tree of a text.** The root covers the text. At every node the children stand
one behind the other from its start to its stop, so that none is outside the node or overlaps
another, and the tokens of the node spell what stands there in the text. The tokens on the left of a
node end where it starts, and those on its right begin where it stops; so a node without children
is an empty span just between them. -/
theorem parse_tiled (text : String) :
    (parse text).root.span = ⟨0, text.utf8ByteSize⟩ ∧
      ∀ (before : List Token) (n : Node) (after : List Token),
        (parse text).root.Occurs before n after →
          n.Tiled ∧ (∀ c ∈ n.children, n.span.start ≤ c.span.start ∧ c.span.stop ≤ n.span.stop) ∧
            n.LiesIn text ∧ Tiles 0 before n.span.start ∧ Tiles n.span.start n.leaves n.span.stop ∧
            Tiles n.span.stop after text.utf8ByteSize := by
  obtain ⟨hroot, hspan⟩ := tiled_root (tiles_tokenize text)
  refine ⟨hspan, fun before n after hn => ?_⟩
  have hleaves : tokenize text = before ++ n.leaves ++ after :=
    (leaves_root (tokenize text)).symm.trans hn.leaves_eq
  obtain ⟨htiled, hbefore, hafter⟩ := hn.tiles hroot
  have hstart : (parse text).root.span.start = 0 := congrArg Span.start hspan
  have hstop : (parse text).root.span.stop = text.utf8ByteSize := congrArg Span.stop hspan
  rw [hstart] at hbefore
  rw [hstop] at hafter
  have hown := n.tiles_leaves htiled
  exact ⟨htiled, Element.within_of_tile (Node.tiled_iff.1 htiled),
    Node.liesIn_of_tiles hleaves hbefore hown, hbefore, hown, hafter⟩

/-- The type that is missing in an alias is a node without children: it is just between the sign
and the semicolon. -/
theorem parse_tiled_missing_type :
    (parse "type A=;").root.Occurs (tokenize "type A=") ⟨.typeRef, ⟨7, 7⟩, []⟩
        [.ofText .semicolon ";" 7] ∧
      Tiles 0 (tokenize "type A=") 7 ∧ Tiles 7 [.ofText .semicolon ";" 7] 8 := by
  have hroot : (parse "type A=;").root = ⟨.file, ⟨0, 8⟩, [] ++ .node ⟨.typeAliasDecl, ⟨0, 8⟩,
      (tokenize "type A=").map .token ++ .node ⟨.typeRef, ⟨7, 7⟩, []⟩ ::
        [.token (.ofText .semicolon ";" 7)]⟩ :: []⟩ := by
    decide +kernel
  have hoccurs : (parse "type A=;").root.Occurs (tokenize "type A=") ⟨.typeRef, ⟨7, 7⟩, []⟩
      [.ofText .semicolon ";" 7] := by
    rw [hroot]
    have h := @Node.Occurs.inside .file ⟨0, 8⟩ [] [] _ _ _ _ (@Node.Occurs.inside .typeAliasDecl
      ⟨0, 8⟩ ((tokenize "type A=").map .token) [.token (.ofText .semicolon ";" 7)] _ _ _ _
      (.root ⟨.typeRef, ⟨7, 7⟩, []⟩))
    simpa only [Element.leavesOfList, Grammar.leavesOfList_map_token, List.nil_append,
      List.append_nil] using h
  have htiles := (parse_tiled _).2 _ _ _ hoccurs
  exact ⟨hoccurs, htiles.2.2.2.1, htiles.2.2.2.2.2⟩

end TxTree
