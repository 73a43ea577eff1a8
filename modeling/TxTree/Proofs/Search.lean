import TxTree.Proofs.Integrity
import TxTree.Proofs.Spans

set_option relaxedAutoImplicit false
set_option autoImplicit false

/-!
# The innermost node at an offset

The search for the innermost node at an offset goes down the first child that answers and never
turns back. In a tiled tree it need not: at most one child covers the offset, and a child that does
is a token or a node that answers. So the search ends at the node that the token there belongs to.
Of all nodes that cover the offset it is the last that a walk visits.

## Main definitions

* `TxTree.Node.holdsTokenAt` — whether a token directly below a node covers an offset.
* `TxTree.Element.SearchedAt` — what the search finds among elements that tile some bytes.

## Main results

* `TxTree.Node.searchedAt`, `TxTree.Element.searchedAt` — what the search finds in a tiled tree.
* `TxTree.parse_nodeAt` — the node of a text at an offset.
-/

namespace TxTree

/-! ## Tokens at an offset -/

namespace Tiles

variable {start stop offset : Nat} {ts : List Token}

/-- Outside the bytes that they tile there is no token. -/
lemma filter_contains_eq_nil (h : Tiles start ts stop) (hout : offset < start ∨ stop ≤ offset) :
    ts.filter (·.span.contains offset) = [] := by
  refine List.filter_eq_nil_iff.2 fun t ht hcontains => ?_
  rw [Span.contains_iff] at hcontains
  obtain ⟨before, after, rfl⟩ := List.append_of_mem ht
  have hleft := h.of_append.1.le
  obtain ⟨hstart, -, hrest⟩ := h.of_append.2
  have hright := hrest.le
  omega

/-- **Among tokens that tile some bytes there is just one at each.** -/
lemma exists_filter_contains (h : Tiles start ts stop) (hstart : start ≤ offset)
    (hstop : offset < stop) : ∃ t, ts.filter (·.span.contains offset) = [t] := by
  induction ts generalizing start with
  | nil =>
    obtain rfl : start = stop := h
    omega
  | cons t ts ih =>
    obtain ⟨rfl, -, hrest⟩ := h
    by_cases ht : offset < t.span.stop
    · have hcontains : t.span.contains offset = true := Span.contains_iff.2 ⟨hstart, ht⟩
      exact ⟨t, by rw [List.filter_cons, if_pos hcontains, hrest.filter_contains_eq_nil (.inl ht)]⟩
    · have hcontains : ¬t.span.contains offset = true := fun h => ht (Span.contains_iff.1 h).2
      obtain ⟨u, hu⟩ := ih hrest (Nat.le_of_not_lt ht)
      exact ⟨u, by rw [List.filter_cons, if_neg hcontains, hu]⟩

end Tiles

/-! ## The search in a tiled tree -/

/-- Whether a token directly below a node covers an offset. -/
def Node.holdsTokenAt (offset : Nat) (n : Node) : Bool :=
  n.childTokens.any (·.span.contains offset)

/-- **What the search finds among elements** that tile the bytes from one offset to another: the
node that holds the token at the offset, which is the last of those that cover it, unless that token
is one of the elements. -/
structure Element.SearchedAt (offset : Nat) (cs : List Element) (start stop : Nat) : Prop where
  /-- No other node holds a token there. -/
  filter_holds : (nodesOfList cs).filter (·.holdsTokenAt offset) =
    (nodeAtInList? offset cs).toList
  /-- No later node covers the offset. -/
  getLast?_covers : ((nodesOfList cs).filter (·.span.contains offset)).getLast? =
    nodeAtInList? offset cs
  /-- Something is found, or a token is there, just within the bytes that are tiled. -/
  found_iff : (nodeAtInList? offset cs).isSome = true ∨
    (cs.filterMap token?).any (·.span.contains offset) = true ↔ start ≤ offset ∧ offset < stop
  /-- Nothing is found where a token is. -/
  apart : (cs.filterMap token?).any (·.span.contains offset) = true →
    nodeAtInList? offset cs = none

/-- What the search finds in a tree. -/
structure Node.SearchedAt (offset : Nat) (n : Node) : Prop where
  /-- No other node holds a token there. -/
  filter_holds : n.descendants.filter (·.holdsTokenAt offset) = (n.nodeAt? offset).toList
  /-- No later node covers the offset. -/
  getLast?_covers : (n.descendants.filter (·.span.contains offset)).getLast? = n.nodeAt? offset
  /-- Something is found just where the node is. -/
  found_iff : (n.nodeAt? offset).isSome = true ↔ n.span.start ≤ offset ∧ offset < n.span.stop

namespace Node

/-- A walk visits the root, and then what is below it. -/
lemma descendants_eq (n : Node) : n.descendants = n :: Element.nodesOfList n.children := by
  rw [descendants, walk, List.append_nil]
  rfl

/-- The search asks a node that covers the offset for what is below it, and then for itself. -/
lemma nodeAt?_eq (offset : Nat) (n : Node) :
    n.nodeAt? offset = if n.span.contains offset then
      (Element.nodeAtInList? offset n.children).or (some n) else none := by
  obtain ⟨k, s, cs⟩ := n
  rw [nodeAt?]
  rfl

end Node

namespace Element

variable {offset start stop : Nat} {cs : List Element}

lemma searchedAt_nil : SearchedAt offset [] start start where
  filter_holds := by simp [nodesOfList, nodeAtInList?, Node.walk]
  getLast?_covers := by simp [nodesOfList, nodeAtInList?, Node.walk]
  found_iff := by simp [nodeAtInList?]
  apart _ := by rw [nodeAtInList?]

/-- The search passes over a token in front of elements; it is the one at the offset, or nothing
changes. -/
lemma SearchedAt.token {t : Token} (h : SearchedAt offset cs t.span.stop stop)
    (hlt : t.span.start < t.span.stop) (hle : t.span.stop ≤ stop) :
    SearchedAt offset (.token t :: cs) t.span.start stop := by
  have hnodes : nodesOfList (.token t :: cs) = nodesOfList cs := rfl
  have htokens : (Element.token t :: cs).filterMap token? = t :: cs.filterMap token? := rfl
  have hfound := h.found_iff
  refine ⟨?_, ?_, ?_, ?_⟩
  · rw [hnodes, nodeAtInList?]
    exact h.filter_holds
  · rw [hnodes, nodeAtInList?]
    exact h.getLast?_covers
  · rw [nodeAtInList?, htokens, List.any_cons, Bool.or_eq_true, Span.contains_iff, or_left_comm,
      hfound]
    omega
  · rw [nodeAtInList?, htokens, List.any_cons, Bool.or_eq_true, Span.contains_iff]
    rintro (ht | hcs)
    · -- The token ends before the further elements begin.
      have hout : ¬(t.span.stop ≤ offset ∧ offset < stop) := by omega
      simpa using fun hsome => hout (hfound.1 (.inl hsome))
    · exact h.apart hcs

/-- The search goes down a node in front of elements if it covers the offset, and passes over it
if it does not. -/
lemma SearchedAt.node {n : Node} (hn : n.SearchedAt offset)
    (h : SearchedAt offset cs n.span.stop stop) (hle : n.span.start ≤ n.span.stop)
    (hle' : n.span.stop ≤ stop) : SearchedAt offset (.node n :: cs) n.span.start stop := by
  have hnodes : nodesOfList (.node n :: cs) = n.descendants ++ nodesOfList cs :=
    nodesOfList_append [.node n] cs
  have htokens : (Element.node n :: cs).filterMap token? = cs.filterMap token? := rfl
  have hfound := h.found_iff
  have hbelow := hn.found_iff
  -- The node and the further elements do not overlap: an answer of the one is the only one.
  have hor : n.nodeAt? offset = none ∨ nodeAtInList? offset cs = none := by
    by_contra! hboth
    have hleft := hbelow.1 (Option.isSome_iff_ne_none.2 hboth.1)
    have hright := hfound.1 (.inl (Option.isSome_iff_ne_none.2 hboth.2))
    omega
  refine ⟨?_, ?_, ?_, ?_⟩
  · rw [hnodes, nodeAtInList?, List.filter_append, hn.filter_holds, h.filter_holds]
    rcases hor with hnone | hnone <;> simp [hnone]
  · rw [hnodes, nodeAtInList?, List.filter_append, List.getLast?_append, hn.getLast?_covers,
      h.getLast?_covers]
    rcases hor with hnone | hnone <;> simp [hnone]
  · rw [nodeAtInList?, htokens, Option.isSome_or, Bool.or_eq_true, hbelow, or_assoc, hfound]
    omega
  · rw [nodeAtInList?, htokens]
    intro hcs
    have hright := hfound.1 (.inr hcs)
    have hleft : ¬(n.nodeAt? offset).isSome = true := fun hsome => by
      have hinside := hbelow.1 hsome
      omega
    rw [h.apart hcs, Option.or_none]
    simpa using hleft

/-- A node that covers the offset is the answer itself, if there is none below it. -/
lemma SearchedAt.enclose {n : Node}
    (h : SearchedAt offset n.children n.span.start n.span.stop) : n.SearchedAt offset := by
  have hfound := h.found_iff
  rw [← Span.contains_iff] at hfound
  have hholds : n.holdsTokenAt offset =
      (n.children.filterMap token?).any (·.span.contains offset) := rfl
  have hself := n.nodeAt?_eq offset
  have hfirst := n.descendants_eq
  by_cases hcovers : n.span.contains offset = true
  · rw [if_pos hcovers] at hself
    by_cases htoken : (n.children.filterMap token?).any (·.span.contains offset) = true
    · -- The token there is one of the children, and the node is the answer.
      have hnone := h.apart htoken
      rw [hnone, Option.none_or] at hself
      rw [htoken] at hholds
      refine ⟨?_, ?_, ?_⟩
      · simp [hfirst, hholds, h.filter_holds, hnone, hself]
      · simp [hfirst, hcovers, List.getLast?_cons, h.getLast?_covers, hnone, hself]
      · simpa [hself] using Span.contains_iff.1 hcovers
    · obtain ⟨m, hm⟩ := Option.isSome_iff_exists.1 ((hfound.2 hcovers).resolve_right htoken)
      rw [hm, Option.some_or] at hself
      rw [Bool.not_eq_true] at htoken
      rw [htoken] at hholds
      refine ⟨?_, ?_, ?_⟩
      · simp [hfirst, hholds, h.filter_holds, hm, hself]
      · simp [hfirst, hcovers, List.getLast?_cons, h.getLast?_covers, hm, hself]
      · simpa [hself] using Span.contains_iff.1 hcovers
  · obtain ⟨hnone, htoken⟩ := not_or.1 (hfound.not.2 hcovers)
    rw [Option.not_isSome_iff_eq_none] at hnone
    rw [if_neg hcovers] at hself
    rw [Bool.not_eq_true] at htoken
    rw [htoken] at hholds
    refine ⟨?_, ?_, ?_⟩
    · simp [hfirst, hholds, h.filter_holds, hnone, hself]
    · simp [hfirst, hcovers, h.getLast?_covers, hnone, hself]
    · rw [hself]
      exact iff_of_false Bool.false_ne_true fun hinside => hcovers (Span.contains_iff.2 hinside)

end Element

mutual

/-- **What the search finds in a tiled tree**, … -/
lemma Node.searchedAt (offset : Nat) : (n : Node) → n.Tiled → n.SearchedAt offset
  | ⟨k, s, cs⟩, h => by
    rw [Node.Tiled] at h
    exact (Element.searchedAt offset cs h).enclose

/-- … and among elements that tile some bytes. -/
lemma Element.searchedAt (offset : Nat) {start stop : Nat} :
    (cs : List Element) → Element.Tile start cs stop → Element.SearchedAt offset cs start stop
  | [], h => by
    rw [Element.Tile] at h
    subst h
    exact Element.searchedAt_nil
  | .token t :: cs, h => by
    rw [Element.Tile] at h
    obtain ⟨rfl, hlt, hrest⟩ := h
    exact (Element.searchedAt offset cs hrest).token hlt (Element.tiles_leavesOfList cs hrest).le
  | .node n :: cs, h => by
    rw [Element.Tile] at h
    obtain ⟨hn, rfl, hrest⟩ := h
    exact .node (Node.searchedAt offset n hn) (Element.searchedAt offset cs hrest)
      (n.tiles_leaves hn).le (Element.tiles_leavesOfList cs hrest).le

end

/-! ## The tree of a text -/

/-- The leaves of a node are those of its children. -/
lemma Node.leaves_eq (n : Node) : n.leaves = Element.leavesOfList n.children := by
  obtain ⟨k, s, cs⟩ := n
  rw [leaves]
  rfl

/-- The leaves of an element are among those of the list that it is in. -/
lemma Element.leaves_subset {c : Element} {cs : List Element} (hc : c ∈ cs) :
    leavesOfList [c] ⊆ leavesOfList cs := by
  obtain ⟨before, after, rfl⟩ := List.append_of_mem hc
  have hsplit : before ++ c :: after = before ++ ([c] ++ after) := rfl
  rw [hsplit, leavesOfList_append, leavesOfList_append]
  exact List.Subset.trans (List.subset_append_left ..) (List.subset_append_right ..)

/-- The tokens directly below the nodes of a tree are among its leaves. -/
lemma Node.mem_leaves_of_mem_children {root n : Node} {t : Token} (hn : n ∈ root.descendants)
    (ht : .token t ∈ n.children) : t ∈ root.leaves := by
  have hbelow : ∀ m ∈ root.descendants, m.leaves ⊆ root.leaves := by
    refine forall_mem_descendants (fun n hn m hm => List.Subset.trans ?_ hn) (List.Subset.refl _)
    have hleaves := Element.leaves_subset (Element.mem_nodes_iff.1 hm)
    rwa [Element.leavesOfList, Element.leavesOfList, List.append_nil, ← n.leaves_eq] at hleaves
  have hleaf := Element.leaves_subset ht
  rw [Element.leavesOfList, Element.leavesOfList, ← n.leaves_eq] at hleaf
  exact hbelow n hn (hleaf (List.mem_singleton_self t))

/-- Where there is only one leaf, the nodes that hold a token are those that it is directly
below. -/
lemma Node.holdsTokenAt_eq {root m : Node} {t : Token} {offset : Nat}
    (h : root.leaves.filter (·.span.contains offset) = [t]) (hm : m ∈ root.descendants) :
    m.holdsTokenAt offset = decide (.token t ∈ m.children) := by
  have honly : ∀ u : Token, u ∈ root.leaves ∧ u.span.contains offset = true ↔ u = t := by
    intro u
    have hmem : u ∈ root.leaves.filter (·.span.contains offset) ↔ u = t := by
      rw [h, List.mem_singleton]
    rwa [List.mem_filter] at hmem
  rw [Bool.eq_iff_iff, decide_eq_true_iff, holdsTokenAt, List.any_eq_true]
  constructor
  · rintro ⟨u, hu, hcontains⟩
    have hchild := Element.mem_tokens_iff.1 hu
    rwa [← (honly u).1 ⟨mem_leaves_of_mem_children hm hchild, hcontains⟩]
  · intro hchild
    exact ⟨t, Element.mem_tokens_iff.2 hchild, ((honly t).2 rfl).2⟩

/-- **The search finds the innermost node at an offset.** There is none just at and behind the end
of the text. Before it there is one token of the text that covers the offset and one node of the
tree that has this token directly below it; and that node is found. It is always the last that
covers the offset of all nodes in pre-order. -/
theorem parse_nodeAt (text : String) (offset : Nat) :
    ((parse text).root.nodeAt? offset = none ↔ text.utf8ByteSize ≤ offset) ∧
      (offset < text.utf8ByteSize → ∃ t n,
        (tokenize text).filter (·.span.contains offset) = [t] ∧
          ((parse text).root.descendants.filter fun m => .token t ∈ m.children) = [n] ∧
            (parse text).root.nodeAt? offset = some n) ∧
      (parse text).root.nodeAt? offset =
        ((parse text).root.descendants.filter (·.span.contains offset)).getLast? := by
  obtain ⟨htiled, hspan⟩ := tiled_root (tiles_tokenize text)
  have hstop : (parse text).root.span.stop = text.utf8ByteSize := congrArg Span.stop hspan
  have hsearch := (parse text).root.searchedAt offset htiled
  have hfound := hsearch.found_iff
  have hstart : (parse text).root.span.start = 0 := congrArg Span.start hspan
  rw [hstart, hstop] at hfound
  refine ⟨?_, fun hlt => ?_, hsearch.getLast?_covers.symm⟩
  · rw [← Option.not_isSome_iff_eq_none, hfound]
    omega
  · obtain ⟨t, ht⟩ := (tiles_tokenize text).exists_filter_contains (Nat.zero_le offset) hlt
    obtain ⟨n, hn⟩ := Option.isSome_iff_exists.1 (hfound.2 ⟨Nat.zero_le offset, hlt⟩)
    refine ⟨t, n, ht, ?_, hn⟩
    have hholds := hsearch.filter_holds
    rw [hn, Option.toList_some] at hholds
    rw [← hholds]
    have hleaf : (parse text).root.leaves.filter (·.span.contains offset) = [t] := by
      rw [← ht]
      exact congrArg _ (leaves_root (tokenize text))
    exact List.filter_congr fun m hm => (Node.holdsTokenAt_eq hleaf hm).symm

/-- The semicolon behind a missing type is directly below the alias, and this is the node found
there: the empty node of the type is at the same offset, but does not cover it. -/
theorem parse_nodeAt_missing_type :
    7 < "type A=;".utf8ByteSize ∧ ∃ n, n.kind = .typeAliasDecl ∧
      ((parse "type A=;").root.descendants.filter fun m =>
        .token (.ofText .semicolon ";" 7) ∈ m.children) = [n] ∧
      (parse "type A=;").root.nodeAt? 7 = some n := by
  have hlt : 7 < "type A=;".utf8ByteSize := by decide
  obtain ⟨t, n, htoken, hholds, hfound⟩ := (parse_nodeAt "type A=;" 7).2.1 hlt
  have hsemicolon : (tokenize "type A=;").filter (·.span.contains 7) =
      [.ofText .semicolon ";" 7] := by decide +kernel
  obtain rfl : Token.ofText .semicolon ";" 7 = t := by
    rw [hsemicolon] at htoken
    exact List.head_eq_of_cons_eq htoken
  have hkind : ((parse "type A=;").root.nodeAt? 7).map (·.kind) = some .typeAliasDecl := by
    decide +kernel
  rw [hfound] at hkind
  exact ⟨hlt, n, Option.some_inj.1 hkind, hholds, hfound⟩

end TxTree
