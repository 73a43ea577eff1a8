import TxTree.Proofs.Arrangement

set_option relaxedAutoImplicit false
set_option autoImplicit false

/-!
# The arguments of types, and the names of spreads

In the tree of a clean text a list type has one type for its argument and a map type two, in angle
brackets, or there are no brackets at all: the word alone is taken for a type. Behind the mark of a
spread there is a name, or nothing.

## Main results

* `TxTree.parse_arguments` — what list types, map types and spreads are made of.
* `TxTree.parse_arguments_bare` — a text without errors in which none of them is complete.
-/

namespace TxTree

open Grammar

namespace Node

variable {n : Node} {ps : List Element}

/-- The kinds of the tokens directly below a node, white space and comments apart. -/
def tokenKinds (n : Node) : List TokenKind := n.significantTokens.map (·.kind)

/-- The child nodes and the kinds of the tokens of a node by its parts. -/
lemma constituents_of_parts (h : n.parts = ps) :
    n.childNodes = ps.filterMap Element.node? ∧
      n.tokenKinds = (ps.filterMap Element.token?).map (·.kind) := by
  rw [childNodes_eq, tokenKinds, significantTokens_eq, h]
  exact ⟨rfl, rfl⟩

/-- A list type has its argument, or is the word alone. -/
lemma arguments_of_genericType (h : n.parts ∈ form .genericType) :
    n.childNodes = [] ∧ n.tokenKinds = [.listType] ∨
      (∃ m, n.childNodes = [m] ∧ m.kind.isType = true) ∧
        n.tokenKinds = [.listType, .lt, .gt] := by
  obtain ⟨_, ⟨t, ht, rfl⟩, _, hrest, heq⟩ := h
  obtain ⟨_, ⟨_, ⟨l, hl, rfl⟩, _, ⟨m, hm, rfl⟩, rfl⟩, _, ⟨g, hg, rfl⟩, rfl⟩ | rfl := hrest
  · obtain ⟨hnodes, hkinds⟩ := constituents_of_parts heq.symm
    refine .inr ⟨⟨m, hnodes, hm.1⟩, hkinds.trans ?_⟩
    change [t.kind, l.kind, g.kind] = _
    rw [eq_of_beq ht, eq_of_beq hl, eq_of_beq hg]
  · obtain ⟨hnodes, hkinds⟩ := constituents_of_parts heq.symm
    refine .inl ⟨hnodes, hkinds.trans ?_⟩
    change [t.kind] = _
    rw [eq_of_beq ht]

/-- A map type has its two arguments, or is the word alone. -/
lemma arguments_of_mapType (h : n.parts ∈ form .mapType) :
    n.childNodes = [] ∧ n.tokenKinds = [.mapType] ∨
      (∃ m m', n.childNodes = [m, m'] ∧ m.kind.isType = true ∧ m'.kind.isType = true) ∧
        (n.tokenKinds = [.mapType, .lt, .comma, .gt] ∨ n.tokenKinds = [.mapType, .lt, .gt]) := by
  obtain ⟨_, ⟨t, ht, rfl⟩, _, hrest, heq⟩ := h
  obtain ⟨_, ⟨_, ⟨_, ⟨_, ⟨l, hl, rfl⟩, _, ⟨m, hm, rfl⟩, rfl⟩, _, hcomma, rfl⟩, _, ⟨m', hm', rfl⟩,
    rfl⟩, _, ⟨g, hg, rfl⟩, rfl⟩ | rfl := hrest
  · obtain ⟨c, hc, rfl⟩ | rfl := hcomma
    all_goals
      obtain ⟨hnodes, hkinds⟩ := constituents_of_parts heq.symm
      refine .inr ⟨⟨m, m', hnodes, hm.1, hm'.1⟩, ?_⟩
    · refine .inl (hkinds.trans ?_)
      change [t.kind, l.kind, c.kind, g.kind] = _
      rw [eq_of_beq ht, eq_of_beq hl, eq_of_beq hc, eq_of_beq hg]
    · refine .inr (hkinds.trans ?_)
      change [t.kind, l.kind, g.kind] = _
      rw [eq_of_beq ht, eq_of_beq hl, eq_of_beq hg]
  · obtain ⟨hnodes, hkinds⟩ := constituents_of_parts heq.symm
    refine .inl ⟨hnodes, hkinds.trans ?_⟩
    change [t.kind] = _
    rw [eq_of_beq ht]

/-- A spread has a name behind its mark, or none, and may have a comma behind that. -/
lemma name_of_spreadExpr (h : n.parts ∈ form .spreadExpr) :
    n.childNodes = [] ∧ ∃ names commas : List TokenKind,
      n.tokenKinds = .spread :: (names ++ commas) ∧
        (names = [] ∨ ∃ k, k.isName = true ∧ names = [k]) ∧ (commas = [] ∨ commas = [.comma]) := by
  obtain ⟨_, ⟨_, ⟨t, ht, rfl⟩, _, hname, rfl⟩, _, hcomma, heq⟩ := h
  obtain ⟨hnodes, hkinds⟩ := constituents_of_parts heq.symm
  have hspread := eq_of_beq ht
  obtain ⟨u, hu, rfl⟩ | rfl := hname <;> obtain ⟨c, hc, rfl⟩ | rfl := hcomma
  · refine ⟨hnodes, [u.kind], [.comma], hkinds.trans ?_, .inr ⟨_, hu, rfl⟩, .inr rfl⟩
    change [t.kind, u.kind, c.kind] = _
    rw [hspread, eq_of_beq hc]
    rfl
  · refine ⟨hnodes, [u.kind], [], hkinds.trans ?_, .inr ⟨_, hu, rfl⟩, .inl rfl⟩
    change [t.kind, u.kind] = _
    rw [hspread]
    rfl
  · refine ⟨hnodes, [], [.comma], hkinds.trans ?_, .inl rfl, .inr rfl⟩
    change [t.kind, c.kind] = _
    rw [hspread, eq_of_beq hc]
    rfl
  · refine ⟨hnodes, [], [], hkinds.trans ?_, .inl rfl, .inl rfl⟩
    change [t.kind] = _
    rw [hspread]
    rfl

end Node

/-- **The arguments of types, and the names of spreads**: in the tree of a clean text a list type
with angle brackets has one type between them, and a map type two; without brackets there is nothing
behind the word. A spread has nothing below it, and at most a name behind its mark. -/
theorem parse_arguments (text : String) (hclean : (parse text).diagnostics = []) :
    ∀ n ∈ (parse text).root.descendants,
      (n.kind = .genericType →
        n.childNodes = [] ∧ n.tokenKinds = [.listType] ∨
        (∃ m, n.childNodes = [m] ∧ m.kind.isType = true) ∧
          n.tokenKinds = [.listType, .lt, .gt]) ∧
      (n.kind = .mapType →
        n.childNodes = [] ∧ n.tokenKinds = [.mapType] ∨
        (∃ m m', n.childNodes = [m, m'] ∧ m.kind.isType = true ∧ m'.kind.isType = true) ∧
          (n.tokenKinds = [.mapType, .lt, .comma, .gt] ∨ n.tokenKinds = [.mapType, .lt, .gt])) ∧
      (n.kind = .spreadExpr →
        n.childNodes = [] ∧ ∃ names commas : List TokenKind,
          n.tokenKinds = .spread :: (names ++ commas) ∧
            (names = [] ∨ ∃ k, k.isName = true ∧ names = [k]) ∧
            (commas = [] ∨ commas = [.comma])) := by
  intro n hn
  have hform := parts_mem_form hclean n hn
  refine ⟨fun hk => ?_, fun hk => ?_, fun hk => ?_⟩
  · exact Node.arguments_of_genericType (hk ▸ hform)
  · exact Node.arguments_of_mapType (hk ▸ hform)
  · exact Node.name_of_spreadExpr (hk ▸ hform)

/-- A map of lists, without a comma between its arguments. -/
theorem parse_arguments_map :
    (parse "type A = Map<Int List<Bytes>>;").diagnostics = [] ∧
      ∃ n ∈ (parse "type A = Map<Int List<Bytes>>;").root.descendants, n.kind = .mapType ∧
        (n.childNodes = [] ∧ n.tokenKinds = [.mapType] ∨
          (∃ m m', n.childNodes = [m, m'] ∧ m.kind.isType = true ∧ m'.kind.isType = true) ∧
            (n.tokenKinds = [.mapType, .lt, .comma, .gt] ∨
              n.tokenKinds = [.mapType, .lt, .gt])) := by
  have hclean : (parse "type A = Map<Int List<Bytes>>;").diagnostics = [] := by decide +kernel
  obtain ⟨d, hd, n, hn, hk⟩ : ∃ d ∈ (parse "type A = Map<Int List<Bytes>>;").root.childNodes,
      ∃ n ∈ d.childNodes, n.kind = .mapType := by decide +kernel
  have hmem := Node.mem_descendants_trans (Node.mem_descendants_of_mem hd) hn
  exact ⟨hclean, n, hmem, hk, (parse_arguments _ hclean n hmem).2.1 hk⟩

/-- A list type and a map type without arguments, and a spread without a name, are taken without an
error. -/
theorem parse_arguments_bare :
    (parse "type A = List; type B = Map; policy P \x7b a: ... \x7d").diagnostics = [] ∧
      (∃ n ∈ (parse "type A = List; type B = Map; policy P \x7b a: ... \x7d").root.descendants,
        n.kind = .genericType ∧ n.childNodes = []) ∧
      (∃ n ∈ (parse "type A = List; type B = Map; policy P \x7b a: ... \x7d").root.descendants,
        n.kind = .mapType ∧ n.childNodes = []) ∧
      ∃ n ∈ (parse "type A = List; type B = Map; policy P \x7b a: ... \x7d").root.descendants,
        n.kind = .spreadExpr ∧ n.tokenKinds = [.spread] := by
  have hroot := fun {d n : Node}
      (hd : d ∈ (parse "type A = List; type B = Map; policy P \x7b a: ... \x7d").root.childNodes)
      (hn : n ∈ d.childNodes) =>
    Node.mem_descendants_trans (Node.mem_descendants_of_mem hd) hn
  obtain ⟨⟨a, ha, l, hl, hlist⟩, ⟨b, hb, m, hm, hmap⟩, p, hp, f, hf, e, he, hspread⟩ :
      (∃ d ∈ (parse "type A = List; type B = Map; policy P \x7b a: ... \x7d").root.childNodes,
        ∃ n ∈ d.childNodes, n.kind = .genericType ∧ n.childNodes = []) ∧
      (∃ d ∈ (parse "type A = List; type B = Map; policy P \x7b a: ... \x7d").root.childNodes,
        ∃ n ∈ d.childNodes, n.kind = .mapType ∧ n.childNodes = []) ∧
      ∃ d ∈ (parse "type A = List; type B = Map; policy P \x7b a: ... \x7d").root.childNodes,
        ∃ f ∈ d.childNodes, ∃ n ∈ f.childNodes,
          n.kind = .spreadExpr ∧ n.tokenKinds = [.spread] := by decide +kernel
  exact ⟨by decide +kernel, ⟨l, hroot ha hl, hlist⟩, ⟨m, hroot hb hm, hmap⟩,
    e, Node.mem_descendants_trans (hroot hp hf) he, hspread⟩

end TxTree
