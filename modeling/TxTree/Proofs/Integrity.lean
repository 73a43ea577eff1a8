import TxTree.Proofs.Boundary
import TxTree.Proofs.Conformity
import TxTree.Proofs.File
import TxTree.Proofs.Lossless

set_option relaxedAutoImplicit false
set_option autoImplicit false

/-!
# The integrity of the tree

What every node of every parse is held to. Whatever the tokens are, a node has child nodes that its
kind admits, and a token that was passed over was reported; and if nothing was reported, nothing is
missing.

A character that begins no token is reported wherever it stands, except in the path of an import,
which takes in whatever stands there.

## Main results

* `TxTree.parseTokens_admitted` — the child nodes of every node are admitted by its kind.
* `TxTree.parse_whole` — in the tree of a clean text nothing is missing.
* `TxTree.parseTokens_reported` — each token that was passed over was reported.
* `TxTree.parse_invalid_reported` — so is each character that begins no token, unless it is in the
  path of an import.
-/

namespace TxTree

/-! ## Nodes and their tokens -/

/-- The nodes of a tree are its root and those below. -/
lemma Node.mem_descendants_iff {m n : Node} :
    m ∈ n.descendants ↔ m = n ∨ m ∈ Element.nodesOfList n.children := by
  rw [descendants, walk, List.append_nil, List.mem_cons]
  rfl

/-- What is on the stack of a walk is visited. -/
lemma Node.mem_walk_of_mem {m : Node} {stack : List Node} (h : m ∈ stack) : m ∈ walk stack := by
  obtain ⟨before, after, rfl⟩ := List.append_of_mem h
  rw [walk_append, walk]
  exact List.mem_append_right _ (List.mem_cons_self ..)

/-- Of a node that is visited the child nodes are visited as well. -/
lemma Node.mem_walk_of_mem_childNodes {m n : Node} {stack : List Node} (hn : n ∈ walk stack)
    (hm : m ∈ n.childNodes) : m ∈ walk stack := by
  induction stack using walk.induct with
  | case1 =>
    rw [walk] at hn
    cases hn
  | case2 first rest ih =>
    rw [walk, List.mem_cons] at hn ⊢
    rcases hn with rfl | hn
    · exact .inr (mem_walk_of_mem (List.mem_append_left _ hm))
    · exact .inr (ih hn)

/-- The child nodes of a node of a tree are nodes of the tree. -/
lemma Node.mem_descendants_trans {l m n : Node} (hn : n ∈ l.descendants) (hm : m ∈ n.childNodes) :
    m ∈ l.descendants :=
  mem_walk_of_mem_childNodes hn hm

/-- The child nodes of a tree are nodes of it. -/
lemma Node.mem_descendants_of_mem {m n : Node} (h : m ∈ n.childNodes) : m ∈ n.descendants :=
  mem_descendants_trans (mem_descendants_iff.2 (.inl rfl)) h

/-- What a node hands on to its child nodes, all nodes that are visited have if those on the stack
do. -/
lemma Node.forall_mem_walk {p : Node → Prop} (hp : ∀ n, p n → ∀ m ∈ n.childNodes, p m)
    {stack : List Node} (h : ∀ n ∈ stack, p n) : ∀ n ∈ walk stack, p n := by
  induction stack using walk.induct with
  | case1 =>
    rw [walk]
    exact List.forall_mem_nil p
  | case2 first rest ih =>
    rw [List.forall_mem_cons] at h
    rw [walk, List.forall_mem_cons]
    refine ⟨h.1, ih fun n hn => ?_⟩
    exact (List.mem_append.1 hn).elim (hp first h.1 n) (h.2 n)

/-- What a node hands on to its child nodes, all nodes below it have if it does. -/
lemma Node.forall_mem_descendants {p : Node → Prop} (hp : ∀ n, p n → ∀ m ∈ n.childNodes, p m)
    {n : Node} (h : p n) : ∀ m ∈ n.descendants, p m :=
  forall_mem_walk hp (by rwa [List.forall_mem_singleton])

/-- A node without children has no leaves. -/
lemma Node.leaves_eq_nil_of_children {n : Node} (h : n.children = []) : n.leaves = [] := by
  obtain ⟨k, s, cs⟩ := n
  rw [children_mk] at h
  rw [leaves, h, Element.leavesOfList]

mutual

/-- Each leaf of a tree is directly below one of its nodes, … -/
lemma Node.exists_of_mem_leaves {t : Token} :
    (n : Node) → t ∈ n.leaves → ∃ m ∈ n.descendants, .token t ∈ m.children
  | ⟨k, s, cs⟩, h => by
    rw [Node.leaves] at h
    rcases Element.exists_of_mem_leavesOfList cs h with h | ⟨m, hm, ht⟩
    · exact ⟨_, Node.mem_descendants_iff.2 (.inl rfl), h⟩
    · exact ⟨m, Node.mem_descendants_iff.2 (.inr hm), ht⟩

/-- … and each leaf of a list of children is one of them, or directly below a node. -/
lemma Element.exists_of_mem_leavesOfList {t : Token} :
    (cs : List Element) → t ∈ Element.leavesOfList cs →
      .token t ∈ cs ∨ ∃ m ∈ Element.nodesOfList cs, .token t ∈ m.children
  | [], h => by
    rw [Element.leavesOfList] at h
    cases h
  | .token u :: cs, h => by
    rw [Element.leavesOfList, List.mem_cons] at h
    rcases h with rfl | h
    · exact .inl (List.mem_cons_self ..)
    · exact (Element.exists_of_mem_leavesOfList cs h).imp (List.mem_cons_of_mem _) id
  | .node n :: cs, h => by
    rw [Element.leavesOfList, List.mem_append] at h
    have hnodes : Element.nodesOfList (.node n :: cs) = n.descendants ++ Element.nodesOfList cs :=
      Element.nodesOfList_append [.node n] cs
    rcases h with h | h
    · obtain ⟨m, hm, ht⟩ := Node.exists_of_mem_leaves n h
      exact .inr ⟨m, hnodes ▸ List.mem_append_left _ hm, ht⟩
    · refine (Element.exists_of_mem_leavesOfList cs h).imp (List.mem_cons_of_mem _) ?_
      rintro ⟨m, hm, ht⟩
      exact ⟨m, hnodes ▸ List.mem_append_right _ hm, ht⟩

end

/-! ## The tree of a stream of tokens -/

namespace Grammar

/-- Nothing is gathered at the start. -/
lemma lawful_ofTokens (law : Node → Prop) (tokens : List Token) :
    (Gathering.ofTokens tokens).Lawful law := by
  intro n hn
  simp [Gathering.ofTokens, Element.nodesOfList, Node.walk] at hn

lemma nodesOfList_finish (g : Gathering) :
    Element.nodesOfList g.finish.children = Element.nodesOfList g.children := by
  rw [Gathering.finish, Gathering.attachAll_children, Element.nodesOfList_append,
    Element.nodesOfList_map_token, List.append_nil]

end Grammar

open Grammar

/-- **What a contract says of the nodes of a parse**, in one piece: if the nesting levels keep it
and the rule of a file adds words of a language, the parts of the root are such a word, and all
nodes below the root obey the law. Either errors may be found, or it is known that none are.

**Proof sketch.** The rule of a file assures it, with room for nesting levels at its start. -/
theorem lawful_parseTokens {c : Contract} (hkept : c.Kept) {L : Language Element}
    (hfile : file.Adds c False false (fun _ => True) L) (tokens : List Token)
    (h : c.faulty ∨ (parseTokens tokens).2 = []) :
    (parseTokens tokens).1.parts ∈ L ∧
      ∀ n ∈ Element.nodesOfList (parseTokens tokens).1.children, c.law n ∧
        (n.kind = .error → ∃ t, n.children = [.token t] ∧ t.isTrivia = false ∧
          ∃ d ∈ (parseTokens tokens).2, d.span = t.span) := by
  obtain ⟨g, hg, -, hend⟩ := exists_derives_file tokens
  rw [parseTokens_eq hg] at h ⊢
  have hfound : g.diagnostics <+: g.finish.diagnostics := by
    rw [Gathering.finish, Gathering.attachAll_diagnostics]
    exact List.prefix_append ..
  have hclean : c.faulty ∨ g.diagnostics = [] := h.imp_right fun h =>
    List.prefix_nil.1 (eq_nil_of_sort_eq_nil h ▸ hfound)
  have hroom : maxNesting = 0 → False := by decide
  obtain ⟨w, ⟨-, word, hword, hadded⟩, hseen, hlawful⟩ := hg.assured hkept hroom hclean
    (hfile.assures trivial) (Gathering.seenAs_start _) (lawful_ofTokens _ tokens)
  refine ⟨?_, fun n hn => ?_⟩
  · have hparts : Element.parts g.finish.children = word := by
      rw [Gathering.finish, Gathering.attachAll_children, Element.parts_append,
        Element.parts_map_token (pending_eq_nil_iff.1 hend), List.append_nil, hseen.parts_eq,
        hadded]
      rfl
    change Element.parts g.finish.children ∈ _
    rw [hparts]
    exact hword
  · change n ∈ Element.nodesOfList g.finish.children at hn
    rw [nodesOfList_finish] at hn
    obtain ⟨hlaw, herror⟩ := hlawful n hn
    refine ⟨hlaw, fun hk => ?_⟩
    obtain ⟨t, hchildren, htrivia, d, hd, hspan⟩ := herror hk
    exact ⟨t, hchildren, htrivia, d, List.mem_mergeSort.2 (hfound.subset hd), hspan⟩

/-- The root of a parse. -/
lemma kind_parseTokens (tokens : List Token) : (parseTokens tokens).1.kind = .file := by
  obtain ⟨g, hg, -, -⟩ := exists_derives_file tokens
  rw [parseTokens_eq hg]
  rfl

/-- What is said of the nodes of a parse: the parts of the root are declarations and tokens that
were passed over, and all nodes below it are sound. -/
theorem parseTokens_sound (tokens : List Token) {faulty : Prop}
    (h : faulty ∨ (parseTokens tokens).2 = []) :
    (parseTokens tokens).1.kind = .file ∧
      (parseTokens tokens).1.parts ∈ words isKnown (every (ofKind (NodeKind.orError
        NodeKind.isDeclaration))) ∧
      ∀ n ∈ Element.nodesOfList (parseTokens tokens).1.children, n.IsSound faulty ∧
        (n.kind = .error → ∃ t, n.children = [.token t] ∧ t.isTrivia = false ∧
          ∃ d ∈ (parseTokens tokens).2, d.span = t.span) :=
  ⟨kind_parseTokens tokens, lawful_parseTokens (kept_soundness faulty) (adds_file id) tokens h⟩

/-! ## Malformed input -/

/-- **The tree keeps to the schema, errors included**: whatever the tokens are, the child nodes of
every node are admitted by its kind. -/
theorem parseTokens_admitted (tokens : List Token) :
    ∀ n ∈ (parseTokens tokens).1.descendants,
      n.kind.admits (n.significantTokens.map (·.kind)) (n.childNodes.map (·.kind)) = true := by
  intro n hn
  obtain ⟨hroot, hparts, hbelow⟩ := parseTokens_sound tokens (.inl trivial)
  rcases Node.mem_descendants_iff.1 hn with rfl | hn
  · rw [hroot]
    exact all_map_kind (Node.childNodes_mem hparts)
  · exact (hbelow n hn).1.admitted

/-- A record that is never closed. -/
theorem parseTokens_admitted_unclosed :
    (parseTokens (tokenize "record R \x7b a: @")).1 ∈
        (parseTokens (tokenize "record R \x7b a: @")).1.descendants ∧
      (parseTokens (tokenize "record R \x7b a: @")).1.kind.admits
        ((parseTokens (tokenize "record R \x7b a: @")).1.significantTokens.map (·.kind))
        ((parseTokens (tokenize "record R \x7b a: @")).1.childNodes.map (·.kind)) = true := by
  have hroot := Node.mem_descendants_iff.2 (.inl (Eq.refl
    (parseTokens (tokenize "record R \x7b a: @")).1))
  exact ⟨hroot, parseTokens_admitted _ _ hroot⟩

/-- **Nothing is passed over silently**: whatever the tokens are, each node for a token that was
passed over has that token as its only child, which is neither white space nor a comment, and there
is a diagnostic with exactly its span. -/
theorem parseTokens_reported (tokens : List Token) :
    ∀ n ∈ (parseTokens tokens).1.descendants, n.kind = .error →
      ∃ t, n.children = [.token t] ∧ t.isTrivia = false ∧
        ∃ d ∈ (parseTokens tokens).2, d.span = t.span := by
  intro n hn hk
  obtain ⟨hroot, -, hbelow⟩ := parseTokens_sound tokens (.inl trivial)
  rcases Node.mem_descendants_iff.1 hn with rfl | hn
  · rw [hroot] at hk
    cases hk
  · exact (hbelow n hn).2 hk

/-- A character that begins no declaration. -/
theorem parseTokens_reported_stray :
    ⟨.error, ⟨0, 1⟩, [.token ⟨.invalid, "@", ⟨0, 1⟩⟩]⟩ ∈
        (parseTokens (tokenize "@")).1.descendants ∧
      ∃ t, (Node.mk .error ⟨0, 1⟩ [.token ⟨.invalid, "@", ⟨0, 1⟩⟩]).children = [.token t] ∧
        t.isTrivia = false ∧ ∃ d ∈ (parseTokens (tokenize "@")).2, d.span = t.span := by
  have hmem := Node.mem_descendants_of_mem (m := ⟨.error, ⟨0, 1⟩,
    [.token ⟨.invalid, "@", ⟨0, 1⟩⟩]⟩) (n := (parseTokens (tokenize "@")).1) (by decide +kernel)
  exact ⟨hmem, parseTokens_reported _ _ hmem rfl⟩

/-- **Characters that begin no token are reported**, with exactly their spans, except those in the
path of an import. -/
theorem parse_invalid_reported (text : String) :
    ∀ t ∈ tokenize text, t.kind = .invalid →
      (∃ d ∈ (parse text).diagnostics, d.span = t.span) ∨
        ∃ n ∈ (parse text).root.descendants, n.kind = .pathExpr ∧ .token t ∈ n.children := by
  intro t ht hinvalid
  obtain ⟨hroot, hparts, hbelow⟩ := parseTokens_sound (tokenize text) (.inl trivial)
  rw [← leaves_root (tokenize text)] at ht
  obtain ⟨n, hn, hmem⟩ := Node.exists_of_mem_leaves _ ht
  have htrivia : t.isTrivia = false := by
    rw [Token.isTrivia, hinvalid]
    rfl
  have hpart : .token t ∈ n.parts := List.mem_filter.2 ⟨hmem, by simp [Element.isTrivia, htrivia]⟩
  rcases Node.mem_descendants_iff.1 hn with rfl | hbelow'
  · have hknown := hparts.1 t hpart
    rw [hinvalid] at hknown
    cases hknown
  · obtain ⟨hsound, herror⟩ := hbelow n hbelow'
    by_cases hpath : n.kind = .pathExpr
    · exact .inr ⟨n, hn, hpath, hmem⟩
    · have hk : n.kind = .error := by
        by_contra hk
        exact hsound.known hpath hk t hpart hinvalid
      obtain ⟨u, hchildren, -, d, hd, hspan⟩ := herror hk
      rw [hchildren, List.mem_singleton] at hmem
      exact .inl ⟨d, hd, by rw [hspan, Element.token.inj hmem]⟩

/-- Such a character between declarations is reported. -/
theorem parse_invalid_reported_stray :
    ⟨.invalid, "@", ⟨0, 1⟩⟩ ∈ tokenize "@" ∧ TokenKind.invalid = .invalid ∧
      ((∃ d ∈ (parse "@").diagnostics, d.span = ⟨0, 1⟩) ∨
        ∃ n ∈ (parse "@").root.descendants,
          n.kind = .pathExpr ∧ .token ⟨.invalid, "@", ⟨0, 1⟩⟩ ∈ n.children) := by
  have hmem : (⟨.invalid, "@", ⟨0, 1⟩⟩ : Token) ∈ tokenize "@" := by decide +kernel
  exact ⟨hmem, rfl, parse_invalid_reported "@" _ hmem rfl⟩

/-- In the path of an import it is not. -/
theorem parse_invalid_unreported :
    (parse "policy P = import(@);").isOk = true ∧
      ⟨.invalid, "@", ⟨18, 19⟩⟩ ∈ tokenize "policy P = import(@);" := by
  decide +kernel

/-! ## Clean input -/

/-- **The tree of a clean text has no holes.** In every node there is what its kind has to have; a
node without children is an empty path of an import, or the root of the empty text; and all fields
outside blocks of metadata have names. -/
theorem parse_whole (text : String) (hclean : (parse text).diagnostics = []) :
    ∀ n ∈ (parse text).root.descendants,
      n.HasAll ∧
      (n.children = [] → n.kind = .pathExpr ∨ n.kind = .file ∧ text = "") ∧
      (∀ m ∈ n.childNodes, m.kind = .pathExpr →
        n.kind = .callExpr ∧ (n.significantTokens.map (·.kind)).head? = some .importKw) ∧
      (n.kind ≠ .metadataBlock → n.HasNamedFields) := by
  intro n hn
  have hnone : False ∨ (parseTokens (tokenize text)).2 = [] := .inr hclean
  obtain ⟨hroot, hparts, hbelow⟩ := parseTokens_sound (tokenize text) hnone
  obtain ⟨hadmitted, hall, hempty⟩ :
      n.kind.admits (n.significantTokens.map (·.kind)) (n.childNodes.map (·.kind)) = true ∧
        n.HasAll ∧ (n.children = [] → n.kind = .pathExpr ∨ n.kind = .file ∧ text = "") := by
    rcases Node.mem_descendants_iff.1 hn with rfl | hn
    · refine ⟨?_, ?_, fun hnil => .inr ⟨hroot, ?_⟩⟩
      · exact hroot ▸ all_map_kind (Node.childNodes_mem hparts)
      · rw [Node.HasAll, show (parse text).root.kind = .file from hroot]
        trivial
      · have hleaves : (parseTokens (tokenize text)).1.leaves = [] :=
          Node.leaves_eq_nil_of_children hnil
        rw [← join_text_tokenize text, ← leaves_root (tokenize text), hleaves]
        rfl
    · obtain ⟨hsound, -⟩ := hbelow n hn
      have hwhole := hsound.whole id
      exact ⟨hsound.admitted, hwhole.all, fun hnil =>
        .inl (hwhole.children_ne_nil.resolve_left (absurd hnil))⟩
  refine ⟨hall, hempty, fun m hm hpath => ?_, Node.hasNamedFields_of_hasAll hadmitted hall⟩
  exact NodeKind.holder_of_pathExpr hadmitted (List.mem_map.2 ⟨m, hm, hpath⟩)

/-- A type and an import of nothing. -/
theorem parse_whole_empty_import :
    (parse "type A = Int; policy P = import();").diagnostics = [] ∧
      ∀ n ∈ (parse "type A = Int; policy P = import();").root.descendants,
        n.HasAll ∧
        (n.children = [] → n.kind = .pathExpr ∨
          n.kind = .file ∧ "type A = Int; policy P = import();" = "") ∧
        (∀ m ∈ n.childNodes, m.kind = .pathExpr →
          n.kind = .callExpr ∧ (n.significantTokens.map (·.kind)).head? = some .importKw) ∧
        (n.kind ≠ .metadataBlock → n.HasNamedFields) := by
  have hclean : (parse "type A = Int; policy P = import();").diagnostics = [] := by decide +kernel
  exact ⟨hclean, parse_whole _ hclean⟩

end TxTree
