import TxTree.Proofs.Completeness
import TxTree.Proofs.Trivia

set_option relaxedAutoImplicit false
set_option autoImplicit false

/-!
# Aliases are parsed as they are written

A text that spells the alias of a type has a tree with the tree of that type, whatever white space
and comments there are in the text. No token of a type has a closing mark to lack, so the only
thing that can be amiss with such a text is that it does not close a comment: its significant tokens
are read without a finding, and the tree does not depend on the others.

## Main results

* `TxTree.parse_of_reads_pending` — a text whose significant tokens are read.
* `TxTree.parse_alias` — the alias of a type or a union is parsed as it is written.
-/

namespace TxTree

open Grammar TokenKind

/-! ## Texts whose significant tokens are read -/

/-- The pending tokens of a stream are all that its lexemes depend on. -/
lemma lexemes_pending (tokens : List Token) : lexemes (pending tokens) = lexemes tokens := by
  rw [lexemes, lexemes, pending, pending, List.filter_filter]
  simp only [Bool.and_self]

/-- **A text whose significant tokens are read** as a file has the shape that is read, and nothing
is amiss with it but comments without their closing marks.

**Proof sketch.** The stream of the significant tokens alone is read without a finding, and the
derivation of the whole stream is alike. -/
lemma parse_of_reads_pending {text : String} {f : List Shape}
    (hterminated : ∀ t ∈ pending (tokenize text), t.isUnterminated = false)
    (hreads : Reads maxNesting file [] (lexemes (tokenize text)) f []) :
    (parse text).root.shape = .node .file f ∧
      ∀ d ∈ (parse text).diagnostics, d.isLasting = false := by
  have hsame := lexemes_pending (tokenize text)
  obtain ⟨g, hg, hshows, hclean⟩ :=
    hreads (.ofTokens (pending (tokenize text))) ⟨rfl, hsame, hterminated⟩
  obtain ⟨h, hh, halike⟩ := hg.alike hsame (.ofTokens _ (tokenize text))
  have hlexemes : h.lexemes = [] := (halike.lexemes_eq hsame).trans hshows.lexemes_eq
  have hleft : pending g.ahead = [] := List.map_eq_nil_iff.1 hshows.lexemes_eq
  have hright : pending h.ahead = [] := List.map_eq_nil_iff.1 hlexemes
  have hshape : h.shapes = f := halike.shapes_eq.trans hshows.shapes_eq
  refine ⟨?_, fun d hd => ?_⟩
  · change (parseTokens (tokenize text)).1.shape = _
    rw [parseTokens_eq hh]
    exact congrArg (Shape.node .file) ((Gathering.shapes_finish hright).trans hshape)
  · have hfound : d ∈ h.finish.diagnostics := by
      change d ∈ (parseTokens (tokenize text)).2 at hd
      rw [parseTokens_eq hh] at hd
      exact List.mem_mergeSort.1 hd
    have hquiet : g.finish.diagnostics = [] := hshows.diagnostics_finish.trans hclean
    have hmatch := (halike.finish hleft hright).matchLasting
    rw [MatchLasting, hquiet, List.filter_nil, List.forall₂_nil_left_iff,
      List.filter_eq_nil_iff] at hmatch
    exact Bool.eq_false_iff.2 (hmatch d hfound)

/-! ## Closing marks -/

/-- A name is no string. -/
lemma Name.kind_ne_stringLiteral (n : Name) : n.1.kind ≠ .stringLiteral := by
  intro hkind
  have hname := n.2
  rw [hkind] at hname
  cases hname

/-- There is no string in a type. -/
lemma TypePhrase.kind_ne_stringLiteral {s : TypeSort} (t : TypePhrase s) :
    ∀ l ∈ t.print, l.kind ≠ .stringLiteral := by
  have hcomma (b : Bool) : ∀ l ∈ commaIf b, l.kind ≠ .stringLiteral := by cases b <;> simp [lexemeIf]
  induction t with
  | plain t ih => exact ih
  | array t ih => simpa [print, or_imp, forall_and] using ih
  | named n =>
    obtain ⟨⟨k, text⟩, hk⟩ := n
    simp only [print, List.mem_singleton, forall_eq]
    rintro rfl
    cases hk
  | listOf t ih => simpa [print, or_imp, forall_and] using ih
  | generic t ih => simpa [print, or_imp, forall_and] using ih
  | map k v b ih₁ ih₂ =>
    simp only [print, List.forall_mem_append, List.forall_mem_cons]
    simpa using ⟨⟨ih₁, hcomma b⟩, ih₂⟩
  | record fs ih => simpa [print, or_imp, forall_and] using ih
  | noField => simp [print]
  | field n t b rest ih₁ ih₂ =>
    simp only [print, List.forall_mem_append, List.forall_mem_cons]
    simpa using ⟨⟨⟨n.kind_ne_stringLiteral, ih₁⟩, hcomma b⟩, ih₂⟩

/-! ## Aliases -/

/-- A type is one node. -/
lemma TypePhrase.exists_tree_eq (t : Ty) : ∃ type : Shape, t.tree = [type] := by
  cases t with
  | plain t => cases t <;> exact ⟨_, rfl⟩
  | array t => exact ⟨_, rfl⟩

/-- There is no string in an alias. -/
lemma kind_ne_stringLiteral_of_alias {A : Name} {t : Ty} {ts : List Ty} {tokens : List Token}
    (hlexemes : lexemes tokens =
      [typeKw.lexeme, A.1, eq.lexeme] ++ t.print ++ ts.flatMap (fun u => pipe.lexeme :: u.print) ++
        [semicolon.lexeme]) :
    ∀ u ∈ tokens, u.kind ≠ .stringLiteral := by
  have hstrings : ∀ l ∈ lexemes tokens, l.kind ≠ .stringLiteral := by
    intro l hl
    simp only [hlexemes, List.mem_append, List.mem_cons, List.not_mem_nil, or_false,
      List.mem_flatMap] at hl
    obtain (((rfl | rfl | rfl) | hl) | ⟨u, -, rfl | hl⟩) | rfl := hl
    · nofun
    · exact A.kind_ne_stringLiteral
    · nofun
    · exact t.kind_ne_stringLiteral l hl
    · nofun
    · exact u.kind_ne_stringLiteral l hl
    · nofun
  intro u hu hkind
  have hpending : u ∈ pending tokens :=
    List.mem_filter.2 ⟨hu, by rw [Token.isTrivia, hkind]; rfl⟩
  exact hstrings _ (List.mem_map_of_mem hpending) hkind

/-- **An alias is parsed as it is written**: if the lexemes of a text are those of
`type A = T | … | U;`, and none of the types nests deeper than allowed, then the tree is that of the
alias, with the tree of the type as its only child node; two or more types have one union around
them. Nothing is amiss but a comment that the text does not close, and so nothing at all if it
closes its comments. -/
theorem parse_alias (A : Name) (t : Ty) (ts : List Ty) (text : String)
    (hnesting : ∀ u ∈ t :: ts, u.nesting ≤ maxNesting)
    (hlexemes : lexemes (tokenize text) =
      [typeKw.lexeme, A.1, eq.lexeme] ++ t.print ++ ts.flatMap (fun u => pipe.lexeme :: u.print) ++
        [semicolon.lexeme]) :
    (∃ type : Shape,
      (if ts.isEmpty then t.tree
        else [.node .unionType (t.tree ++ ts.flatMap fun u => .leaf pipe.lexeme :: u.tree)]) =
          [type] ∧
      (parse text).root.shape =
        .node .file [.node .typeAliasDecl
          [.leaf typeKw.lexeme, .leaf A.1, .leaf eq.lexeme, type, .leaf semicolon.lexeme]]) ∧
      (∀ d ∈ (parse text).diagnostics, d.message = "Unterminated block comment") ∧
      ((∀ u ∈ tokenize text, u.kind = .blockComment → u.isUnterminated = false) →
        (parse text).diagnostics = []) := by
  let declaration : Declaration := .typeAlias A t ts
  have hroom : ∀ d ∈ [declaration], ∀ n ∈ d.nestings, n ≤ maxNesting := by
    simpa [declaration, Declaration.nestings] using hnesting
  have hprint : [declaration].flatMap Declaration.print = lexemes (tokenize text) := by
    rw [hlexemes]
    simp [declaration, Declaration.print, Declaration.printBody, Declaration.keyword,
      Declaration.name?, nameIf]
  have hreads := (reads_file hroom).of_eq hprint rfl
  have hstrings := kind_ne_stringLiteral_of_alias hlexemes
  have hpending : ∀ u ∈ pending (tokenize text), u.isUnterminated = false := by
    intro u hu
    obtain ⟨hmem, htrivia⟩ := List.mem_filter.1 hu
    refine Token.isUnterminated_eq_false (hstrings u hmem) fun hkind => ?_
    rw [Token.isTrivia, hkind] at htrivia
    cases htrivia
  obtain ⟨hshape, hlasting⟩ := parse_of_reads_pending hpending hreads
  refine ⟨?_, fun d hd => ?_, fun hclosed => ?_⟩
  · cases ts with
    | nil =>
      obtain ⟨type, htype⟩ := t.exists_tree_eq
      refine ⟨type, htype, ?_⟩
      rw [hshape]
      simp [declaration, Declaration.tree, Declaration.treeBody, Declaration.keyword,
        Declaration.kind, Declaration.name?, nameIf, leaves, htype]
    | cons u us =>
      refine ⟨_, rfl, ?_⟩
      rw [hshape]
      simp [declaration, Declaration.tree, Declaration.treeBody, Declaration.keyword,
        Declaration.kind, Declaration.name?, nameIf, leaves]
  · simpa [Diagnostic.isLasting] using hlasting d hd
  · refine (parse_of_reads (fun u hu => ?_) hreads).1
    by_cases hcomment : u.kind = .blockComment
    · exact hclosed u hu hcomment
    · exact Token.isUnterminated_eq_false (hstrings u hu) hcomment

/-- An alias behind which a comment is opened and not closed has all its tokens, and its type nests
no deeper than allowed, but a diagnostic says that the comment is not closed. -/
theorem parse_alias_unclosed :
    lexemes (tokenize "type A = Int; /*") =
        [typeKw.lexeme, ⟨.ident, "A"⟩, eq.lexeme] ++
          TypePhrase.print (.plain (.named ⟨⟨.intType, "Int"⟩, rfl⟩)) ++ [semicolon.lexeme] ∧
      TypePhrase.nesting (.plain (.named ⟨⟨.intType, "Int"⟩, rfl⟩)) ≤ maxNesting ∧
      (parse "type A = Int; /*").diagnostics =
        [.error ⟨14, 16⟩ "Unterminated block comment"] := by
  decide +kernel

/-- A union of a map of arrays, a record with a field named like a keyword, and a name. -/
theorem parse_alias_union :
    (parse "type A = Map<Int, List<[Bytes]>>[][] /* or */ | { a: B[], mint: Int, } | C;"
      ).diagnostics = [] ∧
    (parse "type A = Map<Int, List<[Bytes]>>[][] /* or */ | { a: B[], mint: Int, } | C;"
      ).root.shape =
      .node .file [.node .typeAliasDecl
        [.leaf typeKw.lexeme, .leaf ⟨.ident, "A"⟩, .leaf eq.lexeme,
          .node .unionType
            [.node .arrayType
              [.node .arrayType
                [.node .mapType
                  [.leaf mapType.lexeme, .leaf lt.lexeme, .node .typeRef [.leaf ⟨.intType, "Int"⟩],
                    .leaf comma.lexeme,
                    .node .genericType
                      [.leaf listType.lexeme, .leaf lt.lexeme,
                        .node .listType
                          [.leaf lBracket.lexeme, .node .typeRef [.leaf ⟨.bytesType, "Bytes"⟩],
                            .leaf rBracket.lexeme],
                        .leaf gt.lexeme],
                    .leaf gt.lexeme],
                .leaf lBracket.lexeme, .leaf rBracket.lexeme],
              .leaf lBracket.lexeme, .leaf rBracket.lexeme],
            .leaf pipe.lexeme,
            .node .anonymousRecordType
              [.leaf lBrace.lexeme,
                .node .recordField
                  [.leaf ⟨.ident, "a"⟩, .leaf colon.lexeme,
                    .node .arrayType
                      [.node .typeRef [.leaf ⟨.ident, "B"⟩], .leaf lBracket.lexeme,
                        .leaf rBracket.lexeme],
                    .leaf comma.lexeme],
                .node .recordField
                  [.leaf ⟨.mintKw, "mint"⟩, .leaf colon.lexeme,
                    .node .typeRef [.leaf ⟨.intType, "Int"⟩], .leaf comma.lexeme],
                .leaf rBrace.lexeme],
            .leaf pipe.lexeme, .node .typeRef [.leaf ⟨.ident, "C"⟩]],
          .leaf semicolon.lexeme]] := by
  have h := parse_alias ⟨⟨.ident, "A"⟩, rfl⟩
    (.array (.array (.plain (.map (.plain (.named ⟨⟨.intType, "Int"⟩, rfl⟩))
      (.plain (.generic (.plain (.listOf (.plain (.named ⟨⟨.bytesType, "Bytes"⟩, rfl⟩)))))) true))))
    [.plain (.record (.field ⟨⟨.ident, "a"⟩, rfl⟩
        (.array (.plain (.named ⟨⟨.ident, "B"⟩, rfl⟩))) true
        (.field ⟨⟨.mintKw, "mint"⟩, rfl⟩ (.plain (.named ⟨⟨.intType, "Int"⟩, rfl⟩)) true
          .noField))),
      .plain (.named ⟨⟨.ident, "C"⟩, rfl⟩)]
    "type A = Map<Int, List<[Bytes]>>[][] /* or */ | { a: B[], mint: Int, } | C;"
    (by decide) (by decide +kernel)
  obtain ⟨⟨type, htype, hshape⟩, -, hclean⟩ := h
  obtain rfl := (List.cons.inj htype).1
  exact ⟨hclean (by decide +kernel), hshape⟩

end TxTree
