import TxTree.Proofs.Bodies
import TxTree.Tree.View

set_option relaxedAutoImplicit false
set_option autoImplicit false

/-!
# Programs are parsed as they are written

A text that spells a program is parsed without a finding, and its tree is that of the program,
whatever white space and comments there are in the text. So precedence is as written, operands of
one layer share one flat node, and every declaration is found with its kind and name.

## Main results

* `TxTree.parse_expression` — what is between the equals sign and the semicolon of a binding is the
  tree of the expression that is spelt there.
* `TxTree.parse_program` — a program has no diagnostics, and its declarations are those that are
  spelt.
-/

namespace TxTree

open Grammar TokenKind

/-! ## Texts that are read -/

/-- What is left of a stream brings no findings. -/
lemma Grammar.Gathering.Shows.diagnostics_finish {f : List Shape} {w : List Lexeme} {g : Gathering}
    (h : g.Shows f w) : g.finish.diagnostics = g.diagnostics := by
  have hnil : g.ahead.flatMap complaints = [] := by
    rw [List.flatMap_eq_nil_iff]
    exact fun t ht => complaints_eq_nil (h.terminated t ht)
  rw [Gathering.finish, Gathering.attachAll_diagnostics, hnil, List.append_nil]

/-- A text that the rule of a file reads has no diagnostics, and the shape that is read. -/
lemma parse_of_reads {text : String} {f : List Shape}
    (hterminated : ∀ t ∈ tokenize text, t.isUnterminated = false)
    (hreads : Reads maxNesting file [] (lexemes (tokenize text)) f []) :
    (parse text).diagnostics = [] ∧ (parse text).root.shape = .node .file f := by
  obtain ⟨g, hg, hshows, hclean⟩ := hreads (.ofTokens (tokenize text)) ⟨rfl, rfl, hterminated⟩
  have hpending : pending g.ahead = [] := List.map_eq_nil_iff.1 hshows.lexemes_eq
  refine ⟨?_, ?_⟩
  · change (parseTokens (tokenize text)).2 = []
    rw [parseTokens_eq hg, hshows.diagnostics_finish, hclean]
    exact List.mergeSort_nil
  · change (parseTokens (tokenize text)).1.shape = _
    rw [parseTokens_eq hg]
    exact congrArg (Shape.node .file) ((Gathering.shapes_finish hpending).trans hshows.shapes_eq)

/-- Declarations one behind the other are read as a file. -/
lemma reads_file {room : Nat} {ds : List Declaration}
    (hroom : ∀ d ∈ ds, ∀ n ∈ d.nestings, n ≤ room) :
    Reads room file [] (ds.flatMap Declaration.print) (ds.map Declaration.tree) [] := by
  have hopen (d : Declaration) (w : List Lexeme) :
      (lookaheadOf (d.print ++ w)).isEnd = false ∧ True := ⟨rfl, trivial⟩
  have hfile : Reads room file [] (ds.flatMap Declaration.print ++ [])
      ([] ++ ds.flatMap fun d => [d.tree]) [] :=
    .loop (fun _ => True) rfl (fun d _ => hopen d) (fun d hd _ _ _ => d.reads (hroom d hd)) rfl
      trivial
  exact hfile.of_eq (List.append_nil _) (by rw [List.nil_append, ← List.map_eq_flatMap])

/-! ## Expressions -/

/-- **An expression is parsed as it is written**: if the lexemes of a text are those of a
transaction `tx t() { let x = E; }`, no string and no comment in it lacks its closing mark, and `E`
nests no deeper than allowed, then there are no diagnostics, and what is between the equals sign and
the semicolon of the binding is the tree of `E`. -/
theorem parse_expression (t x : Name) (e : Expr) (text : String)
    (hnesting : e.nesting ≤ maxNesting)
    (hlexemes : lexemes (tokenize text) =
      [txKw.lexeme, t.1, lParen.lexeme, rParen.lexeme, lBrace.lexeme, letKw.lexeme, x.1,
          eq.lexeme] ++
        e.print ++ [semicolon.lexeme, rBrace.lexeme])
    (hterminated : ∀ t ∈ tokenize text, t.isUnterminated = false) :
    (parse text).diagnostics = [] ∧
      (parse text).root.shape =
        .node .file [.node .txDecl
          [.leaf txKw.lexeme, .leaf t.1,
            .node .paramList [.leaf lParen.lexeme, .leaf rParen.lexeme],
            .leaf lBrace.lexeme,
            .node .letBinding
              ([.leaf letKw.lexeme, .leaf x.1, .leaf eq.lexeme] ++ e.tree ++
                [.leaf semicolon.lexeme]),
            .leaf rBrace.lexeme]] := by
  let program : List Declaration := [.tx t [] [.binding x e]]
  have hroom : ∀ d ∈ program, ∀ n ∈ d.nestings, n ≤ maxNesting := by
    simpa [program, Declaration.nestings, BodyItem.nestings] using hnesting
  have hreads := reads_file hroom
  refine parse_of_reads hterminated (hreads.of_eq ?_ ?_)
  · rw [hlexemes]
    simp [program, Declaration.print, Declaration.printBody, Declaration.keyword,
      Declaration.name?, nameIf, inBraces, BodyItem.print]
  · simp [program, Declaration.tree, Declaration.treeBody, Declaration.keyword,
      Declaration.name?, nameIf, Declaration.kind, shapesInBraces, BodyItem.tree, leaves]

/-- A sum of a negative number and a product as a condition, and a list with a trailing comma. -/
theorem parse_expression_layers :
    (parse "tx t() // sum\n { let x = -1 + b * c ? x : [1,]; }").diagnostics = [] ∧
      (parse "tx t() // sum\n { let x = -1 + b * c ? x : [1,]; }").root.shape =
        .node .file [.node .txDecl
          [.leaf txKw.lexeme, .leaf ⟨.ident, "t"⟩,
            .node .paramList [.leaf lParen.lexeme, .leaf rParen.lexeme],
            .leaf lBrace.lexeme,
            .node .letBinding
              [.leaf letKw.lexeme, .leaf ⟨.ident, "x"⟩, .leaf eq.lexeme,
                .node .ternaryExpr
                  [.node .binaryExpr
                    [.node .unaryExpr
                        [.leaf minus.lexeme, .node .literal [.leaf ⟨.intLiteral, "1"⟩]],
                      .leaf plus.lexeme,
                      .node .binaryExpr
                        [.node .nameRef [.leaf ⟨.ident, "b"⟩], .leaf star.lexeme,
                          .node .nameRef [.leaf ⟨.ident, "c"⟩]]],
                    .leaf question.lexeme, .node .nameRef [.leaf ⟨.ident, "x"⟩],
                    .leaf colon.lexeme,
                    .node .listExpr
                      [.leaf lBracket.lexeme, .node .literal [.leaf ⟨.intLiteral, "1"⟩],
                        .leaf comma.lexeme, .leaf rBracket.lexeme]],
                .leaf semicolon.lexeme],
            .leaf rBrace.lexeme]] :=
  parse_expression ⟨⟨.ident, "t"⟩, rfl⟩ ⟨⟨.ident, "x"⟩, rfl⟩
    (.ternary
      (.single (.single (.flat
        (.single (.signed ⟨.minus, rfl⟩
          (.unsigned (.bare (.literal ⟨⟨.intLiteral, "1"⟩, rfl⟩)))))
        (.last ⟨.plus, rfl⟩ (.flat
          (.unsigned (.bare (.reference ⟨⟨.ident, "b"⟩, rfl⟩)))
          (.last ⟨.star, rfl⟩
            (.unsigned (.bare (.reference ⟨⟨.ident, "c"⟩, rfl⟩)))))))))
      (.plain (.single (.single (.single (.single (.unsigned
        (.bare (.reference ⟨⟨.ident, "x"⟩, rfl⟩))))))))
      (.plain (.single (.single (.single (.single (.unsigned
        (.bare (.list (.item
          (.plain (.single (.single (.single (.single (.unsigned
            (.bare (.literal ⟨⟨.intLiteral, "1"⟩, rfl⟩))))))))
          .noItem)))))))))) _
    (by decide) (by decide +kernel) (by decide +kernel)

/-! ## Declarations -/

namespace Declaration

/-- The kinds of declarations are kinds of declarations. -/
lemma isDeclaration_kind (d : Declaration) : d.kind.isDeclaration = true := by cases d <;> rfl

/-- The name of a declaration is looked for behind the word that opens it, if it has one. -/
lemma nameToken?_kind {d : Declaration} (hd : d.name? ≠ none) (tokens : List Token) :
    Node.nameToken? d.kind tokens = (tokens.drop 1).find? (·.kind != .star) := by
  cases d with
  | env fs => exact absurd rfl hd
  | _ => rfl

/-- A node that looks like a declaration has its kind and its name. -/
lemma kind_name?_eq {n : Node} {d : Declaration} (h : n.shape = d.tree) :
    n.kind = d.kind ∧ n.name?.map Token.lexeme = d.name?.map (·.1) := by
  rw [n.shape_eq] at h
  obtain ⟨hkind, hshapes⟩ := Shape.node.inj h
  refine ⟨hkind, ?_⟩
  rw [Node.name?, hkind]
  cases hname : d.name? with
  | none =>
    cases d with
    | env fs => rfl
    | _ => cases hname
  | some name =>
    have htokens := n.map_lexeme_significantTokens
    rw [hshapes, hname] at htokens
    obtain ⟨t, ts, hts, -, hrest⟩ := List.map_eq_cons_iff.1 htokens
    obtain ⟨u, us, rfl, hu, -⟩ := List.map_eq_cons_iff.1 hrest
    have hisName : u.kind.isName = true := (congrArg (·.kind.isName) hu).trans name.2
    have hstar : (u.kind != .star) = true := by
      rw [bne_iff_ne]
      intro hk
      rw [hk] at hisName
      cases hisName
    have hfind : (u :: us).find? (·.kind != .star) = some u := List.find?_cons_of_pos hstar
    rw [nameToken?_kind (by rw [hname]; nofun), hts, List.drop_one, List.tail_cons, hfind,
      Option.filter_some, if_pos hisName, Option.map_some, hu]
    rfl

/-- Nodes that look like declarations are declarations with their kinds and names. -/
lemma map_kind_name?_eq {ns : List Node} {ds : List Declaration}
    (h : List.Forall₂ (fun n d => n.shape = Declaration.tree d) ns ds) :
    (ns.filter (·.kind.isDeclaration)).map (fun n => (n.kind, n.name?.map Token.lexeme)) =
      ds.map fun d => (d.kind, d.name?.map (·.1)) := by
  induction h with
  | nil => rfl
  | @cons n d ns ds hn _ ih =>
    obtain ⟨hkind, hname⟩ := kind_name?_eq hn
    rw [List.filter_cons_of_pos (by rw [hkind, d.isDeclaration_kind]), List.map_cons,
      List.map_cons, ih, hkind, hname]

end Declaration

/-- **A program is parsed as it is written**: if the lexemes of a text are those of some
declarations, no string and no comment in it lacks its closing mark, and no expression and no type
nests deeper than allowed, then there are no diagnostics, the tree is that of the declarations, and
its declarations are those that are written, in their order, each with its kind and its name. -/
theorem parse_program (ds : List Declaration) (text : String)
    (hnesting : ∀ d ∈ ds, ∀ n ∈ d.nestings, n ≤ maxNesting)
    (hlexemes : lexemes (tokenize text) = ds.flatMap Declaration.print)
    (hterminated : ∀ t ∈ tokenize text, t.isUnterminated = false) :
    (parse text).diagnostics = [] ∧
      (parse text).root.shape = .node .file (ds.map Declaration.tree) ∧
      (parse text).root.declarations.map (fun n => (n.kind, n.name?.map Token.lexeme)) =
        ds.map fun d => (d.kind, d.name?.map (·.1)) := by
  obtain ⟨hclean, hshape⟩ := parse_of_reads hterminated (hlexemes ▸ reads_file hnesting)
  refine ⟨hclean, hshape, Declaration.map_kind_name?_eq ?_⟩
  have hnodes : (parse text).root.childNodes.map Node.shape = ds.map Declaration.tree := by
    rw [Node.shape_eq] at hshape
    rw [Node.map_shape_childNodes, (Shape.node.inj hshape).2, List.filter_eq_self]
    intro s hs
    obtain ⟨d, -, rfl⟩ := List.mem_map.1 hs
    rfl
  rw [← List.forall₂_eq_eq_eq] at hnodes
  rwa [List.forall₂_map_left_iff, List.forall₂_map_right_iff] at hnodes

/-- A party, an environment, and a transaction with the name of a keyword. -/
theorem parse_program_soft_name :
    (parse "party Alice; env { net: Int } tx mint(q: Int) { signers { Alice } }").diagnostics = [] ∧
      List.map (fun n : Node => (n.kind, n.name?.map Token.lexeme))
          (parse "party Alice; env { net: Int } tx mint(q: Int) { signers { Alice } }"
            ).root.declarations =
        [(.partyDecl, some ⟨.ident, "Alice"⟩), (.envDecl, none),
          (.txDecl, some ⟨.mintKw, "mint"⟩)] := by
  have h := parse_program
    [.party ⟨⟨.ident, "Alice"⟩, rfl⟩,
      .env (.field ⟨⟨.ident, "net"⟩, rfl⟩ (.plain (.named ⟨⟨.intType, "Int"⟩, rfl⟩)) false
        .noField),
      .tx ⟨⟨.mintKw, "mint"⟩, rfl⟩
        [⟨⟨⟨.ident, "q"⟩, rfl⟩, .plain (.named ⟨⟨.intType, "Int"⟩, rfl⟩), false⟩]
        [.signers (.lastItem (.plain (.single (.single (.single (.single (.unsigned
          (.bare (.reference ⟨⟨.ident, "Alice"⟩, rfl⟩)))))))))]]
    "party Alice; env { net: Int } tx mint(q: Int) { signers { Alice } }"
    (by decide) (by decide +kernel) (by decide +kernel)
  exact ⟨h.1, h.2.2⟩

end TxTree
