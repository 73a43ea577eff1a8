import TxTree.Proofs.Expressions
import TxTree.Proofs.Programs

set_option relaxedAutoImplicit false
set_option autoImplicit false

/-!
# Reading declarations

Every declaration is read back from the lexemes that spell it, with the tree that stands for it,
whatever comes behind it, as long as no expression or type in it nests too deeply. That commas are
optional does no harm, for no expression and no type goes on with what an entry, a parameter or a
case begins with.

## Main results

* `TxTree.BodyItem.reads` — every block and binding is read.
* `TxTree.Declaration.reads` — every declaration is read.
-/

namespace TxTree

open Grammar TokenKind

variable {room : Nat} {f f' : List Shape} {w w' : List Lexeme}

/-! ## Lists in braces -/

/-- What is in braces is read if the list inside is. -/
lemma reads_braced {item : Rule} {ls : List Lexeme} {fs : List Shape}
    (h : Reads room (.loop (·.endsList .rBrace) item) (f ++ [.leaf lBrace.lexeme])
      (ls ++ rBrace.lexeme :: w) (f ++ [.leaf lBrace.lexeme] ++ fs) (rBrace.lexeme :: w)) :
    Reads room (.braced item) f (inBraces ls ++ w) (f ++ shapesInBraces fs) w := by
  have hbraced : Reads room (.braced item) f (lBrace.lexeme :: (ls ++ rBrace.lexeme :: w)) _ w :=
    .expectThen rfl (h.seq (.expect rfl))
  exact hbraced.of_eq (by simp [inBraces]) (by simp [shapesInBraces])

/-- A name is read if there is one. -/
lemma reads_nameIf (name : Option Name) (hw : (lookaheadOf w).startsWith isName = false) :
    Reads room .nameIfAny f (nameIf name ++ w) (f ++ leaves (nameIf name)) w := by
  cases name with
  | none => exact (Reads.no hw .done).of_eq rfl (List.append_nil f).symm
  | some n => exact .yes n.2 .bump

/-! ## Entries -/

/-- What may come behind an entry: nothing that its value goes on with, and no comma. -/
def FollowsEntry (w : List Lexeme) : Prop :=
  (lookaheadOf w).startsWith Category.expression.goesOn = false ∧
    (lookaheadOf w).starts .comma = false

/-- Keys that separate one entry from the next: no expression and no block ends or goes on with
them. -/
def Separates (isKey : TokenKind → Bool) : Prop :=
  ∀ k, isKey k = true → Category.expression.goesOn k = false ∧ (k == .comma) = false ∧
    (k == .rBrace || k.isHardDeclarationKeyword) = false

lemma separates_isName : Separates isName := by
  unfold Separates
  decide

lemma separates_isMetadataKey : Separates isMetadataKey := by
  unfold Separates
  decide

namespace Entry

variable {isKey : TokenKind → Bool}

/-- An entry does not end the list, and may come behind another one. -/
lemma opens (hkeys : Separates isKey) (e : Entry isKey) (w : List Lexeme) :
    (lookaheadOf (e.print ++ w)).endsList .rBrace = false ∧ FollowsEntry (e.print ++ w) := by
  have hkey : (lookaheadOf (e.print ++ w)).startsWith isKey = true := e.key.2
  refine ⟨endsList_eq_false (fun k hk => (hkeys k hk).2.2) hkey, ?_, ?_⟩
  · exact startsWith_eq_false_of_disjoint (fun k hk => (hkeys k hk).1) hkey
  · rw [starts_eq_startsWith]
    exact startsWith_eq_false_of_disjoint (fun k hk => (hkeys k hk).2.1) hkey

/-- The value behind a key is read. -/
lemma reads_value (e : Entry isKey) (hroom : e.value.nesting ≤ room) (hw : FollowsEntry w) :
    Reads room valueAfterKey f (colon.lexeme :: (e.value.print ++ (commaIf e.comma ++ w)))
      (f ++ [.leaf colon.lexeme] ++ e.value.tree ++ leaves (commaIf e.comma)) w :=
  ((Reads.expect rfl).seq (e.value.reads hroom (Phrase.not_goesOn_commaIf e.comma hw.1))).seq
    (.lexemeIf e.comma hw.2)

end Entry

/-- **Entries in braces are read** if the rule for an entry is that of a node of some kind, which
holds a key and the value behind it. -/
lemma reads_entries {isKey : TokenKind → Bool} {item : Rule} {kind : NodeKind}
    (hkeys : Separates isKey)
    (hitem : ∀ (e : Entry isKey) (f f' : List Shape) (w w' : List Lexeme),
      Reads room valueAfterKey [.leaf e.key.1] w f' w' →
        Reads room item f (e.key.1 :: w) (f ++ [.node kind f']) w')
    {es : List (Entry isKey)} (hroom : ∀ e ∈ es, e.value.nesting ≤ room) :
    Reads room (.braced item) f (inBraces (es.flatMap Entry.print) ++ w)
      (f ++ shapesInBraces (es.flatMap (Entry.tree kind))) w := by
  refine reads_braced (.loop FollowsEntry rfl (fun e _ => e.opens hkeys)
    (fun e he f w hw => ?_) rfl ⟨rfl, rfl⟩)
  exact (hitem e f _ _ w (e.reads_value (hroom e he) hw)).of_eq (by simp [Entry.print])
    (by simp [Entry.tree, leaves])

/-- The fields of a block are read. -/
lemma reads_fieldBlock {fs : List BlockField} (hroom : ∀ e ∈ fs, e.value.nesting ≤ room) :
    Reads room fieldBlock f (inBraces (fs.flatMap Entry.print) ++ w)
      (f ++ shapesInBraces (fs.flatMap (Entry.tree .blockField))) w :=
  reads_entries separates_isName (fun e _ _ _ _ h => .yes e.key.2 (.node (.bump_append h))) hroom

/-! ## Blocks and bindings -/

namespace BodyItem

section Blocks

variable {fs : List BlockField} (hfs : ∀ e ∈ fs, e.value.nesting ≤ room)

include hfs

lemma reads_input (b : Bool) (name : Option Name) :
    Reads room bodyItem f ((input b name fs).print ++ w) (f ++ (input b name fs).tree) w := by
  -- Neither the name nor the brace behind it is a star.
  have hstar :
      (lookaheadOf (nameIf name ++ (inBraces (fs.flatMap Entry.print) ++ w))).starts .star =
        false := by
    cases name with
    | none => rfl
    | some n => exact n.not_starts _ rfl
  have hblock : Reads room inputBlock f (inputKw.lexeme :: _) _ w :=
    .node (((Reads.bump.seq (.lexemeIf b hstar)).seq (reads_nameIf name rfl)).seq
      (reads_fieldBlock hfs))
  have hall : Reads room bodyItem f _ _ w := .of_resolve_cons rfl hblock
  exact hall.of_eq (by simp [print]) (by simp [tree, leaves])

lemma reads_named (b : NamedBlock) (name : Option Name) :
    Reads room bodyItem f ((named b name fs).print ++ w) (f ++ (named b name fs).tree) w := by
  have hresolve (second : Option TokenKind) :
      bodyItem.resolve ⟨some b.keyword, second⟩ = namedBlock b.kind := by cases b <;> rfl
  have hblock : Reads room (namedBlock b.kind) f (b.keyword.lexeme :: _) _ w :=
    .node ((Reads.bump.seq (reads_nameIf name rfl)).seq (reads_fieldBlock hfs))
  have hall : Reads room bodyItem f _ _ w := .of_resolve_cons (hresolve _) hblock
  exact hall.of_eq (by simp [print]) (by simp [tree, leaves])

lemma reads_plain (b : PlainBlock) :
    Reads room bodyItem f ((plain b fs).print ++ w) (f ++ (plain b fs).tree) w := by
  have hresolve (second : Option TokenKind) :
      bodyItem.resolve ⟨some b.keyword, second⟩ = plainBlock b.kind := by cases b <;> rfl
  have hblock : Reads room (plainBlock b.kind) f (b.keyword.lexeme :: _) _ w :=
    .node (.bump_append (reads_fieldBlock hfs))
  exact .of_resolve_cons (hresolve _) hblock

lemma reads_locals : Reads room bodyItem f ((locals fs).print ++ w) (f ++ (locals fs).tree) w := by
  have hblock : Reads room localsBlock f (localsKw.lexeme :: _) _ w :=
    .node (.bump_append (reads_entries separates_isName
      (fun e _ _ _ _ h => .node (.nameThen e.key.2 h)) hfs))
  exact .of_resolve_cons rfl hblock

lemma reads_cardano (n : Name) :
    Reads room bodyItem f ((cardano n fs).print ++ w) (f ++ (cardano n fs).tree) w := by
  have hblock : Reads room cardanoBlock f (cardanoKw.lexeme :: colonColon.lexeme :: n.1 :: _) _ w :=
    .node (.bump_append (.expectThen rfl (.nameThen n.2 (reads_fieldBlock hfs))))
  exact .of_resolve_cons rfl hblock

end Blocks

lemma reads_signers {es : Phrase (.items .curly)} (hes : es.nesting ≤ room) :
    Reads room bodyItem f ((signers es).print ++ w) (f ++ (signers es).tree) w := by
  have hblock : Reads room signersBlock f (signersKw.lexeme :: (inBraces es.print ++ w)) _ w :=
    .node (.bump_append (reads_braced (es.reads hes rfl)))
  exact .of_resolve_cons rfl hblock

lemma reads_metadata {fs : List MetadataField} (hfs : ∀ e ∈ fs, e.value.nesting ≤ room) :
    Reads room bodyItem f ((metadata fs).print ++ w) (f ++ (metadata fs).tree) w := by
  have hblock : Reads room metadataBlock f (metadataKw.lexeme :: _) _ w :=
    .node (.bump_append (reads_entries separates_isMetadataKey
      (fun e _ _ _ _ h => .node (.yes e.key.2 (.bump_append h))) hfs))
  exact .of_resolve_cons rfl hblock

lemma reads_binding {n : Name} {e : Expr} (he : e.nesting ≤ room) :
    Reads room bodyItem f ((binding n e).print ++ w) (f ++ (binding n e).tree) w := by
  have hvalue : Reads room (.expect .eq "Expected '='" ++ .expression ++
      .expect .semicolon "Expected ';'") ([] ++ leaves [letKw.lexeme] ++ leaves [n.1])
      (eq.lexeme :: (e.print ++ semicolon.lexeme :: w)) _ w :=
    ((Reads.expect rfl).seq (e.reads he rfl)).seq (.expect rfl)
  have hbinding : Reads room letBinding f (letKw.lexeme :: n.1 :: _) _ w :=
    .node (.bump_append (.nameThen n.2 hvalue))
  have hall : Reads room bodyItem f _ _ w := .of_resolve_cons rfl hbinding
  exact hall.of_eq (by simp [print]) (by simp [tree, leaves])

/-- **Every block and every binding is read.** -/
theorem reads (i : BodyItem) (hroom : ∀ n ∈ i.nestings, n ≤ room) :
    Reads room bodyItem f (i.print ++ w) (f ++ i.tree) w := by
  cases i with
  | input b name fs => exact reads_input (List.forall_mem_map.1 hroom) b name
  | named b name fs => exact reads_named (List.forall_mem_map.1 hroom) b name
  | plain b fs => exact reads_plain (List.forall_mem_map.1 hroom) b
  | locals fs => exact reads_locals (List.forall_mem_map.1 hroom)
  | signers es => exact reads_signers (hroom _ List.mem_cons_self)
  | metadata fs => exact reads_metadata (List.forall_mem_map.1 hroom)
  | cardano n fs => exact reads_cardano (List.forall_mem_map.1 hroom) n
  | binding n e => exact reads_binding (hroom _ List.mem_cons_self)

/-- No block and no binding ends a body. -/
lemma not_endsList (i : BodyItem) (w : List Lexeme) :
    (lookaheadOf (i.print ++ w)).endsList .rBrace = false := by
  cases i with
  | named b => cases b <;> rfl
  | plain b => cases b <;> rfl
  | _ => rfl

end BodyItem

/-- A body is read with its braces. -/
lemma reads_body {items : List BodyItem} (hroom : ∀ i ∈ items, ∀ n ∈ i.nestings, n ≤ room) :
    Reads room (.braced bodyItem) f (inBraces (items.flatMap BodyItem.print) ++ w)
      (f ++ shapesInBraces (items.flatMap BodyItem.tree)) w :=
  reads_braced (.loop (fun _ => True) rfl (fun i _ w => ⟨i.not_endsList w, trivial⟩)
    (fun i hi _ _ _ => i.reads (hroom i hi)) rfl trivial)

/-! ## Fields, parameters and cases -/

/-- Fields in braces are read. -/
lemma reads_recordFields {fs : Fields} (hfs : fs.nesting ≤ room) :
    Reads room recordFields f (inBraces fs.print ++ w) (f ++ shapesInBraces fs.tree) w := by
  have hfields :
      Reads room recordFields f (lBrace.lexeme :: (fs.print ++ rBrace.lexeme :: w)) _ w :=
    fs.readable.isRead.braced hfs
  exact hfields.of_eq (by simp [inBraces]) (by simp [shapesInBraces])

/-- What may come behind a type with an optional comma: no empty pair of brackets and no comma. -/
def FollowsType (w : List Lexeme) : Prop :=
  startsArray (lookaheadOf w) = false ∧ (lookaheadOf w).starts .comma = false

/-- A type is read with its comma, if there is one. -/
lemma reads_type {t : Ty} (ht : t.nesting ≤ room) (comma : Bool) (hw : FollowsType w) :
    Reads room .type f (t.print ++ (commaIf comma ++ w)) (f ++ t.tree) (commaIf comma ++ w) := by
  refine t.reads ht ?_
  cases comma with
  | false => exact hw.1
  | true => rfl

/-- The parameters of a transaction are read with their parentheses. -/
lemma reads_paramList {ps : List Param} (hps : ∀ p ∈ ps, p.type.nesting ≤ room) :
    Reads room paramList f (lParen.lexeme :: (ps.flatMap Param.print ++ rParen.lexeme :: w))
      (f ++ [.node .paramList (.leaf lParen.lexeme :: ps.flatMap Param.tree ++
        [.leaf rParen.lexeme])]) w := by
  have hopen (p : Param) (w : List Lexeme) :
      ((lookaheadOf (p.print ++ w)).endsList .rParen ||
        (lookaheadOf (p.print ++ w)).starts .lBrace) = false ∧ FollowsType (p.print ++ w) :=
    ⟨Bool.or_eq_false_iff.2 ⟨p.name.not_endsList _ rfl, p.name.not_starts _ rfl⟩,
      startsArray_eq_false (p.name.not_starts _ rfl), p.name.not_starts _ rfl⟩
  have hitem (p : Param) (hp : p ∈ ps) (f : List Shape) (w : List Lexeme) (hw : FollowsType w) :
      Reads room (txParam ++ .eat .comma) f (p.print ++ w) (f ++ p.tree) w := by
    have hparam : Reads room txParam f (p.name.1 :: colon.lexeme :: _) _ _ :=
      .node (.nameThen p.name.2 (.expectThen rfl (reads_type (hps p hp) p.comma hw)))
    exact (hparam.seq (.lexemeIf p.comma hw.2)).of_eq (by simp [Param.print])
      (by simp [Param.tree, leaves])
  have hlist : Reads room paramList f
      (lParen.lexeme :: (ps.flatMap Param.print ++ rParen.lexeme :: w)) _ w :=
    .node (.expectThen rfl
      ((Reads.loop FollowsType rfl (fun p _ => hopen p) hitem rfl ⟨rfl, rfl⟩).seq (.expect rfl)))
  exact hlist.of_eq rfl (by simp)

/-- The types that a case carries are read with their parentheses. -/
lemma reads_caseTypes {ts : List CaseType} (hts : ∀ t ∈ ts, t.type.nesting ≤ room) :
    Reads room caseTypes f ((Payload.types ts).print ++ w) (f ++ (Payload.types ts).tree) w := by
  have hopen (t : CaseType) (w : List Lexeme) :
      (lookaheadOf (t.print ++ w)).endsList .rParen = false ∧ FollowsType (t.print ++ w) := by
    have hbegins := t.type.beginsAsType nofun
    rw [CaseType.print, List.append_assoc]
    exact ⟨endsList_eq_false (by decide) (startsWith_append hbegins.1), hbegins.2 _,
      TypePhrase.not_starts_comma t.type _⟩
  have hitem (t : CaseType) (ht : t ∈ ts) (f : List Shape) (w : List Lexeme) (hw : FollowsType w) :
      Reads room (.type ++ .eat .comma) f (t.print ++ w) (f ++ t.tree) w :=
    ((reads_type (hts t ht) t.comma hw).seq (.lexemeIf t.comma hw.2)).of_eq
      (by simp [CaseType.print]) (by simp [CaseType.tree])
  have hlist : Reads room caseTypes f
      (lParen.lexeme :: (ts.flatMap CaseType.print ++ rParen.lexeme :: w)) _ w :=
    .node (.bump_append
      ((Reads.loop FollowsType rfl (fun t _ => hopen t) hitem rfl ⟨rfl, rfl⟩).seq (.expect rfl)))
  exact hlist.of_eq (by simp [Payload.print]) (by simp [Payload.tree])

/-- What may come behind a case: nothing that it would go on with. -/
def FollowsCase (w : List Lexeme) : Prop :=
  (lookaheadOf w).startsWith (fun k => k == .lBrace || k == .lParen || k == .comma) = false

/-- What a case carries is read. -/
lemma Payload.reads {p : Payload} (hroom : ∀ n ∈ p.nestings, n ≤ room) (comma : Bool)
    (hw : FollowsCase w) :
    Reads room
      (.branch (·.starts .lBrace) recordFields (.branch (·.starts .lParen) caseTypes .done))
      f (p.print ++ (commaIf comma ++ w)) (f ++ p.tree) (commaIf comma ++ w) := by
  have hnot {kind : TokenKind} (hkind : kind = .lBrace ∨ kind = .lParen) :
      (lookaheadOf (commaIf comma ++ w)).starts kind = false := by
    cases comma with
    | false =>
      rw [starts_eq_startsWith]
      refine startsWith_eq_false_of_imp (fun k hk => ?_) hw
      rcases hkind with rfl | rfl <;> simp_all
    | true => rcases hkind with rfl | rfl <;> rfl
  cases p with
  | none =>
    have hnone : Reads room (.branch (·.starts .lParen) caseTypes .done) f (commaIf comma ++ w) f
        (commaIf comma ++ w) := .no (hnot (.inr rfl)) .done
    exact .of_eq (.no (hnot (.inl rfl)) hnone) rfl (List.append_nil f).symm
  | fields fs =>
    exact .yes rfl (reads_recordFields (hroom _ List.mem_cons_self))
  | types ts => exact .no rfl (.yes rfl (reads_caseTypes (List.forall_mem_map.1 hroom)))

namespace VariantCase

/-- A case does not end the list, and may come behind another one. -/
lemma opens (c : VariantCase) (w : List Lexeme) :
    (lookaheadOf (c.print ++ w)).endsList .rBrace = false ∧ FollowsCase (c.print ++ w) :=
  ⟨c.name.not_endsList _ rfl, c.name.not_startsWith _ (by decide)⟩

/-- A case is read. -/
lemma reads (c : VariantCase) (hroom : ∀ n ∈ c.payload.nestings, n ≤ room) (hw : FollowsCase w) :
    Reads room variantCase f (c.print ++ w) (f ++ c.tree) w := by
  have hcomma : (lookaheadOf w).starts .comma = false := by
    rw [starts_eq_startsWith]
    exact startsWith_eq_false_of_imp (fun k hk => by simp_all) hw
  have hcase : Reads room variantCase f (c.name.1 :: _) _ w :=
    .node (.nameThen c.name.2 ((Payload.reads hroom c.comma hw).seq (.lexemeIf c.comma hcomma)))
  exact hcase.of_eq (by simp [print]) (by simp [tree])

end VariantCase

/-! ## Declarations -/

namespace Declaration

lemma reads_party (n : Name) :
    Reads room declaration f ((party n).print ++ w) (f ++ [(party n).tree]) w := by
  have hparty : Reads room partyDecl f (partyKw.lexeme :: n.1 :: semicolon.lexeme :: w) _ w :=
    .node (.bump_append (.nameThen n.2 (.expect rfl)))
  exact .of_resolve_cons rfl hparty

/-- A policy is read if what stands behind its equals sign is. -/
lemma reads_policyValue (n : Name) (ls : List Lexeme) (fs : List Shape)
    (h : Reads room (.branch (·.starts .importKw) importCall
        (.branch (·.starts .hexLiteral) .bump
          (.report "Expected 'import(path)' or hex literal for policy value")))
      (leaves [policyKw.lexeme, n.1, eq.lexeme]) (ls ++ semicolon.lexeme :: w)
      (leaves [policyKw.lexeme, n.1, eq.lexeme] ++ fs) (semicolon.lexeme :: w)) :
    Reads room declaration f (policyKw.lexeme :: n.1 :: eq.lexeme :: (ls ++ semicolon.lexeme :: w))
      (f ++ [.node .policyDecl (leaves [policyKw.lexeme, n.1, eq.lexeme] ++ fs ++
        [.leaf semicolon.lexeme])]) w := by
  have hpolicy : Reads room policyDecl f (policyKw.lexeme :: n.1 :: _) _ w :=
    .node (.bump_append (.nameThen n.2 (.yes rfl ((Reads.bump_append h).seq (.expect rfl)))))
  exact .of_resolve_cons rfl hpolicy

lemma reads_policyHex (n : Name) (v : HexLiteral) :
    Reads room declaration f ((policyHex n v).print ++ w) (f ++ [(policyHex n v).tree]) w := by
  have himport : (lookaheadOf (v.1 :: semicolon.lexeme :: w)).starts .importKw = false := by
    rw [lookaheadOf_cons, v.2]
    rfl
  have hhex : (lookaheadOf (v.1 :: semicolon.lexeme :: w)).starts .hexLiteral = true := by
    rw [lookaheadOf_cons, v.2]
    rfl
  exact reads_policyValue n [v.1] [.leaf v.1] (.no himport (.yes hhex .bump))

/-- The path of an import is read with its parentheses. -/
lemma reads_importCall (path : List PathLexeme) :
    Reads room importCall f
      (importKw.lexeme :: lParen.lexeme :: (path.map (·.1) ++ rParen.lexeme :: w))
      (f ++ [.node .callExpr (leaves [importKw.lexeme, lParen.lexeme] ++
        [.node .pathExpr (leaves (path.map (·.1))), .leaf rParen.lexeme])]) w := by
  have hopen (l : PathLexeme) (w : List Lexeme) :
      ((lookaheadOf ([l.1] ++ w)).endsList .rParen ||
        (lookaheadOf ([l.1] ++ w)).starts .semicolon) = false ∧ True := by
    have hl := l.2
    rw [Bool.or_right_comm] at hl
    exact ⟨hl, trivial⟩
  have hpath : Reads room (.loop (fun l => l.endsList .rParen || l.starts .semicolon) .bump) []
      (path.flatMap (fun l => [l.1]) ++ rParen.lexeme :: w) _ (rParen.lexeme :: w) :=
    .loop (fun _ => True) rfl (fun l _ => hopen l) (fun _ _ _ _ _ => .bump) rfl trivial
  have hcall : Reads room importCall f (importKw.lexeme :: lParen.lexeme :: _) _ w :=
    .node (.bump_append (.expectThen rfl (.seq (.node hpath) (.expect rfl))))
  have htree : path.flatMap (fun l => [Shape.leaf l.1]) = leaves (path.map (·.1)) := by
    rw [← List.map_eq_flatMap, leaves, List.map_map]
    rfl
  refine hcall.of_eq (by rw [← List.map_eq_flatMap]) ?_
  rw [List.nil_append, List.nil_append, htree]
  rfl

lemma reads_policyImport (n : Name) (path : List PathLexeme) :
    Reads room declaration f ((policyImport n path).print ++ w)
      (f ++ [(policyImport n path).tree]) w := by
  have hall : Reads room declaration f (policyKw.lexeme :: n.1 :: eq.lexeme ::
      (importKw.lexeme :: lParen.lexeme :: (path.map (·.1) ++ [rParen.lexeme]) ++
        semicolon.lexeme :: w)) _ w :=
    reads_policyValue n _ _ (.yes rfl ((reads_importCall path).of_eq (by simp) rfl))
  exact hall.of_eq (by simp [print, printBody, keyword, name?, nameIf])
    (by simp [tree, treeBody, keyword, name?, nameIf, kind, leaves])

lemma reads_policyBlock (n : Name) {fs : List BlockField} (hfs : ∀ e ∈ fs, e.value.nesting ≤ room) :
    Reads room declaration f ((policyBlock n fs).print ++ w)
      (f ++ [(policyBlock n fs).tree]) w := by
  have hpolicy : Reads room policyDecl f (policyKw.lexeme :: n.1 :: _) _ w :=
    .node (.bump_append (.nameThen n.2 (.no rfl (.yes rfl (reads_fieldBlock hfs)))))
  exact .of_resolve_cons rfl hpolicy

lemma reads_asset (n : Name) (v : AssetValue) :
    Reads room declaration f ((asset n v).print ++ w) (f ++ [(asset n v).tree]) w := by
  have hasset : Reads room assetDecl f
      (assetKw.lexeme :: n.1 :: eq.lexeme :: v.1 :: semicolon.lexeme :: w) _ w :=
    .node (.bump_append (.nameThen n.2 (.expectThen rfl ((Reads.yes v.2 .bump).seq (.expect rfl)))))
  exact .of_resolve_cons rfl hasset

lemma reads_env {fs : Fields} (hfs : fs.nesting ≤ room) :
    Reads room declaration f ((env fs).print ++ w) (f ++ [(env fs).tree]) w := by
  have henv : Reads room envDecl f (envKw.lexeme :: _) _ w :=
    .node (.bump_append (.yes rfl (reads_recordFields hfs)))
  exact .of_resolve_cons rfl henv

lemma reads_record (n : Name) {fs : Fields} (hfs : fs.nesting ≤ room) :
    Reads room declaration f ((record n fs).print ++ w) (f ++ [(record n fs).tree]) w := by
  have hfields : Reads room (.braced recordField) ([] ++ [.leaf recordKw.lexeme] ++ [.leaf n.1])
      (inBraces fs.print ++ w) _ w := reads_braced (fs.reads hfs rfl)
  have hrecord : Reads room recordDecl f (recordKw.lexeme :: n.1 :: _) _ w :=
    .mark (.bump_append (.nameThen n.2 (.wrap hfields)))
  exact .of_resolve_cons rfl hrecord

/-! ### Types -/

/-- Types with bars before them are read. -/
lemma reads_alternatives {ts : List Ty} (hts : ∀ t ∈ ts, t.nesting ≤ room) :
    Reads room (.loop (fun l => !l.starts .pipe) (.bump ++ .type)) f
      (ts.flatMap (fun t => pipe.lexeme :: t.print) ++ semicolon.lexeme :: w)
      (f ++ ts.flatMap fun t => .leaf pipe.lexeme :: t.tree) (semicolon.lexeme :: w) := by
  refine .loop (fun w => startsArray (lookaheadOf w) = false) rfl (fun _ _ _ => ⟨rfl, rfl⟩)
    (fun t ht f w hw => ?_) rfl rfl
  exact (Reads.bump_append (t.reads (hts t ht) hw)).of_eq rfl (by simp)

/-- A type or a union of types is read. -/
lemma reads_typeOrUnion {t : Ty} {ts : List Ty} (ht : t.nesting ≤ room)
    (hts : ∀ t ∈ ts, t.nesting ≤ room) :
    Reads room typeOrUnion f
      (t.print ++ (ts.flatMap (fun t => pipe.lexeme :: t.print) ++ semicolon.lexeme :: w))
      (f ++ if ts.isEmpty then t.tree
        else [.node .unionType (t.tree ++ ts.flatMap fun t => .leaf pipe.lexeme :: t.tree)])
      (semicolon.lexeme :: w) := by
  have hw : startsArray (lookaheadOf
      (ts.flatMap (fun t => pipe.lexeme :: t.print) ++ semicolon.lexeme :: w)) = false := by
    cases ts <;> rfl
  have hfirst := t.reads (f := []) ht hw
  cases ts with
  | nil => exact .mark (hfirst.seq (.no rfl .done))
  | cons t' ts => exact .mark (hfirst.seq (.yes rfl (.wrap (reads_alternatives hts))))

lemma reads_typeAlias (n : Name) {t : Ty} {ts : List Ty} (ht : t.nesting ≤ room)
    (hts : ∀ t ∈ ts, t.nesting ≤ room) :
    Reads room declaration f ((typeAlias n t ts).print ++ w)
      (f ++ [(typeAlias n t ts).tree]) w := by
  have hvalue : Reads room (.bump ++ typeOrUnion ++ Grammar.semicolon)
      ([] ++ [.leaf typeKw.lexeme] ++ [.leaf n.1]) (eq.lexeme :: _) _ w :=
    (Reads.bump.seq (reads_typeOrUnion ht hts)).seq (.expect rfl)
  have htype : Reads room typeDecl f (typeKw.lexeme :: n.1 :: _) _ w :=
    .mark (.bump_append (.nameThen n.2 (.yes rfl (.wrap hvalue))))
  have hall : Reads room declaration f _ _ w := .of_resolve_cons rfl htype
  exact hall.of_eq (by simp [print, printBody, keyword, name?, nameIf])
    (by simp [tree, treeBody, keyword, name?, nameIf, kind, leaves])

/-- The word and the name of a type are read before its body in braces. -/
lemma reads_typeDecl (n : Name) {item : Rule} {ls : List Lexeme} {fs : List Shape}
    (hitem : Rule.resolve (lookaheadOf (ls ++ rBrace.lexeme :: w))
      (.branch startsCase (.loop (·.endsList .rBrace) variantCase)
        (.loop (·.endsList .rBrace) recordField)) = .loop (·.endsList .rBrace) item)
    (h : Reads room (.loop (·.endsList .rBrace) item) (leaves [typeKw.lexeme, n.1, lBrace.lexeme])
      (ls ++ rBrace.lexeme :: w) (leaves [typeKw.lexeme, n.1, lBrace.lexeme] ++ fs)
      (rBrace.lexeme :: w)) :
    Reads room declaration f (typeKw.lexeme :: n.1 :: (inBraces ls ++ w))
      (f ++ [.node .typeDecl (leaves [typeKw.lexeme, n.1] ++ shapesInBraces fs)]) w := by
  rw [← hitem] at h
  have htype : Reads room typeDecl f
      (typeKw.lexeme :: n.1 :: lBrace.lexeme :: (ls ++ rBrace.lexeme :: w)) _ w :=
    .mark (.bump_append (.nameThen n.2 (.no rfl (.wrap (.expectThen rfl
      ((Reads.of_resolve h).seq (.expect rfl)))))))
  have hall : Reads room declaration f _ _ w := .of_resolve_cons rfl htype
  exact hall.of_eq (by simp [inBraces]) (by simp [shapesInBraces, leaves])

/-- A body that begins with a field is one of fields. -/
lemma reads_fields (n : Name) {fs : Fields} (hfs : fs.nesting ≤ room) :
    Reads room declaration f ((fields n fs).print ++ w) (f ++ [(fields n fs).tree]) w := by
  refine reads_typeDecl n ?_ (fs.reads hfs rfl)
  have hcase : startsCase (lookaheadOf (fs.print ++ rBrace.lexeme :: w)) = false := by
    cases fs with
    | noField => rfl
    | field n t b rest => exact Bool.and_false _
  rw [Rule.resolve, if_neg (Bool.eq_false_iff.1 hcase)]
  rfl

/-- A body that begins with a case is one of cases. -/
lemma reads_variants (n : Name) {c : VariantCase} {cs : List VariantCase}
    (told : (c.isTold || cs.isEmpty) = true)
    (hcs : ∀ d ∈ c :: cs, ∀ m ∈ d.payload.nestings, m ≤ room) :
    Reads room declaration f ((variants n c cs told).print ++ w)
      (f ++ [(variants n c cs told).tree]) w := by
  refine reads_typeDecl n ?_ (.loop FollowsCase rfl (fun d _ => d.opens)
    (fun d hd f w hw => d.reads (hcs d hd) hw) rfl rfl)
  have hcase : startsCase (lookaheadOf
      ((c :: cs).flatMap VariantCase.print ++ rBrace.lexeme :: w)) = true := by
    obtain ⟨n, payload, comma⟩ := c
    rw [startsCase, Bool.and_eq_true]
    refine ⟨n.2, ?_⟩
    cases payload with
    | none =>
      cases comma with
      | false =>
        obtain rfl : cs = [] := List.isEmpty_iff.1 told
        rfl
      | true => rfl
    | fields fs => rfl
    | types ts => rfl
  rw [Rule.resolve, if_pos hcase]
  rfl

/-! ### Transactions and all others -/

lemma reads_tx (n : Name) {ps : List Param} {items : List BodyItem}
    (hps : ∀ p ∈ ps, p.type.nesting ≤ room)
    (hitems : ∀ i ∈ items, ∀ m ∈ i.nestings, m ≤ room) :
    Reads room declaration f ((tx n ps items).print ++ w) (f ++ [(tx n ps items).tree]) w := by
  have htx : Reads room txDecl f (txKw.lexeme :: n.1 :: _) _ w :=
    .node (.bump_append (.nameThen n.2 ((reads_paramList hps).seq (reads_body hitems))))
  have hall : Reads room declaration f _ _ w := .of_resolve_cons rfl htx
  exact hall.of_eq (by simp [print, printBody, keyword, name?, nameIf])
    (by simp [tree, treeBody, keyword, name?, nameIf, kind, leaves])

/-- **Every declaration is read** from the lexemes that spell it, with its tree, whatever comes
behind it, if there is room for its expressions and types. -/
theorem reads (d : Declaration) (hroom : ∀ n ∈ d.nestings, n ≤ room) :
    Reads room declaration f (d.print ++ w) (f ++ [d.tree]) w := by
  cases d with
  | party n => exact reads_party n
  | policyImport n path => exact reads_policyImport n path
  | policyHex n v => exact reads_policyHex n v
  | policyBlock n fs => exact reads_policyBlock n (List.forall_mem_map.1 hroom)
  | typeAlias n t ts =>
    obtain ⟨ht, hts⟩ := List.forall_mem_cons.1 hroom
    exact reads_typeAlias n ht (List.forall_mem_map.1 hts)
  | variants n c cs told =>
    exact reads_variants n told fun d hd m hm => hroom m (List.mem_flatMap_of_mem hd hm)
  | fields n fs => exact reads_fields n (hroom _ List.mem_cons_self)
  | record n fs => exact reads_record n (hroom _ List.mem_cons_self)
  | env fs => exact reads_env (hroom _ List.mem_cons_self)
  | asset n v => exact reads_asset n v
  | tx n ps items =>
    obtain ⟨hps, hitems⟩ := List.forall_mem_append.1 hroom
    exact reads_tx n (List.forall_mem_map.1 hps)
      fun i hi m hm => hitems m (List.mem_flatMap_of_mem hi hm)

end Declaration

end TxTree
