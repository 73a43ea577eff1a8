import TxTree.Proofs.Boundary
import TxTree.Proofs.Lossless
import TxTree.Proofs.Renaming

set_option relaxedAutoImplicit false
set_option autoImplicit false

/-!
# Soft keywords are names

One law for each production of the grammar: it reads soft keywords as it reads identifiers. Where a
declaration or a block is expected a soft keyword may open one, but an identifier is refused at
once, so that none is there in a stream without errors. So identifiers may be replaced by soft
keywords wherever they are.

## Main definitions

* `TxTree.Grammar.Rule.Dispatches` — rules that choose by a word, and refuse identifiers.

## Main results

* `TxTree.Grammar.impartial_nested`, `TxTree.Grammar.impartial_file` — the rules of the grammar are
  impartial.
* `TxTree.parseTokens_renamed` — soft keywords in the place of identifiers leave the tree as it is.
-/

namespace TxTree.Grammar

open Rule Lookahead

/-! ## Tests -/

section Tests

variable {p : TokenKind → Bool} {kind : TokenKind} {test test' : Lookahead → Bool}

/-- A test of one kind that makes no difference between identifiers and soft keywords. -/
lemma any_eq_of_rel (hp : ∀ k : TokenKind, k.isSoftKeyword = true → p k = p .ident)
    {o o' : Option TokenKind} (h : Option.Rel TokenKind.RenamedTo o o') : o.any p = o'.any p := by
  cases h with
  | none => rfl
  | @some k k' hk =>
    rcases hk with rfl | ⟨rfl, hsoft⟩
    · rfl
    · exact (hp k' hsoft).symm

/-- Neither an identifier nor a soft keyword is of a kind that is no name. -/
lemma beq_eq_of_isName (hkind : kind.isName = false) (k : TokenKind)
    (hsoft : k.isSoftKeyword = true) : (k == kind) = (TokenKind.ident == kind) := by
  have hne (k' : TokenKind) (hname : k'.isName = true) : (k' == kind) = false := by
    rw [beq_eq_false_iff_ne]
    rintro rfl
    rw [hkind] at hname
    cases hname
  have hname : k.isName = true := by
    rw [TokenKind.isName, hsoft, Bool.or_true]
  rw [hne k hname, hne .ident rfl]

/-- A soft keyword is no word that opens a declaration and is never a name. -/
lemma isHardDeclarationKeyword_eq_false : ∀ k : TokenKind, k.isSoftKeyword = true →
    k.isHardDeclarationKeyword = false := by
  decide

namespace Lookahead

lemma impartial_startsWith (hp : ∀ k : TokenKind, k.isSoftKeyword = true → p k = p .ident) :
    Impartial (·.startsWith p) :=
  fun _ _ h => any_eq_of_rel hp h.first

lemma impartial_starts (hkind : kind.isName = false) : Impartial (·.starts kind) := by
  intro l m h
  change l.starts kind = m.starts kind
  rw [starts_eq, starts_eq]
  exact any_eq_of_rel (beq_eq_of_isName hkind) h.first

lemma impartial_continues (hkind : kind.isName = false) : Impartial (·.continues kind) := by
  intro l m h
  change l.continues kind = m.continues kind
  rw [continues_eq, continues_eq]
  exact any_eq_of_rel (beq_eq_of_isName hkind) h.second

/-- Where no identifier comes next, the same comes next in both streams. -/
lemma RenamedTo.first_eq {l m : Lookahead} (h : l.RenamedTo m) (hne : l.first ≠ some .ident) :
    l.first = m.first := by
  obtain ⟨first, second⟩ := l
  obtain ⟨first', second'⟩ := m
  have hfirst := h.first
  cases hfirst with
  | none => rfl
  | some hk =>
    rcases hk with rfl | ⟨rfl, -⟩
    · rfl
    · exact absurd rfl hne

lemma impartial_isEnd : Impartial (·.isEnd) := by
  intro l m h
  obtain ⟨first, second⟩ := l
  obtain ⟨first', second'⟩ := m
  have hfirst := h.first
  cases hfirst <;> rfl

lemma impartial_endsList (hkind : kind.isName = false) : Impartial (·.endsList kind) := by
  intro l m h
  obtain ⟨first, second⟩ := l
  obtain ⟨first', second'⟩ := m
  have hfirst := h.first
  cases hfirst with
  | none => rfl
  | @some k k' hk =>
    rcases hk with rfl | ⟨rfl, hsoft⟩
    · rfl
    · change (_ || _) = (_ || _)
      rw [beq_eq_of_isName hkind k' hsoft, isHardDeclarationKeyword_eq_false k' hsoft]
      rfl

lemma Impartial.not (h : Impartial test) : Impartial fun l => !test l :=
  fun l m hm => congrArg (!·) (h l m hm)

lemma Impartial.and (h : Impartial test) (h' : Impartial test') :
    Impartial fun l => test l && test' l :=
  fun l m hm => congrArg₂ (· && ·) (h l m hm) (h' l m hm)

lemma Impartial.or (h : Impartial test) (h' : Impartial test') :
    Impartial fun l => test l || test' l :=
  fun l m hm => congrArg₂ (· || ·) (h l m hm) (h' l m hm)

end Lookahead

end Tests

/-! ## Combinators -/

section Combinators

variable {p : TokenKind → Bool} {kind : TokenKind} {test : Lookahead → Bool}
  {first second body yes no : Rule}

@[simp] lemma impartial_done : done.Impartial := trivial

@[simp] lemma impartial_bump : bump.Impartial := trivial

@[simp] lemma impartial_report (message : String) : (report message).Impartial := trivial

@[simp] lemma impartial_nest (level : Nesting) : (nest level body).Impartial := trivial

@[simp] lemma impartial_append :
    (first ++ second).Impartial ↔ first.Impartial ∧ second.Impartial :=
  Iff.rfl

@[simp] lemma impartial_node (k : NodeKind) : (node k body).Impartial ↔ body.Impartial := Iff.rfl

@[simp] lemma impartial_mark : (mark body).Impartial ↔ body.Impartial := Iff.rfl

@[simp] lemma impartial_wrap (k : NodeKind) : (wrap k body).Impartial ↔ body.Impartial := Iff.rfl

/-- A choice between impartial rules comes to the same if its test does, or reports an error. -/
lemma resolve_branch_eq_or {l m : Lookahead} (htest : test l = test m) (hyes : yes.Impartial)
    (hno : no.Impartial) (hm : l.RenamedTo m) :
    (branch test yes no).resolve l = (branch test yes no).resolve m ∨
      ((branch test yes no).resolve l).Reports := by
  simp only [resolve, ← htest]
  cases test l with
  | true => exact hyes.resolve_eq_or hm
  | false => exact hno.resolve_eq_or hm

/-- A choice by an impartial test is impartial if both of its sides are. -/
lemma impartial_branch (htest : Lookahead.Impartial test) :
    (branch test yes no).Impartial ↔ yes.Impartial ∧ no.Impartial :=
  ⟨fun h => h.2, fun h => ⟨fun l m hm => resolve_branch_eq_or (htest l m hm) h.1 h.2 hm, h⟩⟩

lemma impartial_loop (hstop : Lookahead.Impartial test) :
    (loop test body).Impartial ↔ body.Impartial :=
  ⟨fun h => h.2, fun h => ⟨hstop, h⟩⟩

/-- A choice by the kind that comes next. -/
@[simp] lemma impartial_branch_starts (hkind : kind.isName = false) :
    (branch (·.starts kind) yes no).Impartial ↔ yes.Impartial ∧ no.Impartial :=
  impartial_branch (impartial_starts hkind)

/-- A choice by whether the kind that comes next is one of several. -/
@[simp] lemma impartial_branch_startsWith
    (hp : ∀ k : TokenKind, k.isSoftKeyword = true → p k = p .ident) :
    (branch (·.startsWith p) yes no).Impartial ↔ yes.Impartial ∧ no.Impartial :=
  impartial_branch (impartial_startsWith hp)

/-- A choice by the next two kinds. -/
@[simp] lemma impartial_branch_startsWith_and
    (hp : ∀ k : TokenKind, k.isSoftKeyword = true → p k = p .ident) (hkind : kind.isName = false) :
    (branch (fun l => l.startsWith p && l.continues kind) yes no).Impartial ↔
      yes.Impartial ∧ no.Impartial :=
  impartial_branch ((impartial_startsWith hp).and (impartial_continues hkind))

@[simp] lemma impartial_loop_endsList (hkind : kind.isName = false) :
    (loop (·.endsList kind) body).Impartial ↔ body.Impartial :=
  impartial_loop (impartial_endsList hkind)

/-! ### Choices by a word -/

/-- **Rules that choose by a word**: they are impartial, and refuse an identifier at once. So the
words that they know may be soft keywords. -/
structure Rule.Dispatches (r : Rule) : Prop where
  /-- The rule is impartial. -/
  impartial : r.Impartial
  /-- An identifier is refused. -/
  refuses : ∀ l : Lookahead, l.first = some .ident → (r.resolve l).Reports

lemma dispatches_reject (message : String) : (reject message).Dispatches :=
  ⟨⟨trivial, trivial⟩, fun _ _ => ⟨message, .skip, rfl⟩⟩

/-- One more word to choose by. -/
lemma Rule.Dispatches.starts (hkind : kind ≠ .ident) (hyes : yes.Impartial)
    (hno : no.Dispatches) : (branch (·.starts kind) yes no).Dispatches := by
  have hrefuses (l : Lookahead) (hl : l.first = some .ident) :
      ((branch (·.starts kind) yes no).resolve l).Reports := by
    have htest : ¬l.starts kind = true := by simpa [Lookahead.starts, hl] using hkind.symm
    rw [resolve, if_neg htest]
    exact hno.refuses l hl
  refine ⟨⟨fun l m hm => ?_, hyes, hno.impartial⟩, hrefuses⟩
  by_cases hident : l.first = some .ident
  · exact .inr (hrefuses l hident)
  · have htest : l.starts kind = m.starts kind := by
      rw [Lookahead.starts, Lookahead.starts, hm.first_eq hident]
    exact resolve_branch_eq_or htest hyes hno.impartial hm

end Combinators

/-! ## Common rules -/

section Common

variable {kind : TokenKind} {item yes no : Rule}

@[simp] lemma impartial_eat (hkind : kind.isName = false) : (eat kind).Impartial := by
  simp [eat, hkind]

@[simp] lemma impartial_expectThen (hkind : kind.isName = false) (message : String) :
    (expectThen kind message yes no).Impartial ↔ yes.Impartial ∧ no.Impartial := by
  simp [expectThen, hkind]

@[simp] lemma impartial_expect (hkind : kind.isName = false) (message : String) :
    (expect kind message).Impartial := by
  simp [expect, hkind]

/-- Soft keywords are names, as identifiers are. -/
@[simp] lemma impartial_nameThen (message : String) :
    (nameThen message yes no).Impartial ↔ yes.Impartial ∧ no.Impartial := by
  simp (disch := decide) [nameThen]

@[simp] lemma impartial_name (message : String) : (name message).Impartial := by
  simp [name]

@[simp] lemma impartial_nameIfAny : nameIfAny.Impartial := by
  simp (disch := decide) [nameIfAny]

@[simp] lemma impartial_reject (message : String) : (reject message).Impartial :=
  (dispatches_reject message).impartial

@[simp] lemma impartial_itemsThrough (hkind : kind.isName = false) (message : String) :
    (itemsThrough kind message item).Impartial ↔ item.Impartial := by
  simp [itemsThrough, hkind]

@[simp] lemma impartial_braced : (braced item).Impartial ↔ item.Impartial := by
  simp (disch := decide) [braced]

@[simp] lemma impartial_expression : Rule.expression.Impartial := trivial

@[simp] lemma impartial_type : Rule.type.Impartial := trivial

end Common

/-! ## Types -/

section Types

lemma impartial_typeAfterName : typeAfterName.Impartial := by
  have hstarts : Lookahead.Impartial startsType := impartial_startsWith (by decide)
  simp (disch := decide) [typeAfterName, impartial_branch hstarts]

lemma impartial_recordField : recordField.Impartial := by
  simp (disch := decide) [recordField, impartial_typeAfterName]

lemma impartial_recordFields : recordFields.Impartial := by
  simp (disch := decide) [recordFields, impartial_recordField]

lemma impartial_baseType : baseType.Impartial := by
  simp (disch := decide) [baseType, impartial_recordFields]

lemma impartial_arraySuffixes : arraySuffixes.Impartial := by
  have hbrackets : Lookahead.Impartial fun l => l.starts .lBracket && l.continues .rBracket :=
    (impartial_starts (by decide)).and (impartial_continues (by decide))
  simp [arraySuffixes, impartial_branch hbrackets]

lemma impartial_typeOrUnion : typeOrUnion.Impartial := by
  have hbar : Lookahead.Impartial fun l => !l.starts .pipe :=
    (impartial_starts (by decide)).not
  simp (disch := decide) [typeOrUnion, impartial_loop hbar]

end Types

/-! ## Expressions -/

section Expressions

@[simp] lemma impartial_expressionsThrough {close : TokenKind} (hclose : close.isName = false)
    (message : String) : (expressionsThrough close message).Impartial := by
  simp (disch := first | assumption | decide) [expressionsThrough]

lemma impartial_mapEntry : mapEntry.Impartial := by
  simp (disch := decide) [mapEntry]

lemma impartial_recordInits : recordInits.Impartial := by
  simp (disch := decide) [recordInits, recordInit, spreadThen]

lemma impartial_parenthesis : parenthesis.Impartial := by
  have hclose : Lookahead.Impartial (·.continues .rParen) := impartial_continues (by decide)
  simp (disch := decide) [parenthesis, impartial_branch hclose]

lemma impartial_variant : variant.Impartial := by
  simp (disch := decide) [variant, impartial_recordInits]

lemma impartial_call : call.Impartial := by
  simp (disch := decide) [call]

lemma impartial_operand : operand.Impartial := by
  simp (disch := decide) [operand, impartial_branch impartial_isEnd, spreadThen,
    impartial_parenthesis, impartial_mapEntry, impartial_variant, impartial_recordInits,
    impartial_call]

lemma impartial_suffixes : suffixes.Impartial := by
  simp (disch := decide) [suffixes]

lemma impartial_suffixRule : suffixRule.Impartial := by
  simp (disch := decide) [suffixRule, impartial_suffixes]

lemma impartial_postfixed : postfixed.Impartial := by
  simp [postfixed, impartial_operand, impartial_suffixes]

lemma impartial_unary : unary.Impartial := by
  simp (disch := decide) [unary, impartial_postfixed]

/-- A layer of binary operators is impartial if the next layer is. -/
lemma impartial_layer {p : TokenKind → Bool} {next : Rule}
    (hp : ∀ k : TokenKind, k.isSoftKeyword = true → p k = p .ident) (hnext : next.Impartial) :
    (layer p next).Impartial := by
  have hstop : Lookahead.Impartial fun l => !l.startsWith p := (impartial_startsWith hp).not
  simp [layer, impartial_branch_startsWith hp, impartial_loop hstop, hnext]

lemma impartial_binary : binary.Impartial :=
  impartial_layer (by decide) <| impartial_layer (by decide) <| impartial_layer (by decide) <|
    impartial_layer (by decide) impartial_unary

lemma impartial_conditional : conditional.Impartial := by
  simp (disch := decide) [conditional, impartial_binary]

end Expressions

/-- **The rules of the nesting levels are impartial.** -/
theorem impartial_nested (level : Nesting) : (nested level).Impartial := by
  cases level with
  | expression => exact impartial_conditional
  | signed => exact ⟨trivial, impartial_unary⟩
  | suffixed => exact impartial_suffixRule
  | type => exact ⟨impartial_baseType, impartial_arraySuffixes⟩
  | array => exact ⟨⟨trivial, trivial⟩, impartial_arraySuffixes⟩

/-! ## Blocks -/

section Blocks

lemma impartial_valueAfterKey : valueAfterKey.Impartial := by
  simp (disch := decide) [valueAfterKey]

lemma impartial_fieldBlock : fieldBlock.Impartial := by
  simp (disch := decide) [fieldBlock, blockField, impartial_valueAfterKey]

lemma impartial_inputBlock : inputBlock.Impartial := by
  simp (disch := decide) [inputBlock, impartial_fieldBlock]

lemma impartial_namedBlock (kind : NodeKind) : (namedBlock kind).Impartial := by
  simp [namedBlock, impartial_fieldBlock]

lemma impartial_plainBlock (kind : NodeKind) : (plainBlock kind).Impartial := by
  simp [plainBlock, impartial_fieldBlock]

lemma impartial_localsBlock : localsBlock.Impartial := by
  simp [localsBlock, localBinding, impartial_valueAfterKey]

lemma impartial_signersBlock : signersBlock.Impartial := by
  simp (disch := decide) [signersBlock]

lemma impartial_metadataBlock : metadataBlock.Impartial := by
  simp (disch := decide) [metadataBlock, metadataField, impartial_valueAfterKey]

lemma impartial_cardanoBlock : cardanoBlock.Impartial := by
  simp (disch := decide) [cardanoBlock, impartial_fieldBlock]

lemma impartial_letBinding : letBinding.Impartial := by
  simp (disch := decide) [letBinding]

/-- The word that opens a block may be a soft keyword, for no identifier opens one. -/
lemma dispatches_bodyItem : bodyItem.Dispatches :=
  .starts (by decide) impartial_inputBlock <|
  .starts (by decide) (impartial_namedBlock _) <|
  .starts (by decide) (impartial_namedBlock _) <|
  .starts (by decide) (impartial_namedBlock _) <|
  .starts (by decide) (impartial_namedBlock _) <|
  .starts (by decide) (impartial_plainBlock _) <|
  .starts (by decide) (impartial_plainBlock _) <|
  .starts (by decide) impartial_localsBlock <|
  .starts (by decide) impartial_signersBlock <|
  .starts (by decide) impartial_metadataBlock <|
  .starts (by decide) impartial_cardanoBlock <|
  .starts (by decide) impartial_letBinding <|
  dispatches_reject _

end Blocks

/-! ## Declarations -/

section Declarations

lemma impartial_semicolon : semicolon.Impartial := impartial_expect (by decide) _

lemma impartial_partyDecl : partyDecl.Impartial := by
  simp (disch := decide) [partyDecl, impartial_semicolon]

lemma impartial_importCall : importCall.Impartial := by
  have hstop : Lookahead.Impartial fun l => l.endsList .rParen || l.starts .semicolon :=
    (impartial_endsList (by decide)).or (impartial_starts (by decide))
  simp (disch := decide) [importCall, impartial_loop hstop]

lemma impartial_policyDecl : policyDecl.Impartial := by
  simp (disch := decide) [policyDecl, impartial_importCall, impartial_semicolon,
    impartial_fieldBlock]

lemma impartial_assetDecl : assetDecl.Impartial := by
  simp (disch := decide) [assetDecl, impartial_semicolon]

lemma impartial_variantCase : variantCase.Impartial := by
  simp (disch := decide) [variantCase, caseTypes, impartial_recordFields]

lemma impartial_startsCase : Lookahead.Impartial startsCase :=
  (impartial_startsWith (by decide)).and <|
    (((impartial_continues (by decide)).or (impartial_continues (by decide))).or
      (impartial_continues (by decide))).or (impartial_continues (by decide))

lemma impartial_typeDecl : typeDecl.Impartial := by
  simp (disch := decide) [typeDecl, impartial_typeOrUnion, impartial_semicolon,
    impartial_branch impartial_startsCase, impartial_variantCase, impartial_recordField]

lemma impartial_recordDecl : recordDecl.Impartial := by
  simp [recordDecl, impartial_recordField]

lemma impartial_envDecl : envDecl.Impartial := by
  simp (disch := decide) [envDecl, impartial_recordFields]

lemma impartial_paramList : paramList.Impartial := by
  have hstop : Lookahead.Impartial fun l => l.endsList .rParen || l.starts .lBrace :=
    (impartial_endsList (by decide)).or (impartial_starts (by decide))
  simp (disch := decide) [paramList, txParam, impartial_typeAfterName, impartial_loop hstop]

lemma impartial_txDecl : txDecl.Impartial := by
  simp [txDecl, impartial_paramList, dispatches_bodyItem.impartial]

/-- The word that opens a declaration may be a soft keyword, for no identifier opens one. -/
lemma dispatches_declaration : declaration.Dispatches :=
  .starts (by decide) impartial_partyDecl <|
  .starts (by decide) impartial_policyDecl <|
  .starts (by decide) impartial_recordDecl <|
  .starts (by decide) impartial_typeDecl <|
  .starts (by decide) impartial_txDecl <|
  .starts (by decide) impartial_envDecl <|
  .starts (by decide) impartial_assetDecl <|
  dispatches_reject _

/-- **The rule of a file is impartial.** -/
theorem impartial_file : file.Impartial :=
  (impartial_loop impartial_isEnd).2 dispatches_declaration.impartial

end Declarations

end TxTree.Grammar

namespace TxTree

open Grammar

/-- **Soft keywords are names** wherever names are read: if nothing is amiss with a stream of tokens
and some of its identifiers are replaced by soft keywords, nothing is amiss either, and the tree is
the same but for the tokens that are replaced. -/
theorem parseTokens_renamed {ts us : List Token} (h : List.Forall₂ Token.RenamedTo ts us)
    (hclean : (parseTokens ts).2 = []) :
    (parseTokens us).2 = [] ∧ (parseTokens ts).1.Matches Token.RenamedTo (parseTokens us).1 ∧
      (parseTokens us).1.leaves = us := by
  obtain ⟨g, hg, -, -⟩ := exists_derives_file ts
  rw [parseTokens_eq hg] at hclean ⊢
  have hfinish := eq_nil_of_sort_eq_nil hclean
  have hstays : g.diagnostics = [] := by
    rw [Gathering.finish, Gathering.attachAll_diagnostics, List.append_eq_nil_iff] at hfinish
    exact hfinish.1
  obtain ⟨g', hg', ha⟩ :=
    hg.renamed impartial_nested impartial_file hstays (Gathering.RenamedTo.ofTokens h)
  have hlast := ha.finish hfinish
  refine ⟨?_, ?_, leaves_root us⟩
  · rw [parseTokens_eq hg', hlast.clean]
    exact List.mergeSort_nil
  · rw [parseTokens_eq hg']
    exact .node hlast.children

/-- A transaction, once more with soft keywords for all its names, some of which open declarations
or blocks elsewhere. -/
theorem parseTokens_renamed_signers :
    List.Forall₂ Token.RenamedTo (tokenize "tx a() \x7b signers \x7b b.c, \x7d \x7d")
        (tokenize "tx asset() \x7b signers \x7b metadata.ref, \x7d \x7d") ∧
      (parseTokens (tokenize "tx a() \x7b signers \x7b b.c, \x7d \x7d")).2 = [] ∧
      (parseTokens (tokenize "tx asset() \x7b signers \x7b metadata.ref, \x7d \x7d")).2 = [] ∧
      (parseTokens (tokenize "tx a() \x7b signers \x7b b.c, \x7d \x7d")).1.Matches Token.RenamedTo
        (parseTokens (tokenize "tx asset() \x7b signers \x7b metadata.ref, \x7d \x7d")).1 := by
  have hrenamed : List.Forall₂ Token.RenamedTo
      (tokenize "tx a() \x7b signers \x7b b.c, \x7d \x7d")
      (tokenize "tx asset() \x7b signers \x7b metadata.ref, \x7d \x7d") := by
    decide +kernel
  have hclean : (parseTokens (tokenize "tx a() \x7b signers \x7b b.c, \x7d \x7d")).2 = [] := by
    decide +kernel
  obtain ⟨hnone, hmatches, -⟩ := parseTokens_renamed hrenamed hclean
  exact ⟨hrenamed, hclean, hnone, hmatches⟩

end TxTree
