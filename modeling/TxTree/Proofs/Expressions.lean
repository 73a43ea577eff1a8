import TxTree.Proofs.Phrases
import TxTree.Proofs.Reading

set_option relaxedAutoImplicit false
set_option autoImplicit false

/-!
# Reading expressions

Every expression is read back from the lexemes that spell it, with the tree that stands for it, as
long as it does not nest too deeply. What a phrase is followed by matters: what would go on with the
phrase must not come next. That two tokens of lookahead are enough to tell all phrases apart is seen
from the kinds of tokens that phrases begin with and go on with.

## Main definitions

* `TxTree.Category.opens`, `TxTree.Category.goesOn` — the kinds of tokens that phrases of a sort
  begin with, and go on with.
* `TxTree.Category.rule` — the rule that reads the phrases of a sort.

## Main results

* `TxTree.Phrase.reads` — every phrase is read.
-/

namespace TxTree

open Grammar

/-! ## How phrases begin and go on -/

/-- The kinds of tokens that an operand begins with. -/
def TokenKind.opensOperand (k : TokenKind) : Bool :=
  k == .spread || k == .lParen || k == .lBracket || k == .lBrace || k.isName ||
    k.isBuiltinSymbol || k.isLiteral || k == .trueKw || k == .falseKw

lemma TokenKind.opensOperand_of_isName :
    ∀ k : TokenKind, k.isName = true → k.opensOperand = true := by
  decide

/-- The kinds of tokens that a name goes on with to something else than a reference. -/
def TokenKind.followsName (k : TokenKind) : Bool := k == .colonColon || k == .lBrace || k == .lParen

/-- The kinds of tokens that an operand goes on with. -/
def TokenKind.followsOperand (k : TokenKind) : Bool := k.followsName || k == .dot || k == .lBracket

/-- The kinds of tokens that the operands and operators of a layer go on with. -/
def Layer.goesOn : Layer → TokenKind → Bool
  | product, k => k.followsOperand || isProduct k
  | sum, k => k.followsOperand || isProduct k || isSum k
  | comparison, k => k.followsOperand || isProduct k || isSum k || k.isComparison
  | logical, k => k.followsOperand || isProduct k || isSum k || k.isComparison || isLogical k

namespace Category

/-- **The kinds of tokens that phrases of a sort begin with**, if they are not empty. -/
def opens : Category → TokenKind → Bool
  | suffixed, k | primary, k => k.opensOperand
  | tail l, k => l.isOperator k
  | inits, k => k.isName || k == .spread
  | _, k => k.opensOperand || k == .bang || k == .minus

/-- **The kinds of tokens that phrases of a sort go on with.** Lists go on with everything but
their closing brackets. -/
def goesOn : Category → TokenKind → Bool
  | expression, k => Layer.goesOn .logical k || k == .question
  | layer l, k | tail l, k => l.goesOn k
  | unary, k | suffixed, k => k.followsOperand
  | primary, k => k.followsName
  | items b, k => k != b.close
  | entries, k | inits, k => k != .rBrace

/-- Whether phrases of a sort may be empty. -/
def mayBeEmpty : Category → Bool
  | items _ | entries | inits => true
  | _ => false

end Category

/-- An operand of a layer is not empty. -/
lemma Layer.mayBeEmpty_operand (l : Layer) : l.operand.mayBeEmpty = false := by cases l <;> rfl

/-- An operand of a layer begins like the layer. -/
lemma Layer.opens_operand (l : Layer) : l.operand.opens = (Category.layer l).opens := by
  cases l <;> rfl

/-- An operand of a layer goes on with no more than the layer. -/
lemma Layer.goesOn_of_operand (l : Layer) :
    ∀ k, l.operand.goesOn k = true → l.goesOn k = true := by
  cases l <;> decide

/-- A layer goes on with its operators, … -/
lemma Layer.goesOn_of_isOperator (l : Layer) :
    ∀ k, l.isOperator k = true → l.goesOn k = true := by
  cases l <;> decide

/-- … and its operands do not. -/
lemma Layer.goesOn_operand_of_isOperator (l : Layer) :
    ∀ k, l.isOperator k = true → l.operand.goesOn k = false := by
  cases l <;> decide

/-- **What a phrase begins with** is a token of one of the kinds that its sort begins with.

**Proof sketch.** Induction on the phrase. A phrase that begins with another one begins like it. -/
theorem Phrase.startsWith_opens {c : Category} (p : Phrase c) (hc : c.mayBeEmpty = false) :
    (lookaheadOf p.print).startsWith c.opens = true := by
  induction p with
  | ternary c y n ih _ _ =>
    rw [print, List.append_assoc]
    exact startsWith_append (ih rfl)
  | plain e ih => exact ih rfl
  | @single l e ih => exact l.opens_operand ▸ ih l.mayBeEmpty_operand
  | @flat l e rest ih _ => exact startsWith_append (l.opens_operand ▸ ih l.mayBeEmpty_operand)
  | last op e _ => exact op.2
  | next op e rest _ _ => exact op.2
  | signed sign e _ =>
    obtain ⟨k, hk⟩ := sign
    change (k.opensOperand || k == .bang || k == .minus) = true
    rw [Bool.or_assoc, hk, Bool.or_true]
  | unsigned e ih => exact startsWith_mono (by simp +contextual [Category.opens]) (ih rfl)
  | bare e ih => exact ih rfl
  | field b n ih => exact startsWith_append (ih rfl)
  | index b e ih _ =>
    rw [print, List.append_assoc]
    exact startsWith_append (ih rfl)
  | literal c =>
    obtain ⟨⟨k, text⟩, hk⟩ := c
    change k.opensOperand = true
    simp_all [TokenKind.opensOperand, or_assoc]
  | reference n =>
    obtain ⟨⟨k, text⟩, hk⟩ := n
    change k.opensOperand = true
    simp_all [TokenKind.opensOperand, or_assoc]
  | call f args _ =>
    obtain ⟨⟨k, text⟩, hk⟩ := f
    change k.opensOperand = true
    simp only [Bool.or_eq_true, beq_iff_eq] at hk
    rcases hk with hk | rfl
    · exact k.opensOperand_of_isName hk
    · rfl
  | record n es _ => exact n.1.kind.opensOperand_of_isName n.2
  | variant t c => exact t.1.kind.opensOperand_of_isName t.2
  | variantWith t c es _ => exact t.1.kind.opensOperand_of_isName t.2
  | unit | group | spread | list | map => rfl
  | noItem | lastItem | item | noEntry | lastEntry | entry | noInit | init | spreadInit => cases hc

/-! ## The rules -/

/-- The rule that reads the operands of a layer. -/
def Layer.operandRule : Layer → Rule
  | product => unary
  | sum => layer isProduct unary
  | comparison => layer isSum (layer isProduct unary)
  | logical => layer TokenKind.isComparison (layer isSum (layer isProduct unary))

/-- **The rule that reads the phrases of a sort.** -/
def Category.rule : Category → Rule
  | expression => Rule.expression
  | layer l => Grammar.layer l.isOperator l.operandRule
  | tail l => .loop (fun k => !k.startsWith l.isOperator) (.bump ++ l.operandRule)
  | unary => Grammar.unary
  | suffixed => postfixed
  | primary => operand
  | items b => .loop (·.endsList b.close) (Rule.expression ++ Rule.eat .comma)
  | entries => .loop (·.endsList .rBrace) mapEntry
  | inits => .loop (·.endsList .rBrace) recordInit

lemma Layer.rule_operand (l : Layer) : l.operand.rule = l.operandRule := by cases l <;> rfl

namespace Phrase

open TokenKind

/-- Whether a phrase is read wherever there is room for it and nothing comes next that it would go
on with. -/
def IsRead {c : Category} (p : Phrase c) : Prop :=
  ∀ (room : Nat) (f : List Shape) (w : List Lexeme), p.nesting ≤ room →
    (lookaheadOf w).startsWith c.goesOn = false → Reads room c.rule f (p.print ++ w) (f ++ p.tree) w

variable {room : Nat} {f f' : List Shape} {w w' : List Lexeme}

/-! ### The conditional -/

lemma isRead_plain {e : Phrase (.layer .logical)} (he : e.IsRead) : (plain e).IsRead := by
  intro room f w hroom hw
  obtain ⟨room, rfl⟩ := Nat.exists_eq_add_one.2 (Nat.zero_lt_of_lt hroom)
  have hroom' : e.nesting ≤ room := Nat.le_of_succ_le_succ hroom
  have hlogical : (lookaheadOf w).startsWith Layer.logical.goesOn = false :=
    startsWith_eq_false_of_imp (fun k hk => by simp [Category.goesOn, hk]) hw
  have hquestion : (lookaheadOf w).starts .question = false := by
    rw [starts_eq_startsWith]
    exact startsWith_eq_false_of_imp (fun k hk => by simp [Category.goesOn, hk]) hw
  exact .nest (.mark ((he room [] w hroom' hlogical).seq (.no hquestion .done)))

lemma isRead_ternary {c : Phrase (.layer .logical)} {y n : Expr} (hc : c.IsRead)
    (hy : y.IsRead) (hn : n.IsRead) : (ternary c y n).IsRead := by
  intro room f w hroom hw
  obtain ⟨room, rfl⟩ := Nat.exists_eq_add_one.2 (Nat.zero_lt_of_lt hroom)
  have hroom' : max c.nesting (max y.nesting n.nesting) ≤ room := Nat.le_of_succ_le_succ hroom
  rw [Nat.max_le, Nat.max_le] at hroom'
  obtain ⟨hcroom, hyroom, hnroom⟩ := hroom'
  have hbranches : Reads room (.bump ++ .expression ++ .expect .colon "Expected ':'" ++ .expression)
      ([] ++ c.tree) (question.lexeme :: (y.print ++ colon.lexeme :: (n.print ++ w))) _ w :=
    ((Reads.bump.seq (hy room _ (colon.lexeme :: _) hyroom rfl)).seq (.expect rfl)).seq
      (hn room _ w hnroom hw)
  have hcondition := hc room [] (question.lexeme :: (y.print ++ colon.lexeme :: (n.print ++ w)))
    hcroom rfl
  have hall : Reads (room + 1) Category.expression.rule f _ _ w :=
    .nest (.mark (hcondition.seq (.yes rfl (.wrap hbranches))))
  exact hall.of_eq (by simp [print]) (by simp [tree])

/-! ### Layers of binary operators -/

section Layers

variable {l : Layer} {op : l.Operator} {first e : Phrase l.operand} {rest : Phrase (.tail l)}

/-- What comes behind a layer is no operator of the layer, … -/
lemma not_isOperator_of_goesOn (hw : (lookaheadOf w).startsWith l.goesOn = false) :
    (lookaheadOf w).startsWith l.isOperator = false :=
  startsWith_eq_false_of_imp l.goesOn_of_isOperator hw

/-- … and nothing that its operands would go on with; … -/
lemma not_goesOn_operand (hw : (lookaheadOf w).startsWith l.goesOn = false) :
    (lookaheadOf w).startsWith l.operand.goesOn = false :=
  startsWith_eq_false_of_imp l.goesOn_of_operand hw

/-- … nor are the operators. -/
lemma not_goesOn_tail (rest : Phrase (.tail l)) :
    (lookaheadOf (rest.print ++ w)).startsWith l.operand.goesOn = false :=
  startsWith_eq_false_of_disjoint l.goesOn_operand_of_isOperator
    (startsWith_append (rest.startsWith_opens rfl))

/-- There is less to come behind an operator and its operand. -/
lemma length_lt_next (w : List Lexeme) :
    w.length < (op.1.lexeme :: (e.print ++ w)).length := by
  rw [List.length_cons, List.length_append]
  omega

lemma isRead_single (he : e.IsRead) : (single e).IsRead := by
  intro room f w hroom hw
  have hoperand := he room [] w hroom (not_goesOn_operand hw)
  rw [l.rule_operand] at hoperand
  exact .mark (hoperand.seq (.no (not_isOperator_of_goesOn hw) .done))

lemma isRead_flat (hfirst : first.IsRead) (hrest : rest.IsRead) : (flat first rest).IsRead := by
  intro room f w hroom hw
  obtain ⟨hroom₁, hroom₂⟩ := Nat.max_le.1 hroom
  have hoperand := hfirst room [] (rest.print ++ w) hroom₁ (not_goesOn_tail rest)
  rw [l.rule_operand] at hoperand
  have htail := hrest room ([] ++ first.tree) w hroom₂ hw
  have hoperator : (lookaheadOf (rest.print ++ w)).startsWith l.isOperator = true :=
    startsWith_append (rest.startsWith_opens rfl)
  rw [print, List.append_assoc]
  exact .mark (hoperand.seq (.yes hoperator (.wrap htail)))

lemma isRead_last (he : e.IsRead) : (last op e).IsRead := by
  intro room f w hroom hw
  have hoperand := he room (f ++ [.leaf op.1.lexeme]) w hroom (not_goesOn_operand hw)
  rw [l.rule_operand] at hoperand
  have hend : (!(lookaheadOf w).startsWith l.isOperator) = true := by
    rw [not_isOperator_of_goesOn hw, Bool.not_false]
  have hall : Reads room (Category.tail l).rule f (op.1.lexeme :: _) _ w :=
    .step (congrArg Bool.not op.2) (.bump_append hoperand) (length_lt_next w) (.stop hend)
  exact hall.of_eq rfl (by simp [tree])

lemma isRead_next (he : e.IsRead) (hrest : rest.IsRead) : (next op e rest).IsRead := by
  intro room f w hroom hw
  obtain ⟨hroom₁, hroom₂⟩ := Nat.max_le.1 hroom
  have hoperand := he room (f ++ [.leaf op.1.lexeme]) (rest.print ++ w) hroom₁
    (not_goesOn_tail rest)
  rw [l.rule_operand] at hoperand
  have hall : Reads room (Category.tail l).rule f (op.1.lexeme :: _) _ w :=
    .step (congrArg Bool.not op.2) (.bump_append hoperand) (length_lt_next _)
      (hrest room _ w hroom₂ hw)
  exact hall.of_eq (by simp [print]) (by simp [tree])

end Layers

/-! ### Signs and suffixes -/

lemma isRead_signed {sign : Sign} {e : Phrase .unary} (he : e.IsRead) :
    (signed sign e).IsRead := by
  intro room f w hroom hw
  obtain ⟨room, rfl⟩ := Nat.exists_eq_add_one.2 (Nat.zero_lt_of_lt hroom)
  have hoperand := he room ([] ++ [.leaf sign.1.lexeme]) w (Nat.le_of_succ_le_succ hroom) hw
  exact .yes sign.2 (.nest (.node (.bump_append hoperand)))

/-- Whether an operand with some suffixes is read wherever there is room for it, whatever the
further suffixes come to. -/
def IsReadBeforeSuffixes (b : Phrase .suffixed) : Prop :=
  ∀ (room : Nat) (f' : List Shape) (w w' : List Lexeme), b.nesting ≤ room →
    (lookaheadOf w).startsWith TokenKind.followsName = false →
    Reads (room - b.suffixCount) suffixes b.tree w f' w' →
    Reads room (operand ++ suffixes) [] (b.print ++ w) f' w'

lemma isReadBeforeSuffixes_bare {e : Phrase .primary} (he : e.IsRead) :
    (bare e).IsReadBeforeSuffixes :=
  fun room _ w _ hroom hw hsuffixes => (he room [] w hroom hw).seq hsuffixes

lemma isReadBeforeSuffixes_field {b : Phrase .suffixed} {n : Name}
    (hb : b.IsReadBeforeSuffixes) : (field b n).IsReadBeforeSuffixes := by
  intro room f' w w' hroom _ hsuffixes
  obtain ⟨hbroom, hcount⟩ := Nat.max_le.1 hroom
  obtain ⟨m, hm⟩ := Nat.exists_eq_add_one.2 (Nat.sub_pos_of_lt hcount)
  have hrest : room - (field b n).suffixCount = m := by rw [suffixCount]; omega
  have htree : (field b n).tree =
      [.node .fieldAccessExpr (b.tree ++ [.leaf dot.lexeme] ++ [.leaf n.1])] := by
    simp [tree, leaves]
  rw [hrest, htree] at hsuffixes
  have hsuffix : Reads (m + 1) suffixes b.tree (dot.lexeme :: n.1 :: w) f' w' :=
    .yes rfl (.nest (.seq (.yes rfl (.wrap (.bump_append (.name n.2)))) hsuffixes))
  rw [← hm] at hsuffix
  exact (hb room f' _ w' hbroom rfl hsuffix).of_eq (by simp [print]) rfl

lemma isReadBeforeSuffixes_index {b : Phrase .suffixed} {e : Expr} (hb : b.IsReadBeforeSuffixes)
    (he : e.IsRead) : (index b e).IsReadBeforeSuffixes := by
  intro room f' w w' hroom _ hsuffixes
  obtain ⟨hbroom, hcount⟩ := Nat.max_le.1 hroom
  obtain ⟨m, hm⟩ : ∃ m, room - b.suffixCount = m + 1 :=
    Nat.exists_eq_add_one.2 (Nat.sub_pos_of_lt (by omega))
  have hrest : room - (index b e).suffixCount = m := by rw [suffixCount]; omega
  have htree : (index b e).tree =
      [.node .indexExpr
        (b.tree ++ [.leaf lBracket.lexeme] ++ e.tree ++ [.leaf rBracket.lexeme])] := by
    simp [tree]
  rw [hrest, htree] at hsuffixes
  have hindex : Reads m (.bump ++ .expression ++ .expect .rBracket "Expected ']'") b.tree
      (lBracket.lexeme :: (e.print ++ rBracket.lexeme :: w)) _ w :=
    (Reads.bump.seq (he m _ (rBracket.lexeme :: w) (by omega) rfl)).seq (.expect rfl)
  have hsuffix : Reads (m + 1) suffixes b.tree _ f' w' :=
    .yes rfl (.nest (.seq (.no rfl (.wrap hindex)) hsuffixes))
  rw [← hm] at hsuffix
  exact (hb room f' _ w' hbroom rfl hsuffix).of_eq (by simp [print]) rfl

/-- An operand with its suffixes is read where there are no further ones. -/
lemma IsReadBeforeSuffixes.isRead {b : Phrase .suffixed} (hb : b.IsReadBeforeSuffixes) :
    b.IsRead := by
  intro room f w hroom hw
  have hname : (lookaheadOf w).startsWith TokenKind.followsName = false :=
    startsWith_eq_false_of_imp (fun k hk => by simp [Category.goesOn, followsOperand, hk]) hw
  have hnone : (lookaheadOf w).startsWith (fun k => k == .dot || k == .lBracket) = false :=
    startsWith_eq_false_of_imp
      (fun k hk => by rw [Category.goesOn, followsOperand, Bool.or_assoc, hk, Bool.or_true]) hw
  exact .mark (hb room b.tree w w hroom hname (.no hnone .done))

lemma isRead_unsigned {b : Phrase .suffixed} (hb : b.IsRead) : (unsigned b).IsRead := by
  intro room f w hroom hw
  have hsign :
      (lookaheadOf (b.print ++ w)).startsWith (fun k => k == .bang || k == .minus) = false :=
    startsWith_eq_false_of_disjoint (by decide) (startsWith_append (b.startsWith_opens rfl))
  exact .no hsign (hb room f w hroom hw)

/-! ### Operands -/

/-- What an operand that begins with a name is, is seen from the token behind it. -/
lemma resolve_operand_of_isName {k : TokenKind} (hk : k.isName = true)
    (second : Option TokenKind) :
    operand.resolve ⟨some k, second⟩ =
      if second == some .colonColon then Grammar.variant
      else if second == some .lBrace then .node .recordLiteral (.bump ++ recordInits)
      else if second == some .lParen then Grammar.call
      else .node .nameRef .bump := by
  cases k <;> first | rfl | cases hk

/-- A constant is told by its own token. -/
lemma resolve_operand_of_isConstant {k : TokenKind}
    (hk : (k.isLiteral || k == .trueKw || k == .falseKw) = true) (second : Option TokenKind) :
    operand.resolve ⟨some k, second⟩ = .node .literal .bump := by
  cases k <;> first | rfl | cases hk

/-- A reference is told by its own token and what does not follow. -/
lemma resolve_operand_of_isReference {k : TokenKind}
    (hk : (k.isName || k.isBuiltinSymbol) = true) {second : Option TokenKind}
    (hsecond : second.any TokenKind.followsName = false) :
    operand.resolve ⟨some k, second⟩ = .node .nameRef .bump := by
  have hcolons : (second == some .colonColon) = false := by
    cases second <;> simp_all [followsName]
  have hbrace : (second == some .lBrace) = false := by cases second <;> simp_all [followsName]
  have hparen : (second == some .lParen) = false := by cases second <;> simp_all [followsName]
  rcases Bool.or_eq_true _ _ ▸ hk with hname | hsymbol
  · rw [resolve_operand_of_isName hname, hcolons, hbrace, hparen]
    rfl
  · cases k <;> cases hsymbol
    · simp only [operand, Rule.resolve, Lookahead.continues, hparen, Bool.and_false]
      rfl
    · rfl

lemma isRead_literal {c : Constant} : (literal c).IsRead :=
  fun _ _ _ _ _ => .of_resolve_cons (resolve_operand_of_isConstant c.2 _) (.node .bump)

lemma isRead_reference {n : Reference} : (reference n).IsRead :=
  fun _ _ _ _ hw => .of_resolve_cons (resolve_operand_of_isReference n.2 hw) (.node .bump)

lemma isRead_unit : unit.IsRead :=
  fun _ _ _ _ _ => .of_resolve (.node (.bump_append .bump))

lemma isRead_spread {n : Name} : (Phrase.spread n).IsRead :=
  fun _ _ _ _ _ => .of_resolve (.node ((Reads.bump_append (.yes n.2 .bump)).seq .done))

lemma isRead_group {e : Expr} (he : e.IsRead) : (group e).IsRead := by
  intro room f w hroom _
  -- What begins an expression is no closing parenthesis, so that this is not the unit.
  have hopens :
      (lookaheadOf (e.print ++ rParen.lexeme :: w)).startsWith (· == .rParen) = false :=
    startsWith_eq_false_of_disjoint (by decide) (startsWith_append (e.startsWith_opens rfl))
  have hunit : (lookaheadOf (lParen.lexeme :: (e.print ++ rParen.lexeme :: w))).continues .rParen =
      false := by
    rw [lookaheadOf_cons]
    exact (starts_eq_startsWith _).trans hopens
  have hgroup : Reads room (.bump ++ .expression ++ .expect .rParen "Expected ')'") f
      (lParen.lexeme :: (e.print ++ rParen.lexeme :: w)) _ w :=
    (Reads.bump.seq (he room _ _ hroom rfl)).seq (.expect rfl)
  have hall : Reads room parenthesis f _ _ w := .no hunit hgroup
  have hoperand : Reads room Category.primary.rule f _ _ w := .no rfl (.no rfl (.yes rfl hall))
  exact hoperand.of_eq (by simp [print]) (by simp [tree])

/-- Expressions in brackets are read with the closing bracket. -/
lemma IsRead.through {b : Bracket} {es : Phrase (.items b)} (hes : es.IsRead)
    (hroom : es.nesting ≤ room) (message : String) :
    Reads room (expressionsThrough b.close message) f (es.print ++ b.close.lexeme :: w)
      (f ++ es.tree ++ [.leaf b.close.lexeme]) w :=
  (hes room f (b.close.lexeme :: w) hroom (bne_self_eq_false b.close)).seq (.expect rfl)

/-- The entries of a record are read with their braces. -/
lemma IsRead.braced {es : Phrase .inits} (hes : es.IsRead) (hroom : es.nesting ≤ room) :
    Reads room recordInits f (lBrace.lexeme :: (es.print ++ rBrace.lexeme :: w))
      (f ++ [.leaf lBrace.lexeme] ++ es.tree ++ [.leaf rBrace.lexeme]) w :=
  .bump_append ((hes room _ _ hroom rfl).seq (.expect rfl))

lemma isRead_list {es : Phrase (.items .square)} (hes : es.IsRead) : (list es).IsRead := by
  intro room f w hroom _
  have hlist : Reads room Category.primary.rule f
      (lBracket.lexeme :: (es.print ++ rBracket.lexeme :: w)) _ w :=
    .of_resolve (.node (.bump_append (hes.through hroom _)))
  exact hlist.of_eq (by simp [print]) (by simp [tree, Bracket.close])

lemma isRead_map {es : Phrase .entries} (hes : es.IsRead) : (map es).IsRead := by
  intro room f w hroom _
  have hmap : Reads room Category.primary.rule f
      (lBrace.lexeme :: (es.print ++ rBrace.lexeme :: w)) _ w :=
    .of_resolve (.node (.bump_append
      ((hes room _ (rBrace.lexeme :: w) hroom rfl).seq (.expect rfl))))
  exact hmap.of_eq (by simp [print]) (by simp [tree])

lemma isRead_call {c : Callee} {args : Phrase (.items .round)} (hargs : args.IsRead) :
    (call c args).IsRead := by
  intro room f w hroom _
  obtain ⟨⟨k, text⟩, hk⟩ := c
  have hresolve : operand.resolve ⟨some k, some .lParen⟩ = Grammar.call := by
    simp only [Bool.or_eq_true, beq_iff_eq] at hk
    rcases hk with hk | rfl
    · exact resolve_operand_of_isName hk _
    · rfl
  have hcall : Reads room Grammar.call f
      (⟨k, text⟩ :: lParen.lexeme :: (args.print ++ rParen.lexeme :: w)) _ w :=
    .node (.bump_append (.node (.bump_append (hargs.through hroom _))))
  have hall : Reads room Category.primary.rule f _ _ w := .of_resolve_cons hresolve hcall
  exact hall.of_eq (by simp [print]) (by simp [tree, Bracket.close])

lemma isRead_record {n : Name} {es : Phrase .inits} (hes : es.IsRead) : (record n es).IsRead := by
  intro room f w hroom _
  have hall : Reads room Category.primary.rule f
      (n.1 :: lBrace.lexeme :: (es.print ++ rBrace.lexeme :: w)) _ w :=
    .of_resolve_cons (resolve_operand_of_isName n.2 _) (.node (.bump_append (hes.braced hroom)))
  exact hall.of_eq (by simp [print]) (by simp [tree])

lemma isRead_variant {t c : Name} : (variant t c).IsRead := by
  intro room f w _ hw
  have hnone : (lookaheadOf w).starts .lBrace = false := by
    rw [starts_eq_startsWith]
    exact startsWith_eq_false_of_imp (fun k hk => by simp_all [Category.goesOn, followsName]) hw
  have hvariant : Reads room Grammar.variant f (t.1 :: colonColon.lexeme :: c.1 :: w) _ w :=
    .node ((Reads.bump.seq .bump).seq (.nameThen c.2 (.no hnone .done)))
  exact .of_resolve_cons (resolve_operand_of_isName t.2 _) hvariant

lemma isRead_variantWith {t c : Name} {es : Phrase .inits} (hes : es.IsRead) :
    (variantWith t c es).IsRead := by
  intro room f w hroom _
  have hvariant : Reads room Grammar.variant f (t.1 :: colonColon.lexeme :: c.1 ::
      lBrace.lexeme :: (es.print ++ rBrace.lexeme :: w)) _ w :=
    .node ((Reads.bump.seq .bump).seq (.nameThen c.2 (.yes rfl (hes.braced hroom))))
  have hall : Reads room Category.primary.rule f _ _ w :=
    .of_resolve_cons (resolve_operand_of_isName t.2 _) hvariant
  exact hall.of_eq (by simp [print]) (by simp [tree, leaves])

/-! ### Lists -/

/-- Phrases that are not empty have lexemes. -/
lemma length_print_pos {c : Category} (p : Phrase c) (hc : c.mayBeEmpty = false) :
    0 < p.print.length := by
  have h := p.startsWith_opens hc
  rw [List.length_pos_iff]
  intro hnil
  rw [hnil] at h
  cases h

/-- A list does not end where an expression begins. -/
lemma not_endsList (b : Bracket) (e : Expr) :
    (lookaheadOf (e.print ++ w)).endsList b.close = false := by
  have hcloses : ∀ k, Category.expression.opens k = true →
      (k == b.close || k.isHardDeclarationKeyword) = false := by cases b <;> decide
  exact endsList_eq_false hcloses (startsWith_append (e.startsWith_opens rfl))

/-- An expression does not go on with a closing bracket. -/
lemma not_goesOn_of_closes (b : Bracket)
    (hw : (lookaheadOf w).startsWith (· != b.close) = false) :
    (lookaheadOf w).startsWith Category.expression.goesOn = false := by
  have hcloses : ∀ k, Category.expression.goesOn k = true → (k != b.close) = true := by
    cases b <;> decide
  exact startsWith_eq_false_of_imp hcloses hw

/-- A closing bracket is no comma. -/
lemma not_comma_of_closes (b : Bracket) (hw : (lookaheadOf w).startsWith (· != b.close) = false) :
    (lookaheadOf w).starts .comma = false := by
  rw [starts_eq_startsWith]
  refine startsWith_eq_false_of_imp (fun k hk => ?_) hw
  rw [beq_iff_eq.1 hk]
  cases b <;> rfl

section Items

variable {b : Bracket} {e k v : Expr}

lemma isRead_noItem : (noItem : Phrase (.items b)).IsRead := fun _ _ _ _ hw => .noMore hw

lemma isRead_lastItem (he : e.IsRead) : (lastItem e : Phrase (.items b)).IsRead := by
  intro room f w hroom hw
  have hitem := (he room f w hroom (not_goesOn_of_closes b hw)).seq
    (.eat_none (not_comma_of_closes b hw))
  have hlength := e.length_print_pos rfl
  exact .step (not_endsList b e) hitem (by simp [print]; omega)
    (.stop (endsList_of_startsWith_ne hw))

lemma isRead_item {rest : Phrase (.items b)} (he : e.IsRead) (hrest : rest.IsRead) :
    (item e rest).IsRead := by
  intro room f w hroom hw
  obtain ⟨hroom₁, hroom₂⟩ := Nat.max_le.1 hroom
  have hitem : Reads room (.expression ++ .eat .comma) f
      (e.print ++ comma.lexeme :: (rest.print ++ w)) _ (rest.print ++ w) :=
    (he room f _ hroom₁ rfl).seq (.eat rfl)
  have hall : Reads room (Category.items b).rule f _ _ w :=
    .step (not_endsList b e) hitem (by simp; omega) (hrest room _ w hroom₂ hw)
  exact hall.of_eq (by simp [print]) (by simp [tree])

lemma isRead_noEntry : noEntry.IsRead := fun _ _ _ _ hw => .noMore hw

lemma isRead_lastEntry (hk : k.IsRead) (hv : v.IsRead) : (lastEntry k v).IsRead := by
  intro room f w hroom hw
  obtain ⟨hroom₁, hroom₂⟩ := Nat.max_le.1 hroom
  have hentry : Reads room mapEntry f (k.print ++ colon.lexeme :: (v.print ++ w)) _ w :=
    (((hk room f _ hroom₁ rfl).seq (.expect rfl)).seq
      (hv room _ w hroom₂ (not_goesOn_of_closes .curly hw))).seq
        (.eat_none (not_comma_of_closes .curly hw))
  have hall : Reads room Category.entries.rule f _ _ w :=
    .step (not_endsList .curly k) hentry (by simp; omega) (.stop (endsList_of_startsWith_ne hw))
  exact hall.of_eq (by simp [print]) (by simp [tree])

lemma isRead_entry {rest : Phrase .entries} (hk : k.IsRead) (hv : v.IsRead)
    (hrest : rest.IsRead) : (entry k v rest).IsRead := by
  intro room f w hroom hw
  obtain ⟨hroom₁, hroom₃⟩ := Nat.max_le.1 hroom
  obtain ⟨hroom₁, hroom₂⟩ := Nat.max_le.1 hroom₁
  have hentry : Reads room mapEntry f
      (k.print ++ colon.lexeme :: (v.print ++ comma.lexeme :: (rest.print ++ w))) _
      (rest.print ++ w) :=
    (((hk room f _ hroom₁ rfl).seq (.expect rfl)).seq
      (hv room _ (comma.lexeme :: _) hroom₂ rfl)).seq (.eat rfl)
  have hall : Reads room Category.entries.rule f _ _ w :=
    .step (not_endsList .curly k) hentry (by simp; omega) (hrest room _ w hroom₃ hw)
  exact hall.of_eq (by simp [print]) (by simp [tree])

end Items

/-- An expression does not go on with a comma. -/
lemma not_goesOn_commaIf (comma : Bool)
    (hw : (lookaheadOf w).startsWith Category.expression.goesOn = false) :
    (lookaheadOf (commaIf comma ++ w)).startsWith Category.expression.goesOn = false := by
  cases comma with
  | false => exact hw
  | true => rfl

/-- Behind an entry of a record there is another one or the closing brace, and neither goes on with
an expression nor is a comma. -/
lemma follows_init (rest : Phrase .inits)
    (hw : (lookaheadOf w).startsWith Category.inits.goesOn = false) :
    (lookaheadOf (rest.print ++ w)).startsWith Category.expression.goesOn = false ∧
      (lookaheadOf (rest.print ++ w)).starts .comma = false := by
  cases rest with
  | noInit => exact ⟨not_goesOn_of_closes .curly hw, not_comma_of_closes .curly hw⟩
  | init n v b rest => exact ⟨n.not_startsWith _ (by decide), n.not_starts _ rfl⟩
  | spreadInit => exact ⟨rfl, rfl⟩

section Inits

variable {n : Name} {v : Expr} {b : Bool} {rest : Phrase .inits}

lemma isRead_noInit : noInit.IsRead := fun _ _ _ _ hw => .noMore hw

lemma isRead_init (hv : v.IsRead) (hrest : rest.IsRead) : (init n v b rest).IsRead := by
  intro room f w hroom hw
  obtain ⟨hroom₁, hroom₂⟩ := Nat.max_le.1 hroom
  obtain ⟨hgoesOn, hcomma⟩ := follows_init rest hw
  have hvalue : Reads room (.expect .colon "Expected ':'" ++ .expression ++ .eat .comma)
      ([] ++ [.leaf n.1]) (colon.lexeme :: (v.print ++ (commaIf b ++ (rest.print ++ w)))) _
      (rest.print ++ w) :=
    ((Reads.expect rfl).seq (hv room _ _ hroom₁ (not_goesOn_commaIf b hgoesOn))).seq
      (Reads.lexemeIf b hcomma)
  have hinit : Reads room recordInit f _ _ (rest.print ++ w) :=
    .no (n.not_starts _ rfl) (.node (.nameThen n.2 hvalue))
  have hall : Reads room Category.inits.rule f _ _ w :=
    .step (n.not_endsList _ rfl) hinit (by simp; omega) (hrest room _ w hroom₂ hw)
  exact hall.of_eq (by simp [print]) (by simp [tree])

lemma isRead_spreadInit (hrest : rest.IsRead) : (spreadInit n b rest).IsRead := by
  intro room f w hroom hw
  obtain ⟨-, hcomma⟩ := follows_init rest hw
  have hspread : Reads room recordInit f
      (TokenKind.spread.lexeme :: n.1 :: (commaIf b ++ (rest.print ++ w))) _ (rest.print ++ w) :=
    .yes rfl (.node ((Reads.bump.seq (.yes n.2 .bump)).seq (Reads.lexemeIf b hcomma)))
  have hall : Reads room Category.inits.rule f _ _ w :=
    .step rfl hspread (by simp; omega) (hrest room _ w hroom hw)
  exact hall.of_eq (by simp [print]) (by simp [tree, leaves])

end Inits

/-! ### All phrases -/

/-- Whether a phrase is read; an operand with suffixes, also before further ones. -/
def Readable : {c : Category} → Phrase c → Prop
  | .suffixed, b => b.IsReadBeforeSuffixes
  | _, p => p.IsRead

lemma Readable.isRead {c : Category} {p : Phrase c} (hp : p.Readable) : p.IsRead := by
  cases c with
  | suffixed => exact IsReadBeforeSuffixes.isRead hp
  | _ => exact hp

/-- Every phrase is read.

**Proof sketch.** Induction on the phrase, with one law for each way to make a phrase. -/
lemma readable {c : Category} (p : Phrase c) : p.Readable := by
  induction p with
  | ternary c y n ihc ihy ihn => exact isRead_ternary ihc ihy ihn
  | plain e ih => exact isRead_plain ih
  | single e ih => exact isRead_single ih.isRead
  | flat first rest ih₁ ih₂ => exact isRead_flat ih₁.isRead ih₂
  | last op e ih => exact isRead_last ih.isRead
  | next op e rest ih₁ ih₂ => exact isRead_next ih₁.isRead ih₂
  | signed sign e ih => exact isRead_signed ih
  | unsigned b ih => exact isRead_unsigned ih.isRead
  | bare e ih => exact isReadBeforeSuffixes_bare ih
  | field b n ih => exact isReadBeforeSuffixes_field ih
  | index b e ih₁ ih₂ => exact isReadBeforeSuffixes_index ih₁ ih₂
  | literal c => exact isRead_literal
  | unit => exact isRead_unit
  | group e ih => exact isRead_group ih
  | reference n => exact isRead_reference
  | spread n => exact isRead_spread
  | list es ih => exact isRead_list ih
  | map es ih => exact isRead_map ih
  | call c args ih => exact isRead_call ih
  | record n es ih => exact isRead_record ih
  | variant t c => exact isRead_variant
  | variantWith t c es ih => exact isRead_variantWith ih
  | noItem => exact isRead_noItem
  | lastItem e ih => exact isRead_lastItem ih
  | item e rest ih₁ ih₂ => exact isRead_item ih₁ ih₂
  | noEntry => exact isRead_noEntry
  | lastEntry k v ih₁ ih₂ => exact isRead_lastEntry ih₁ ih₂
  | entry k v rest ih₁ ih₂ ih₃ => exact isRead_entry ih₁ ih₂ ih₃
  | noInit => exact isRead_noInit
  | init n v b rest ih₁ ih₂ => exact isRead_init ih₁ ih₂
  | spreadInit n b rest ih => exact isRead_spreadInit ih

/-- **Every phrase is read** from the lexemes that spell it, with its tree, where there is room for
it and nothing comes next that it would go on with. -/
theorem reads {c : Category} (p : Phrase c) (hroom : p.nesting ≤ room)
    (hw : (lookaheadOf w).startsWith c.goesOn = false) :
    Reads room c.rule f (p.print ++ w) (f ++ p.tree) w :=
  p.readable.isRead room f w hroom hw

end Phrase

end TxTree
