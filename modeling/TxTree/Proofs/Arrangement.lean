import TxTree.Proofs.Integrity
import TxTree.Proofs.Layout

set_option relaxedAutoImplicit false
set_option autoImplicit false

/-!
# Rules keep to the layout

What each rule adds where no error is found. Behind an error nothing has to be shown, so that a
token which is expected is there, and a name as well; what is left are the words that a production
makes of its tokens and of the nodes below it, each of which is within the language of its kind.

## Main results

* `TxTree.Grammar.Layout.adds_typeRule`, `TxTree.Grammar.Layout.adds_conditional` — what the levels
  of types and of expressions add.
* `TxTree.Grammar.Layout.adds_file` — the rule of a file keeps to the layout.
* `TxTree.Grammar.Layout.kept_layout` — so do the rules of the nesting levels.
* `TxTree.Grammar.parts_mem_form` — and so does the tree of a clean text.
-/

namespace TxTree.Grammar

open Rule NodeKind Node
open scoped Computability

namespace Layout

section Rules

variable {full : Prop} {s : Bool} {P : Lookahead → Prop} {r yes no item rest next : Rule}
  {kind : TokenKind} {p : TokenKind → Bool} {k : NodeKind} {q : Node → Prop}
  {L M : Language Element}

/-! ### Common rules -/

/-- Behind an error nothing is added. -/
lemma adds_report (message : String) : (report message).Adds layout full s P L :=
  fun _ _ _ _ hfaulty => hfaulty.elim

lemma adds_report_append (message : String) (r : Rule) :
    (.report message ++ r : Rule).Adds layout full s P L :=
  fun _ _ _ _ hfaulty => hfaulty.elim

lemma adds_expectThen (message : String) (no : Rule)
    (h : yes.Adds layout full s (fun _ => True) L) :
    (expectThen kind message yes no).Adds layout full true P (token (· == kind) * L) :=
  .branch ((adds_bump_of_starts fun _ h => h.2).seq h) (adds_report_append _ _)

lemma adds_expect (message : String) :
    (expect kind message).Adds layout full true P (token (· == kind)) :=
  (adds_expectThen message .done adds_done).le (by rw [mul_one])

lemma adds_nameThen (message : String) (no : Rule)
    (h : yes.Adds layout full s (fun _ => True) L) :
    (nameThen message yes no).Adds layout full true P (token TokenKind.isName * L) :=
  .branch ((adds_bump fun _ h => h.2).seq h) (adds_report_append _ _)

/-- Items over and over, and the token that closes them. -/
lemma adds_itemsThrough {close : TokenKind} (message : String)
    (h : item.Adds layout full true (fun l => l.endsList close = false) L) :
    (itemsThrough close message item).Adds layout full true P (L∗ * token (· == close)) :=
  (adds_loop h one_le_kstar kstar_mul_le_kstar fun hfaulty => hfaulty.elim).seq (adds_expect _)

lemma adds_braced (h : item.Adds layout full true (fun l => l.endsList .rBrace = false) L) :
    (braced item).Adds layout full true P (rows L) :=
  (adds_expectThen _ _ (adds_itemsThrough _ h)).le (token_mul_rows_le kstar_mul_token_le_rows)

/-- A node whose parts form a word of its kind. -/
lemma adds_formed (hk : k ≠ .error) (h : r.Adds layout full s P L) (hform : L ≤ form k)
    (hq : ∀ n : Node, n.kind = k → n.parts ∈ L → q n) :
    (Rule.node k r).Adds layout full s P (node q) := by
  refine adds_node hk h.turns fun n hn hparts => ⟨?_, hq n hn hparts⟩
  change n.parts ∈ form n.kind
  rw [hn]
  exact hform hparts

/-- A node of which only its form is demanded. -/
lemma adds_any (hk : k ≠ .error) (h : r.Adds layout full s P L) (hform : L ≤ form k) :
    (Rule.node k r).Adds layout full s P (node fun _ => True) :=
  adds_formed hk h hform fun _ _ _ => trivial

/-- A node that holds the comma behind it. -/
lemma adds_entry (hk : holdsOwnComma k = true) (h : r.Adds layout full s P L) (hform : L ≤ form k) :
    (Rule.node k r).Adds layout full s P entry := by
  refine adds_formed ?_ h hform fun n hn _ => ofKind_of_eq hn hk
  rintro rfl
  cases hk

/-- A node that does not end in a comma. -/
lemma adds_bare {t : NodeKind → Bool} (hk : k ≠ .error) (h : r.Adds layout full s P L)
    (hform : L ≤ form k) (hplain : L ≤ plain) (ht : t k = true) :
    (Rule.node k r).Adds layout full s P (node (bare t)) :=
  adds_formed hk h hform fun _ hn => bare_of_mem hn ht hplain

/-- A node that takes over what is before it, and does not end in a comma. -/
lemma turns_bare {t : NodeKind → Bool} (hk : k ≠ .error) (h : r.Turns layout full s P L M)
    (hform : M ≤ form k) (hplain : M ≤ plain) (ht : t k = true) :
    (wrap k r).Turns layout full s P L (node (bare t)) := by
  refine turns_wrap hk h fun n hn hparts => ⟨?_, bare_of_mem hn ht hplain hparts⟩
  change n.parts ∈ form n.kind
  rw [hn]
  exact hform hparts

/-- A node that takes over what is before it, and of which only its form is demanded. -/
lemma turns_any (hk : k ≠ .error) (h : r.Turns layout full s P L M) (hform : M ≤ form k) :
    (wrap k r).Turns layout full s P L ⊤ := by
  refine (turns_wrap (q := fun _ => True) hk h fun n hn hparts => ⟨?_, trivial⟩).le le_top
  change n.parts ∈ form n.kind
  rw [hn]
  exact hform hparts

/-! ### Types -/

lemma adds_type : type.Adds layout full true P typing :=
  adds_nest (s := false) (fun _ _ _ => trivial) (fun _ _ h => h) fun _ hfaulty => hfaulty.elim

lemma adds_typeAfterName :
    typeAfterName.Adds layout full true P (token (· == .colon) * typing) :=
  adds_expectThen _ _ adds_type

/-- A name, a colon and a type. -/
lemma named_type_le_commaless :
    token TokenKind.isName * (token (· == .colon) * typing) ≤ commaless :=
  commaless_mul_le (token_le_commaless rfl)
    (commaless_mul_le (token_le_commaless rfl) (node_le_commaless _))

lemma adds_recordField : recordField.Adds layout full true P entry := by
  refine adds_entry rfl (adds_nameThen _ _ (adds_typeAfterName.seq adds_eat)) ?_
  rw [← mul_assoc]
  exact mul_le_mul_left (named_type_le_commaless.trans commaless_le_plain) _

lemma adds_recordFields (hP : ∀ l, P l → l.starts .lBrace = true) :
    recordFields.Adds layout full true P
      (token (· == .lBrace) * (entry∗ * token (· == .rBrace))) :=
  (adds_bump_of_starts hP).seq (adds_itemsThrough _ adds_recordField)

/-- Entries in braces. -/
lemma braces_le_rows : token (· == .lBrace) * (entry∗ * token (· == .rBrace)) ≤ rows entry :=
  token_mul_rows_le kstar_mul_token_le_rows

lemma braces_le_commaless : token (· == .lBrace) * (entry∗ * token (· == .rBrace)) ≤ commaless :=
  commaless_mul_le (token_le_commaless rfl)
    (commaless_mul_le (kstar_le_commaless (node_le_commaless _)) (token_le_commaless rfl))

/-- Arguments of a type in angle brackets, or none. -/
lemma arguments_le_plain (hp : p .comma = false) :
    token p * (M * token (· == .gt) + 1) ≤ plain := by
  rw [mul_add, mul_one, ← mul_assoc]
  exact add_le (mul_token_le_plain rfl) ((token_le_commaless hp).trans commaless_le_plain)

lemma adds_baseType : baseType.Adds layout full true P typing := by
  refine .branch ?list <| .branch ?generic <| .branch ?map <| .branch ?record <|
    .branch ?ref (adds_report_append _ _)
  case list =>
    exact adds_bare (by decide) (((adds_bump_of_starts fun _ h => h.2).seq adds_type).seq
      (adds_expect _)) le_top (mul_token_le_plain rfl) rfl
  case generic =>
    exact adds_bare (by decide) ((adds_bump_of_starts fun _ h => h.2).seq
      (.branch ((((adds_bump_of_starts fun _ h => h.2).seq adds_type).seq
        (adds_expect _)).weaken.le le_self_add) (adds_done.le le_add_self))) le_rfl
      (arguments_le_plain rfl) rfl
  case map =>
    exact adds_bare (by decide) ((adds_bump_of_starts fun _ h => h.2).seq
      (.branch ((((((adds_bump_of_starts fun _ h => h.2).seq adds_type).seq adds_eat).seq
        adds_type).seq (adds_expect _)).weaken.le le_self_add) (adds_done.le le_add_self)))
      le_rfl (arguments_le_plain rfl) rfl
  case record =>
    exact adds_bare (by decide) (adds_recordFields fun _ h => h.2) braces_le_rows
      (braces_le_commaless.trans commaless_le_plain) rfl
  case ref =>
    exact adds_bare (by decide) (adds_bump fun _ h => h.2) le_top
      ((token_le_commaless rfl).trans commaless_le_plain) rfl

lemma turns_arraySuffixes : arraySuffixes.Turns layout full false P typing typing :=
  .branch (Rule.Turns.weaken (turns_nest (fun _ hl _ hps => And.intro hl.2 hps) (fun _ _ _ h => h)
    fun _ _ => turns_done)) turns_done

lemma adds_typeRule : typeRule.Adds layout full true P typing :=
  adds_mark (adds_baseType.turns.seq turns_arraySuffixes)

lemma turns_arrayRule : arrayRule.Turns layout full true
    (fun l => (l.starts .lBracket && l.continues .rBracket) = true) typing typing := by
  have hbrackets : (.bump ++ .bump : Rule).Adds layout full true
      (fun l => (l.starts .lBracket && l.continues .rBracket) = true)
      (token (· == .lBracket) * token (· == .rBracket)) :=
    adds_bump_append (fun l h => startsWith_of_starts (Bool.and_eq_true_iff.1 h).1)
      (fun l m h hm => startsWith_of_continues (Bool.and_eq_true_iff.1 h).2 hm)
      (adds_bump fun _ h => h)
  refine Rule.Turns.seq (turns_bare (by decide) (hbrackets _) le_top ?_ rfl) turns_arraySuffixes
  rw [← mul_assoc]
  exact mul_token_le_plain rfl

/-- A type, or a union of several. -/
lemma adds_typeOrUnion : typeOrUnion.Adds layout full true P ⊤ := by
  have hbar : ∀ l : Lookahead, (!l.starts .pipe) = false → l.starts .pipe = true :=
    fun l hl => by simpa using hl
  have hunion : (wrap .unionType (loop (fun l => !l.starts .pipe) (.bump ++ type))).Turns
      layout full false (fun l => True ∧ l.starts .pipe = true) typing ⊤ :=
    turns_any (by decide) ((turns_loop (c := layout) (M := ⊤)
      (Rule.Turns.le ((adds_bump_of_starts hbar).seq adds_type ⊤) le_top)
        fun hfaulty => hfaulty.elim).mono (fun _ => id) le_top le_rfl) le_rfl
  exact adds_mark (adds_type.turns.seq (.branch hunion (turns_done.le le_top)))

/-! ### Expressions -/

lemma value_le_commaless : value ≤ commaless := grouped_le_commaless _

lemma adds_expression : expression.Adds layout full true P value :=
  adds_nest (s := false) (fun _ _ _ => trivial) (fun _ _ h => h) fun _ hfaulty => hfaulty.elim

/-- An expression and a comma if there is one. -/
lemma adds_listItem : (expression ++ eat .comma : Rule).Adds layout full true P
    (value * commaIfAny) :=
  adds_expression.seq adds_eat

lemma adds_list {start close : TokenKind} (message : String)
    (hP : ∀ l, P l → l.starts start = true) :
    (.bump ++ expressionsThrough close message : Rule).Adds layout full true P
      (token (· == start) * ((value * commaIfAny)∗ * token (· == close))) :=
  (adds_bump_of_starts hP).seq (adds_itemsThrough _ adds_listItem)

/-- The value behind a key. -/
lemma adds_valueAfterKey :
    valueAfterKey.Adds layout full true P (token (· == .colon) * value * commaIfAny) :=
  ((adds_expect _).seq adds_expression).seq adds_eat

/-- A key, a value and a comma if there is one. -/
lemma keyed_le (hL : L ≤ commaless) :
    L * (token (· == .colon) * value * commaIfAny) ≤ plain * commaIfAny := by
  rw [← mul_assoc]
  refine mul_le_mul_left ((commaless_mul_le hL ?_).trans commaless_le_plain) _
  exact commaless_mul_le (token_le_commaless rfl) value_le_commaless

lemma adds_recordInit : recordInit.Adds layout full true P entry := by
  refine .branch ?spread ?named
  case spread =>
    exact adds_entry rfl (((adds_bump_of_starts fun _ h => h.2).seq adds_nameIfAny).seq adds_eat)
      le_rfl
  case named =>
    exact adds_entry rfl (adds_nameThen _ _ adds_valueAfterKey) (keyed_le (token_le_commaless rfl))

lemma adds_recordInits (hP : ∀ l, P l → l.starts .lBrace = true) :
    recordInits.Adds layout full true P
      (token (· == .lBrace) * (entry∗ * token (· == .rBrace))) :=
  (adds_bump_of_starts hP).seq (adds_itemsThrough _ adds_recordInit)

/-- The unit, or an expression in parentheses. -/
lemma adds_parenthesis (hP : ∀ l, P l → l.starts .lParen = true) :
    parenthesis.Adds layout full true P value := by
  refine .branch ?unit ?group
  case unit =>
    refine Rule.Adds.le (adds_bare (by decide) (adds_bump_append
      (fun l h => startsWith_of_starts (hP l h.1)) (fun l m h hm => startsWith_of_continues h.2 hm)
      (adds_bump fun _ h => h)) le_top (mul_token_le_plain rfl) rfl) node_le_grouped
  case group =>
    exact (((adds_bump_of_starts fun l h => hP l h.1).seq adds_expression).seq (adds_expect _)).le
      group_le_grouped

/-- A case with its entries if it has any. -/
lemma adds_variant
    (hP : ∀ l, P l → (l.startsWith TokenKind.isName && l.continues .colonColon) = true) :
    variant.Adds layout full true P (node (bare isExpression)) := by
  have hinits : (Rule.branch (·.starts .lBrace) recordInits .done).Adds layout full false
      (fun _ => True) (token (· == .lBrace) * (entry∗ * token (· == .rBrace)) + 1) :=
    .branch ((adds_recordInits fun _ h => h.2).weaken.le le_self_add) (adds_done.le le_add_self)
  have htwo : (.bump ++ .bump : Rule).Adds layout full true P
      (token TokenKind.isName * token (· == .colonColon)) :=
    adds_bump_append (fun l h => (startsWith_and_continues (hP l h)).1)
      (fun l m h hm => startsWith_of_continues (startsWith_and_continues (hP l h)).2 hm)
      (adds_bump fun _ h => h)
  refine adds_bare (by decide) (htwo.seq (adds_nameThen _ _ hinits)) ?_ ?_ rfl
  · rw [mul_assoc]
    exact token_mul_rows_le (token_mul_rows_le (token_mul_rows_le
      (add_le braces_le_rows unit_le_rows)))
  · have hcase := commaless_mul_le (token_le_commaless (p := TokenKind.isName) rfl)
      (add_le braces_le_commaless unit_le_commaless)
    exact (commaless_mul_le (commaless_mul_le (token_le_commaless rfl) (token_le_commaless rfl))
      hcase).trans commaless_le_plain

/-- A name before its arguments. -/
lemma adds_call (hP : ∀ l, P l →
      (l.startsWith (fun k => k.isName || k == .ada) && l.continues .lParen) = true) :
    call.Adds layout full true P (node (bare isExpression)) := by
  have hargs : (Rule.node .argList (.bump ++ expressionsThrough .rParen "Expected ')'")).Adds
      layout full true (fun l => l.starts .lParen = true) (node fun _ => True) :=
    adds_any (by decide) (adds_list _ fun _ h => h) (token_mul_rows_le kstar_mul_token_le_rows)
  exact adds_bare (by decide) (adds_bump_append
    (fun l h => (startsWith_and_continues (hP l h)).1)
    (fun l m h hm => by
      rw [Lookahead.starts, hm]
      exact (startsWith_and_continues (hP l h)).2) hargs) le_top
    ((commaless_mul_le (token_le_commaless rfl) (node_le_commaless _)).trans commaless_le_plain) rfl

lemma adds_mapEntry : mapEntry.Adds layout full true P ⊤ :=
  (((adds_expression.seq (adds_expect _)).seq adds_expression).seq adds_eat).le le_top

lemma adds_operand : operand.Adds layout full true P value := by
  refine .branch (adds_report _) <| .branch ?spread <| .branch ?parens <| .branch ?list <|
    .branch ?map <| .branch ?variant <| .branch ?record <| .branch ?call <| .branch ?reference <|
    .branch ?constant <| .branch (adds_report _) (adds_report_append _ _)
  case spread =>
    refine Rule.Adds.le (adds_bare (by decide) (((adds_bump_of_starts fun _ h => h.2).seq
      adds_nameIfAny).seq adds_done) (mul_le_mul_right le_add_self _) ?_ rfl) node_le_grouped
    have hname := add_le (token_le_commaless (p := TokenKind.isName) rfl) unit_le_commaless
    exact (commaless_mul_le (commaless_mul_le (token_le_commaless rfl) hname)
      unit_le_commaless).trans commaless_le_plain
  case parens => exact adds_parenthesis fun _ h => h.2
  case list =>
    exact (adds_bare (by decide) (adds_list _ fun _ h => h.2)
      (token_mul_rows_le kstar_mul_token_le_rows) (enclosed_le_plain rfl) rfl).le node_le_grouped
  case map =>
    exact (adds_bare (by decide) ((adds_bump_of_starts fun _ h => h.2).seq
      (adds_itemsThrough _ adds_mapEntry)) le_top (enclosed_le_plain rfl) rfl).le node_le_grouped
  case variant => exact (adds_variant fun _ h => h.2).le node_le_grouped
  case record =>
    refine Rule.Adds.le (adds_bare (by decide) (adds_bump_append
      (fun _ h => (startsWith_and_continues h.2).1) (fun l m h hm => ?_)
      (adds_recordInits fun _ h => h)) (token_mul_rows_le braces_le_rows) ?_ rfl) node_le_grouped
    · rw [Lookahead.starts, hm]
      exact (startsWith_and_continues h.2).2
    · exact (commaless_mul_le (token_le_commaless rfl) braces_le_commaless).trans commaless_le_plain
  case call => exact (adds_call fun _ h => h.2).le node_le_grouped
  case reference =>
    exact (adds_bare (by decide) (adds_bump fun _ h => h.2) le_top
      ((token_le_commaless rfl).trans commaless_le_plain) rfl).le node_le_grouped
  case constant =>
    exact (adds_bare (by decide) (adds_bump fun _ h => h.2) le_top
      ((token_le_commaless rfl).trans commaless_le_plain) rfl).le node_le_grouped

lemma turns_suffixes : suffixes.Turns layout full false P value value :=
  .branch (Rule.Turns.weaken (turns_nest (fun _ hl _ hps => And.intro hl.2 hps) (fun _ _ _ h => h)
    fun _ _ => turns_done)) turns_done

lemma adds_postfixed : postfixed.Adds layout full true P value :=
  adds_mark (adds_operand.turns.seq turns_suffixes)

/-- A suffix makes one expression of the operand before it. -/
lemma turns_suffixRule : suffixRule.Turns layout full true
    (fun l => l.startsWith opensSuffix = true) value value := by
  refine Rule.Turns.seq (s := true) (.branch ?field ?index) turns_suffixes
  case field =>
    refine (turns_bare (by decide) ((adds_bump_of_starts fun _ h => h.2).seq
      (adds_nameThen _ _ adds_done) value) le_top ?_ rfl).le node_le_grouped
    exact (commaless_mul_le value_le_commaless (commaless_mul_le (token_le_commaless rfl)
      (commaless_mul_le (token_le_commaless rfl) unit_le_commaless))).trans commaless_le_plain
  case index =>
    refine (turns_bare (by decide) (((adds_bump fun _ h => h.1).seq adds_expression).seq
      (adds_expect _) value) le_top ?_ rfl).le node_le_grouped
    rw [← mul_assoc]
    exact mul_token_le_plain rfl

/-- An operand with the signs before it. -/
lemma adds_unary : unary.Adds layout full true P value :=
  .branch (adds_nest (fun _ hl _ => hl.2) (fun _ _ h => h) fun _ _ => adds_postfixed) adds_postfixed

lemma adds_signedRule :
    signedRule.Adds layout full true (fun l => l.startsWith isSign = true) value :=
  (adds_bare (by decide) ((adds_bump fun _ h => h).seq adds_unary) le_top
    ((commaless_mul_le (token_le_commaless rfl) value_le_commaless).trans commaless_le_plain)
    rfl).le node_le_grouped

/-- A layer of binary operators adds one expression if the next layer does. -/
lemma adds_layer {isOperator : TokenKind → Bool} (hcomma : isOperator .comma = false)
    (h : ∀ P, next.Adds layout full true P value) :
    (layer isOperator next).Adds layout full true P value := by
  have hstop : ∀ l : Lookahead, (!l.startsWith isOperator) = false →
      l.startsWith isOperator = true := fun l hl => by simpa using hl
  -- One more operand behind an operator.
  have hmore : commaless * (token isOperator * value) ≤ commaless :=
    commaless_mul_le le_rfl (commaless_mul_le (token_le_commaless hcomma) value_le_commaless)
  have hbinary : (wrap .binaryExpr (loop (fun l => !l.startsWith isOperator) (.bump ++ next))).Turns
      layout full false (fun _ => True) value (node (bare isExpression)) :=
    turns_bare (by decide) ((turns_loop
      (Rule.Turns.le ((adds_bump hstop).seq (h _) commaless) hmore)
        fun hfaulty => hfaulty.elim).mono (fun _ => id) value_le_commaless le_rfl)
      le_top commaless_le_plain rfl
  exact adds_mark ((h P).turns.seq (.branch (hbinary.le node_le_grouped).of_true turns_done))

lemma adds_binary : binary.Adds layout full true P value :=
  adds_layer rfl fun _ => adds_layer rfl fun _ => adds_layer rfl fun _ => adds_layer rfl fun _ =>
    adds_unary

lemma adds_conditional : conditional.Adds layout full true P value := by
  have hternary : (wrap .ternaryExpr
      (.bump ++ expression ++ expect .colon "Expected ':'" ++ expression)).Turns layout full true
      (fun l => True ∧ l.starts .question = true) value (node (bare isExpression)) := by
    refine turns_bare (by decide) ((((adds_bump_of_starts fun _ h => h.2).seq adds_expression).seq
      (adds_expect _)).seq adds_expression value) le_top ?_ rfl
    refine (commaless_mul_le value_le_commaless (commaless_mul_le (commaless_mul_le
      (commaless_mul_le ?_ value_le_commaless) ?_) value_le_commaless)).trans commaless_le_plain
    all_goals exact token_le_commaless rfl
  exact adds_mark (adds_binary.turns.seq (.branch (hternary.le node_le_grouped).weaken turns_done))

/-! ### Blocks -/

lemma adds_blockField : blockField.Adds layout full true P entry :=
  .branch (adds_entry rfl ((adds_bump fun _ h => h.2).seq adds_valueAfterKey)
    (keyed_le (token_le_commaless rfl))) (adds_report_append _ _)

lemma adds_fieldBlock : fieldBlock.Adds layout full true P (rows entry) :=
  adds_braced adds_blockField

lemma adds_localBinding : localBinding.Adds layout full true P entry :=
  adds_entry rfl (adds_nameThen _ _ adds_valueAfterKey) (keyed_le (token_le_commaless rfl))

lemma adds_metadataField : metadataField.Adds layout full true P entry := by
  refine adds_entry rfl (L := token (fun k => k == .intLiteral || k == .stringLiteral) *
    (token (· == .colon) * value * commaIfAny)) (.branch ?keyed (.branch ?wrong (.branch ?missing
      (adds_report _)))) (keyed_le (token_le_commaless rfl))
  case keyed => exact (adds_bump fun _ h => h.2).seq adds_valueAfterKey
  case wrong => exact Rule.Adds.seq (s := true) (adds_report_append _ _) adds_valueAfterKey
  case missing => exact adds_report_append _ _

/-- A block: words and names, and items in braces. -/
lemma adds_block (hk : k ≠ .error) (h : r.Adds layout full true P marks)
    (h' : rest.Adds layout full s (fun _ => True) (rows L)) (hform : form k = rows L) :
    (Rule.node k (r ++ rest)).Adds layout full true P ⊤ :=
  (adds_any hk (h.seq h') (marks_mul_rows_le.trans hform.ge)).le le_top

/-- The word that opens a construct. -/
lemma adds_word (hP : ∀ l, P l → l.starts kind = true) : bump.Adds layout full true P marks :=
  adds_mark_of_starts rfl hP

lemma adds_wordAndName (hP : ∀ l, P l → l.starts kind = true) :
    (.bump ++ nameIfAny : Rule).Adds layout full true P marks :=
  (adds_word hP).seq_marks (adds_nameIfAny_words fun _ _ => rfl)

lemma adds_inputBlock (hP : ∀ l, P l → l.starts kind = true) :
    inputBlock.Adds layout full true P ⊤ :=
  adds_block (by decide) (((adds_word hP).seq_marks (adds_eaten rfl)).seq_marks
    (adds_nameIfAny_words fun _ _ => rfl)) adds_fieldBlock rfl

lemma adds_cardanoBlock (hP : ∀ l, P l → l.starts kind = true) :
    cardanoBlock.Adds layout full true P ⊤ :=
  adds_block (by decide) (adds_word hP) ((adds_expectThen _ _ (adds_nameThen _ _
    adds_fieldBlock)).le (token_mul_rows_le (token_mul_rows_le le_rfl))) rfl

lemma plain_le : plain ≤ plain * commaIfAny :=
  (mul_one _).symm.le.trans (mul_le_mul_right le_add_self _)

lemma adds_letBinding (hP : ∀ l, P l → l.starts kind = true) :
    letBinding.Adds layout full true P ⊤ := by
  refine (adds_entry rfl ((adds_bump_of_starts hP).seq (adds_nameThen _ _
    (((adds_expect _).seq adds_expression).seq (adds_expect _)))) ?_).le le_top
  rw [← mul_assoc, ← mul_assoc]
  exact (mul_token_le_plain rfl).trans plain_le

/-- A block or a binding of a body. -/
lemma adds_bodyItem : bodyItem.Adds layout full true P ⊤ := by
  refine .branch ?input <| .branch ?output <| .branch ?burn <| .branch ?mint <|
    .branch ?reference <| .branch ?collateral <| .branch ?validity <| .branch ?locals <|
    .branch ?signers <| .branch ?metadata <| .branch ?cardano <| .branch ?binding
      (adds_report_append _ _)
  case input => exact adds_inputBlock fun _ h => h.2
  case output => exact adds_block (by decide) (adds_wordAndName fun _ h => h.2) adds_fieldBlock rfl
  case burn => exact adds_block (by decide) (adds_wordAndName fun _ h => h.2) adds_fieldBlock rfl
  case mint => exact adds_block (by decide) (adds_wordAndName fun _ h => h.2) adds_fieldBlock rfl
  case reference =>
    exact adds_block (by decide) (adds_wordAndName fun _ h => h.2) adds_fieldBlock rfl
  case collateral => exact adds_block (by decide) (adds_word fun _ h => h.2) adds_fieldBlock rfl
  case validity => exact adds_block (by decide) (adds_word fun _ h => h.2) adds_fieldBlock rfl
  case locals =>
    exact adds_block (by decide) (adds_word fun _ h => h.2) (adds_braced adds_localBinding) rfl
  case signers =>
    exact adds_block (by decide) (adds_word fun _ h => h.2) (adds_braced adds_listItem) rfl
  case metadata =>
    exact adds_block (by decide) (adds_word fun _ h => h.2) (adds_braced adds_metadataField) rfl
  case cardano => exact adds_cardanoBlock fun _ h => h.2
  case binding => exact adds_letBinding fun _ h => h.2

/-! ### Declarations -/

/-- A declaration of which nothing is demanded. -/
lemma adds_declared (hk : k ≠ .error) (hform : form k = ⊤) (hP : ∀ l, P l → l.starts kind = true)
    (h : r.Adds layout full s (fun _ => True) L) :
    (Rule.node k (.bump ++ r)).Adds layout full true P ⊤ :=
  (adds_any hk ((adds_bump_of_starts hP).seq h) (le_top.trans hform.ge)).le le_top

lemma adds_partyDecl (hP : ∀ l, P l → l.starts .partyKw = true) :
    partyDecl.Adds layout full true P ⊤ :=
  adds_declared (by decide) rfl hP (adds_nameThen _ _ (adds_expect _))

lemma adds_assetDecl (hP : ∀ l, P l → l.starts .assetKw = true) :
    assetDecl.Adds layout full true P ⊤ :=
  adds_declared (by decide) rfl hP (adds_nameThen _ _ (adds_expectThen _ _
    (Rule.Adds.seq (.branch (adds_bump fun _ h => h.2) (adds_report _)) (adds_expect _))))

/-- The path of an import takes in what stands there. -/
lemma adds_importCall (hP : ∀ l, P l → l.starts .importKw = true) :
    importCall.Adds layout full true P ⊤ := by
  have hnext : ∀ l : Lookahead, (l.endsList .rParen || l.starts .semicolon) = false →
      l.startsWith (fun _ => true) = true := by
    intro l hl
    obtain ⟨kind, hkind⟩ := Option.ne_none_iff_exists'.1
      (first_ne_none_of_not_endsList (Bool.or_eq_false_iff.1 hl).1)
    rw [Lookahead.startsWith, hkind]
    rfl
  have hpath : (Rule.node .pathExpr (.loop (fun l => l.endsList .rParen || l.starts .semicolon)
      .bump)).Adds layout full false (fun _ => True) (node fun _ => True) :=
    adds_any (by decide) (adds_loop (adds_bump hnext) one_le_kstar kstar_mul_le_kstar
      fun hfaulty => hfaulty.elim) le_top
  exact adds_declared (by decide) rfl hP (adds_expectThen _ _ (hpath.seq (adds_expect _)))

lemma adds_policyDecl (hP : ∀ l, P l → l.starts .policyKw = true) :
    policyDecl.Adds layout full true P ⊤ := by
  have hvalue : (Rule.branch (·.starts .importKw) importCall
      (.branch (·.starts .hexLiteral) .bump
        (.report "Expected 'import(path)' or hex literal for policy value"))).Adds layout full true
      (fun _ => True) ⊤ :=
    .branch (adds_importCall fun _ h => h.2)
      (.branch ((adds_bump_of_starts fun _ h => h.2).le le_top) (adds_report _))
  have hassigned : (.bump ++ .branch (·.starts .importKw) importCall
      (.branch (·.starts .hexLiteral) .bump
        (.report "Expected 'import(path)' or hex literal for policy value")) ++
      semicolon : Rule).Adds layout full true (fun l => True ∧ l.starts .eq = true) ⊤ :=
    (((adds_bump_of_starts fun _ h => h.2).seq hvalue).seq (adds_expect _)).le le_top
  exact adds_declared (by decide) rfl hP (adds_nameThen _ _ (.branch hassigned
    (.branch (adds_fieldBlock.le le_top) (adds_report _))))

/-! #### Types and records -/

lemma adds_caseTypes (hP : ∀ l, P l → l.starts .lParen = true) :
    caseTypes.Adds layout full true P (node fun _ => True) :=
  adds_any (by decide) ((adds_bump_of_starts hP).seq (adds_itemsThrough _
    (adds_type.seq adds_eat))) (token_mul_rows_le kstar_mul_token_le_rows)

/-- The fields or the types of a case, or nothing. -/
def payload : Language Element :=
  token (· == .lBrace) * (entry∗ * token (· == .rBrace)) + (node (fun _ => True) + 1)

lemma payload_le_commaless : payload ≤ commaless :=
  add_le braces_le_commaless (add_le (node_le_commaless _) unit_le_commaless)

/-- A name, what the case carries, and a comma if there is one. -/
lemma case_le_form : token TokenKind.isName * (payload * commaIfAny) ≤ form .variantCase := by
  refine le_inf ?_ ?_
  · rw [← mul_assoc]
    exact mul_le_mul_left ((commaless_mul_le (token_le_commaless rfl)
      payload_le_commaless).trans commaless_le_plain) _
  · rw [payload, add_mul, add_mul, one_mul, mul_add, mul_add]
    refine add_le ?fields (add_le ?types ?nothing)
    case fields =>
      have hrows : token (· == .lBrace) * (entry∗ * token (· == .rBrace)) * commaIfAny ≤
          rows entry := (mul_le_mul' braces_le_rows commaIfAny_le_marks).trans rows_mul_marks_le
      exact (token_mul_rows_le hrows).trans le_self_add
    case types =>
      rw [← mul_assoc]
      exact (mul_le_mul' (mul_le_mul_left (token_le_marks _) _) commaIfAny_le_marks).trans
        le_add_self
    case nothing =>
      exact (token_mul_rows_le (commaIfAny_le_marks.trans marks_le_rows)).trans le_self_add

lemma adds_variantCase : variantCase.Adds layout full true P entry := by
  have hpayload : (Rule.branch (·.starts .lBrace) recordFields (.branch (·.starts .lParen) caseTypes
      .done)).Adds layout full false (fun _ => True) payload :=
    .branch ((adds_recordFields fun _ h => h.2).weaken.le le_self_add)
      (.branch ((adds_caseTypes fun _ h => h.2).weaken.le (le_self_add.trans le_add_self))
        (adds_done.le (le_add_self.trans le_add_self)))
  exact adds_entry rfl (adds_nameThen _ _ (hpayload.seq adds_eat)) case_le_form

/-- A declaration whose kind is settled behind its name. -/
lemma adds_mark_nameThen {message : String} (hP : ∀ l, P l → l.startsWith p = true)
    (h : yes.Turns layout full s (fun _ => True) (token p * token TokenKind.isName) L) :
    (Rule.mark (.bump ++ nameThen message yes no)).Adds layout full true P L := by
  have hno : layout.faulty → no.Turns layout full false (fun _ => True) (token p) L :=
    fun hfaulty => hfaulty.elim
  exact adds_mark ((adds_bump hP).turns.seq (turns_nameThen message h hno))

lemma adds_recordDecl (hP : ∀ l, P l → l.starts .recordKw = true) :
    recordDecl.Adds layout full true P ⊤ := by
  refine adds_mark_nameThen (fun l h => startsWith_of_starts (hP l h))
    (turns_any (by decide) (adds_braced adds_recordField _) ?_)
  rw [mul_assoc]
  exact token_mul_rows_le (token_mul_rows_le le_rfl)

/-- The cases or the fields of a type. -/
lemma adds_members : (Rule.branch startsCase (.loop (·.endsList .rBrace) variantCase)
      (.loop (·.endsList .rBrace) recordField)).Adds layout full false P entry∗ :=
  .branch (adds_loop adds_variantCase one_le_kstar kstar_mul_le_kstar fun hfaulty => hfaulty.elim)
    (adds_loop adds_recordField one_le_kstar kstar_mul_le_kstar fun hfaulty => hfaulty.elim)

lemma adds_typeDecl (hP : ∀ l, P l → l.starts .typeKw = true) :
    typeDecl.Adds layout full true P ⊤ := by
  refine adds_mark_nameThen (s := true) (fun l h => startsWith_of_starts (hP l h))
    (.branch ?synonym ?members)
  case synonym =>
    exact turns_any (by decide) ((((adds_bump_of_starts fun _ h => h.2).seq adds_typeOrUnion).seq
      (adds_expect _)) _) le_top
  case members =>
    refine turns_any (by decide) (adds_expectThen _ _ (adds_members.seq (adds_expect _)) _) ?_
    rw [mul_assoc]
    exact token_mul_rows_le (token_mul_rows_le braces_le_rows)

lemma adds_envDecl (hP : ∀ l, P l → l.starts .envKw = true) :
    envDecl.Adds layout full true P ⊤ :=
  adds_block (by decide) (adds_word hP) (.branch ((adds_recordFields fun _ h => h.2).le
    braces_le_rows) (adds_report _)) rfl

/-! #### Transactions and files -/

lemma adds_txParam : txParam.Adds layout full true P (node (bare (· == .txParam))) :=
  adds_bare (by decide) (adds_nameThen _ _ adds_typeAfterName) le_top
    (named_type_le_commaless.trans commaless_le_plain) rfl

lemma adds_paramList : paramList.Adds layout full true P (node fun _ => True) :=
  adds_any (by decide) (adds_expectThen _ _ ((adds_loop (adds_txParam.seq adds_eat) one_le_kstar
    kstar_mul_le_kstar fun hfaulty => hfaulty.elim).seq (adds_expect _)))
    (token_mul_rows_le kstar_mul_token_le_rows)

lemma adds_txDecl (hP : ∀ l, P l → l.starts .txKw = true) : txDecl.Adds layout full true P ⊤ :=
  adds_declared (by decide) rfl hP (adds_nameThen _ _ (adds_paramList.seq
    (adds_braced adds_bodyItem)))

lemma adds_declaration : declaration.Adds layout full true P ⊤ :=
  .branch (adds_partyDecl fun _ h => h.2) <| .branch (adds_policyDecl fun _ h => h.2) <|
    .branch (adds_recordDecl fun _ h => h.2) <| .branch (adds_typeDecl fun _ h => h.2) <|
    .branch (adds_txDecl fun _ h => h.2) <| .branch (adds_envDecl fun _ h => h.2) <|
    .branch (adds_assetDecl fun _ h => h.2) (adds_report_append _ _)

/-- **A file** is made of nodes of which each has its form. -/
lemma adds_file : file.Adds layout full false P ⊤ :=
  (adds_loop adds_declaration one_le_kstar kstar_mul_le_kstar fun hfaulty => hfaulty.elim).le le_top

end Rules

/-- **The rules of the nesting levels keep the contract.** -/
theorem kept_layout : layout.Kept where
  law_error hfaulty := hfaulty.elim
  levels := by
    intro level next ps hentry
    have hsettled : (false || true) = true := rfl
    cases level with
    | expression =>
      exact (adds_conditional.assures (P := fun _ => True) trivial).mono fun w hw =>
        ⟨hw.1 hsettled, hw.2⟩
    | signed =>
      exact (adds_signedRule.assures (v := ⟨next, ps, false, false, false⟩) hentry).mono fun w hw =>
        ⟨hw.1 hsettled, hw.2⟩
    | suffixed =>
      exact (turns_suffixRule _ hentry.1 hentry.2).mono fun w hw => ⟨hw.settled hsettled, hw.parts⟩
    | type =>
      exact (adds_typeRule.assures (P := fun _ => True) trivial).mono fun w hw =>
        ⟨hw.1 hsettled, hw.2⟩
    | array =>
      exact (turns_arrayRule _ hentry.1 hentry.2).mono fun w hw => ⟨hw.settled hsettled, hw.parts⟩

end Layout

/-- **In the tree of a clean text** the parts of each node form a word of its kind. -/
theorem parts_mem_form {text : String} (hclean : (parse text).diagnostics = []) :
    ∀ n ∈ (parse text).root.descendants, n.parts ∈ form n.kind := by
  intro n hn
  rcases Node.mem_descendants_iff.1 hn with rfl | hn
  · have hfile : (parse text).root.kind = .file := kind_parseTokens _
    rw [hfile]
    exact trivial
  · exact ((lawful_parseTokens Layout.kept_layout Layout.adds_file _ (.inr hclean)).2 n hn).1

end TxTree.Grammar
