import TxTree.Proofs.Constituents

set_option relaxedAutoImplicit false
set_option autoImplicit false

/-!
# Expressions keep to the schema

What an expression is made of, from its operand to the conditional. In the nodes that hold operators
or entries the numbers of nodes and of certain tokens go together if no error was found: each
operator brings one more operand, and each colon of a map two nodes.

## Main definitions

* `TxTree.Grammar.tallied` — words in which the numbers of nodes and of certain tokens go together.

## Main results

* `TxTree.Grammar.adds_operand`, `TxTree.Grammar.adds_layer`, `TxTree.Grammar.adds_conditional` —
  what the layers of expressions add.
* `TxTree.Grammar.kept_soundness` — the rules of the nesting levels keep their contract.
-/

namespace TxTree.Grammar

open Rule NodeKind Node

section Rules

variable {faulty full : Prop} {s : Bool} {P : Lookahead → Prop} {r rest next : Rule}
  {kind : TokenKind} {p p' mark : TokenKind → Bool} {N N' : Language Node}
  {R S T : Nat → Nat → Prop}

/-! ## Counting -/

/-- How many tokens of a kind are in a word. -/
def tally (mark : TokenKind → Bool) (ps : List Element) : Nat :=
  ((ps.filterMap Element.token?).filter (mark ·.kind)).length

/-- **Words of expressions** whose numbers of nodes and of certain tokens go together if no error
was found. -/
def tallied (faulty : Prop) (p mark : TokenKind → Bool) (R : Nat → Nat → Prop) : Language Element :=
  {ps | ps ∈ words p (every (ofKind (orError isExpression))) ∧
    (¬ faulty → R (ps.filterMap Element.node?).length (tally mark ps))}

lemma tally_append (mark : TokenKind → Bool) (ps qs : List Element) :
    tally mark (ps ++ qs) = tally mark ps + tally mark qs := by
  rw [tally, List.filterMap_append, List.filter_append, List.length_append]
  rfl

lemma tally_eq_zero {ps : List Element} (h : ps ∈ words p N)
    (hmark : ∀ k, p k = true → mark k = false) : tally mark ps = 0 := by
  rw [tally, List.length_eq_zero_iff, List.filter_eq_nil_iff]
  intro t ht
  rw [hmark _ (h.1 t (Element.mem_tokens_iff.1 ht))]
  exact Bool.false_ne_true

lemma tallied_mul_le (hR : ∀ a b a' b', R a b → S a' b' → T (a + a') (b + b')) :
    tallied faulty p mark R * tallied faulty p mark S ≤ tallied faulty p mark T := by
  rintro _ ⟨ps, ⟨hps, hps'⟩, qs, ⟨hqs, hqs'⟩, rfl⟩
  refine ⟨words_le (every_mul_le _) (words_mul_le _ _ _ (Language.append_mem_mul hps hqs)),
    fun hclean => ?_⟩
  change T ((ps ++ qs).filterMap Element.node?).length (tally mark (ps ++ qs))
  rw [tally_append, List.filterMap_append, List.length_append]
  exact hR _ _ _ _ (hps' hclean) (hqs' hclean)

lemma unit_le_tallied (hR : R 0 0) : 1 ≤ tallied faulty p mark R := by
  rintro _ rfl
  exact ⟨unit_le_words _ (unit_le_every _) rfl, fun _ => hR⟩

/-- Behind an error the numbers do not matter. -/
lemma tallied_mul_error_le (h : faulty) :
    tallied faulty p mark R * node (·.kind = .error) ≤ tallied faulty p mark S := by
  rintro _ ⟨ps, ⟨hps, -⟩, _, ⟨n, hn, rfl⟩, rfl⟩
  refine ⟨words_le (every_mul_le _) (words_mul_le _ _ _ (Language.append_mem_mul hps ?_)), absurd h⟩
  exact (node_le_words _ _).trans (words_le (one_le_every ofKind_orError_of_error)) ⟨n, hn, rfl⟩

/-- The numbers of nodes and tokens directly below a node. -/
lemma tally_parts (mark : TokenKind → Bool) (n : Node) :
    tally mark n.parts = (n.tokensOf mark).length := by
  rw [tally, tokensOf, significantTokens_eq]

lemma valued_eq (h : ¬ faulty) : valued faulty = one (ofKind isExpression) := by
  rw [valued, amiss_eq_zero h, add_zero]

lemma valued_le (faulty : Prop) : valued faulty ≤ atMost 1 (ofKind (orError isExpression)) := by
  refine add_le (one_le_atMost ofKind_orError) ((amiss_le _ _).trans fun ns hns => ?_)
  exact ⟨hns.1, fun n hn => ofKind_orError_of_error n (eq_of_beq (hns.2 n hn))⟩

lemma missing_value_le (faulty : Prop) :
    valued faulty + amiss faulty 1 ≤ atMost 1 (ofKind (orError isExpression)) :=
  add_le (valued_le faulty) ((amiss_le _ _).trans (unit_le_atMost 1 _))

lemma valued_le_every (faulty : Prop) : valued faulty ≤ every (ofKind (orError isExpression)) :=
  (valued_le faulty).trans (atMost_le_every fun _ => id)

/-- An expression brings one node. -/
lemma operands_le_tallied (hp : ∀ k, isParen k = true → p k = true)
    (hmark : ∀ k, isParen k = true → mark k = false) :
    operands faulty ≤ tallied faulty p mark fun a b => a = 1 ∧ b = 0 := by
  intro ps hps
  refine ⟨words_mono hp (valued_le_every faulty) hps, fun hclean => ⟨?_, tally_eq_zero hps hmark⟩⟩
  have hnodes := hps.2
  rw [valued_eq hclean] at hnodes
  obtain ⟨n, -, hn⟩ := hnodes
  rw [hn]
  rfl

lemma token_le_tallied_of_mark (hp : ∀ k, p' k = true → p k = true)
    (hmark : ∀ k, p' k = true → mark k = true) :
    token p' ≤ tallied faulty p mark fun a b => a = 0 ∧ b = 1 := by
  rintro _ ⟨t, ht, rfl⟩
  refine ⟨words_le (unit_le_every _) (token_le_words hp ⟨t, ht, rfl⟩), fun _ => ⟨rfl, ?_⟩⟩
  simp [tally, Element.token?, hmark _ ht]

lemma words_unit_le_tallied (hp : ∀ k, p' k = true → p k = true)
    (hmark : ∀ k, p' k = true → mark k = false) :
    words p' 1 ≤ tallied faulty p mark fun a b => a = 0 ∧ b = 0 := by
  intro ps hps
  refine ⟨words_mono hp (unit_le_every _) hps, fun _ => ⟨?_, tally_eq_zero hps hmark⟩⟩
  rw [hps.2]
  rfl

/-! ## Values -/

lemma isKnown_of_isParen : ∀ k : TokenKind, isParen k = true → isKnown k = true := by decide

/-- An expression is added, or an error is found. -/
lemma adds_expression : expression.Adds (soundness faulty) full true P (operands faulty) := by
  refine adds_nest (fun _ _ _ => trivial) (fun _ _ h => h)
    fun _ hfaulty => adds_nothing (N := valued faulty) ?_
  exact (fun _ hps => .inr ⟨hfaulty, unit_le_atMost 1 _ hps⟩)

lemma operands_le_words (faulty : Prop) : operands faulty ≤ words isKnown (valued faulty) :=
  words_mono isKnown_of_isParen le_rfl

lemma adds_value : expression.Adds (soundness faulty) full true P (words isKnown (valued faulty)) :=
  adds_expression.le (operands_le_words faulty)

lemma node_le_operands : node (ofKind isExpression) ≤ operands faulty :=
  (node_le_words _ _).trans (words_le le_self_add)

/-- A node that is an expression is an operand. -/
lemma adds_as_operand (h : r.Adds (soundness faulty) full s P (node (ofKind isExpression))) :
    r.Adds (soundness faulty) full s P (operands faulty) :=
  h.le node_le_operands

/-- Expressions with commas between them. -/
lemma adds_expressionsThrough {close : TokenKind} (message : String)
    (hclose : isKnown close = true) :
    (expressionsThrough close message).Adds (soundness faulty) full true P
      (words isKnown (every (ofKind (orError isExpression)))) :=
  adds_itemsThrough _ hclose ofKind_orError_of_error
    ((adds_value.seq_marks (adds_eaten rfl)).le (words_le (valued_le_every faulty)))

/-! ## Operands -/

lemma adds_spreadThen (hP : ∀ l, P l → l.startsWith (· == .spread) = true)
    (h : rest.Adds (soundness faulty) full s (fun _ => True) (words isKnown 1)) :
    (spreadThen rest).Adds (soundness faulty) full true P (node (ofKind (· == .spreadExpr))) :=
  adds_leaf rfl (isKnown_of_beq rfl)
    ((adds_opened hP (adds_nameIfAny_words isKnown_of_isName)).opened_marks h) (fun _ => rfl) rfl

/-- What stands between the braces of a record. -/
def isInit (k : NodeKind) : Bool := k == .recordFieldInit || k == .spreadExpr

/-- The value behind a key. -/
lemma adds_valueAfterKey :
    valueAfterKey.Adds (soundness faulty) full true P (words isKnown (valued faulty)) :=
  ((adds_expected _ rfl).marks_seq adds_value).seq_marks (adds_eaten rfl)

lemma hasValue_of_mem {n : Node} (h : n.childNodes ∈ one (ofKind isExpression)) : n.HasValue := by
  obtain ⟨m, hm, hnodes⟩ := h
  exact ⟨m, hnodes, hm⟩

/-- A binding of a name to a value is sound. -/
lemma isSound_binding {n : Node} {k : NodeKind} {H : Language Element} (hk : n.kind = k)
    (hmember : k = .recordFieldInit ∨ k = .letBinding) (hH : H ≤ words isKnown 1)
    (hplace : ∀ ps ∈ H, ∀ (t : Token) (ts : List Token), t.kind.isName = true →
      nameToken? k (ps.filterMap Element.token? ++ t :: ts) = some t)
    (hparts : n.parts ∈ H * named faulty (valued faulty)) : n.IsSound faulty := by
  refine isSound_of_named hk hparts hH hplace (fun _ ns hns => ?_) fun hclean hname hnodes => ?_
  · have hmost := upTo_map_kind (missing_value_le faulty hns)
    rcases hmember with rfl | rfl <;> exact hmost
  · rw [valued_eq hclean] at hnodes
    have hall := And.intro hname (hasValue_of_mem hnodes)
    rcases hmember with rfl | rfl <;> simpa only [HasAll, hk] using hall

lemma adds_recordInit :
    recordInit.Adds (soundness faulty) full true P
      (words isKnown (every (ofKind (orError isInit)))) := by
  refine .branch ?_ ?_
  · refine (adds_spreadThen (fun _ h => startsWith_of_starts h.2) (adds_eaten rfl)).le ?_
    exact (node_mono fun n hn => Bool.or_eq_true_iff.2 (.inr hn)).trans (node_le_items isInit)
  · refine Rule.Adds.le (adds_node (by decide) (adds_named _ adds_valueAfterKey).turns
      fun n hk hparts => ⟨?_, ?_⟩) (node_le_items isInit)
    · rw [← one_mul (named faulty _)] at hparts
      exact isSound_binding hk (.inl rfl) (unit_le_words _ le_rfl) (place_first fun _ => rfl) hparts
    · exact ofKind_of_eq hk rfl

lemma adds_recordInits (hP : ∀ l, P l → l.startsWith (· == .lBrace) = true) :
    recordInits.Adds (soundness faulty) full true P
      (opened (· == .lBrace) (every (ofKind (orError isInit)))) :=
  adds_opened hP (adds_itemsThrough _ rfl ofKind_orError_of_error adds_recordInit)

lemma opened_le_words (hp : ∀ k, p k = true → isKnown k = true) (N : Language Node) :
    opened p N ≤ words isKnown N :=
  token_mul_words_le hp

/-- The unit, or an expression in parentheses. -/
lemma adds_parenthesis (hP : ∀ l, P l → l.starts .lParen = true) :
    parenthesis.Adds (soundness faulty) full true P (operands faulty) := by
  refine .branch ?_ ?_
  · refine Rule.Adds.le ?_ node_le_operands
    exact adds_leaf rfl (isKnown_of_beq rfl) (adds_openTwo
      (fun l h => startsWith_of_starts (hP l h.1)) (fun l m h hm => startsWith_of_continues h.2 hm)
      (isKnown_of_beq rfl)) (fun _ => rfl) rfl
  · have hopen : ∀ k, (k == TokenKind.lParen) = true → isParen k = true := by decide
    exact ((adds_mark_of_startsWith (fun l h => startsWith_of_starts (hP l h.1)) hopen).marks_seq
      adds_expression).seq_marks (adds_expected _ rfl)

lemma startsWith_and_continues {l : Lookahead} (h : (l.startsWith p && l.continues kind) = true) :
    l.startsWith p = true ∧ l.continues kind = true :=
  Bool.and_eq_true_iff.1 h

/-- A case with its entries if it has any. -/
lemma adds_variant
    (hP : ∀ l, P l → (l.startsWith TokenKind.isName && l.continues .colonColon) = true) :
    variant.Adds (soundness faulty) full true P (node (ofKind isExpression)) := by
  have hinits : (Rule.branch (·.starts .lBrace) recordInits .done).Adds (soundness faulty) full
      false (fun _ => True) (words isKnown (every (ofKind (orError isInit)))) :=
    .branch ((adds_recordInits fun _ h => startsWith_of_starts h.2).weaken.le
      (opened_le_words (isKnown_of_beq rfl) _)) (adds_nothing (unit_le_every _))
  have hname : named faulty (every (ofKind (orError isInit))) ≤
      words isKnown (every (ofKind (orError isInit))) :=
    (named_le_words _ _).trans (words_le (add_amiss_le _ (unit_le_every _)))
  refine adds_plain (p := TokenKind.isName) (N := every (ofKind (orError isInit))) rfl
    isKnown_of_isName ?_ (fun _ _ hns => all_map_kind hns) rfl
  refine ((adds_openTwo (fun l h => (startsWith_and_continues (hP l h)).1)
    (fun l m h hm => startsWith_of_continues (startsWith_and_continues (hP l h)).2 hm)
    (isKnown_of_beq rfl)).opened_seq ((adds_named _ hinits).le hname)).le ?_
  rw [one_mul]

/-- A name before its arguments is no import. -/
lemma isSound_call {n : Node} (hk : n.kind = .callExpr)
    (hparts : n.parts ∈ token (fun k => k.isName || k == .ada) * node (ofKind (· == .argList))) :
    n.IsSound faulty := by
  obtain ⟨t, _, ht, ⟨m, hm, rfl⟩, hparts⟩ := exists_cons_of_mem_token_mul hparts
  have hknown : isKnown t.kind = true ∧ t.kind ≠ .importKw := by
    revert ht
    generalize t.kind = k
    revert k
    decide
  have htokens : n.significantTokens = [t] := by
    rw [significantTokens_eq, hparts]
    rfl
  have hnodes : n.childNodes = [m] := by
    rw [childNodes_eq, hparts]
    rfl
  refine ⟨?_, fun _ _ u hu => ?_, fun _ => ⟨.inl (children_ne_nil_of_parts ?_), ?_⟩⟩
  · rw [hk, htokens, hnodes]
    simpa [admits, hknown.2, ofKind] using hm
  · rw [hparts, List.mem_cons, List.mem_singleton] at hu
    rcases hu with hu | hu
    · rw [Element.token.inj hu]
      exact bne_iff_ne.1 hknown.1
    · cases hu
  · rw [hparts]
    exact List.cons_ne_nil _ _
  · exact hasAll_of_isPlain (hk ▸ rfl)

lemma adds_call (hP : ∀ l, P l →
      (l.startsWith (fun k => k.isName || k == .ada) && l.continues .lParen) = true) :
    call.Adds (soundness faulty) full true P (node (ofKind isExpression)) := by
  have hargs : (Rule.node .argList (.bump ++ expressionsThrough .rParen "Expected ')'")).Adds
      (soundness faulty) full true (fun l => l.startsWith (· == .lParen) = true)
      (node (ofKind (· == .argList))) :=
    adds_plain rfl (isKnown_of_beq rfl) (adds_opened (fun _ h => h) (adds_expressionsThrough _ rfl))
      (fun _ _ hns => all_map_kind hns) rfl
  exact adds_node (by decide) (adds_bump_append
    (fun l h => (startsWith_and_continues (hP l h)).1)
    (fun l m h hm => startsWith_of_continues (startsWith_and_continues (hP l h)).2 hm)
    hargs).turns fun n hk hparts => ⟨isSound_call hk hparts, ofKind_of_eq hk rfl⟩

/-- The entries of a map: each colon stands between two nodes, if no error was found. -/
def entries (faulty : Prop) : Language Element :=
  tallied faulty isKnown (· == .colon) fun a b => a = 2 * b

lemma adds_mapEntry : mapEntry.Adds (soundness faulty) full true P (entries faulty) := by
  have hvalue : ∀ P, expression.Adds (soundness faulty) full true P
      (tallied faulty isKnown (· == .colon) fun a b => a = 1 ∧ b = 0) := fun _ =>
    adds_expression.le (operands_le_tallied isKnown_of_isParen (by decide))
  have hcomma : (eat .comma).Adds (soundness faulty) full false (fun _ => True)
      (tallied faulty isKnown (· == .colon) fun a b => a = 0 ∧ b = 0) :=
    (adds_eaten (p := (· == .comma)) rfl).le
      (words_unit_le_tallied (isKnown_of_beq rfl) (by decide))
  have hcolon : (expect .colon "Expected ':'").Adds (soundness faulty) full true (fun _ => True)
      (tallied faulty isKnown (· == .colon) fun a b => a = 0 ∧ b = 1) := by
    refine (adds_expect _).le (add_le
      (token_le_tallied_of_mark (isKnown_of_beq rfl) fun _ => id) fun ps hps => ?_)
    exact ⟨unit_le_words _ (unit_le_every _) hps.2, absurd hps.1⟩
  refine ((((hvalue P).seq hcolon).seq (hvalue _)).seq hcomma).le ?_
  refine (mul_le_mul_left (mul_le_mul_left (tallied_mul_le (T := fun a b => a = 1 ∧ b = 1)
    ?_) _) _).trans ((mul_le_mul_left (tallied_mul_le (T := fun a b => a = 2 ∧ b = 1) ?_) _).trans
      (tallied_mul_le ?_)) <;> omega

lemma adds_map (hP : ∀ l, P l → l.starts .lBrace = true) :
    (Rule.node .mapExpr (.bump ++ itemsThrough .rBrace "Expected '\x7d'" mapEntry)).Adds
      (soundness faulty) full true P (node (ofKind isExpression)) := by
  have hmark : ∀ {k}, k ≠ TokenKind.colon → ∀ k', (k' == k) = true → (k' == .colon) = false :=
    fun h k' hk' => eq_of_beq hk' ▸ beq_eq_false_iff_ne.2 h
  have hloop : (loop (·.endsList .rBrace) mapEntry).Adds (soundness faulty) full false
      (fun _ => True) (entries faulty) :=
    adds_loop adds_mapEntry (unit_le_tallied rfl) (tallied_mul_le (by omega)) tallied_mul_error_le
  have hclose : (expect .rBrace "Expected '\x7d'").Adds (soundness faulty) full true
      (fun _ => True) (tallied faulty isKnown (· == .colon) fun a b => a = 0 ∧ b = 0) :=
    (adds_expected (p := (· == .rBrace)) _ rfl).le
      (words_unit_le_tallied (isKnown_of_beq rfl) (hmark (by decide)))
  have hopen : token (· == .lBrace) ≤
      tallied faulty isKnown (· == .colon) fun a b => a = 0 ∧ b = 0 :=
    (token_le_words fun _ => id).trans
      (words_unit_le_tallied (isKnown_of_beq rfl) (hmark (by decide)))
  have hentries : (itemsThrough .rBrace "Expected '\x7d'" mapEntry).Adds (soundness faulty) full
      true (fun _ => True) (entries faulty) :=
    (hloop.seq hclose).le (tallied_mul_le (by omega))
  refine adds_node (by decide) ((adds_bump_of_starts hP).seq
    hentries).turns fun n hk hparts => ⟨?_, ofKind_of_eq hk rfl⟩
  have hwords : n.parts ∈ entries faulty :=
    tallied_mul_le (T := fun a b => a = 2 * b) (by omega) (mul_le_mul_left hopen _ hparts)
  refine isSound_of_words hk hwords.1 (fun _ _ hns => all_map_kind hns)
    (fun _ => parts_ne_nil hparts) fun hclean => ?_
  have hcount := hwords.2 hclean
  rw [tally_parts, ← childNodes_eq] at hcount
  simpa only [HasAll, hk] using hcount

/-- Behind an error there may be no node, or a token that was passed over. -/
lemma amiss_le_operands {L : Language Element}
    (h : L ≤ words isParen (atMost 1 (ofKind (· == .error)))) :
    amiss faulty L ≤ operands faulty :=
  (amiss_mono h).trans ((amiss_words_le _ _ _).trans (words_le le_add_self))

lemma adds_noExpression (message : String) :
    (report message).Adds (soundness faulty) full true P (operands faulty) :=
  (adds_report message).le (amiss_le_operands (unit_le_words _ (unit_le_atMost 1 _)))

/-- **An operand is added**, or an error is found. -/
lemma adds_operand : operand.Adds (soundness faulty) full true P (operands faulty) := by
  refine .branch ?nothing <| .branch ?spread <| .branch ?parens <| .branch ?list <|
    .branch ?map <| .branch ?variant <| .branch ?record <| .branch ?call <| .branch ?reference <|
    .branch ?constant <| .branch ?closing ?other
  case nothing => exact adds_noExpression _
  case spread =>
    refine adds_as_operand ((adds_spreadThen (fun _ h => startsWith_of_starts h.2)
      (adds_nothing le_rfl)).le (node_mono fun n hn => ?_))
    rw [ofKind, eq_of_beq hn]
    rfl
  case parens => exact adds_parenthesis fun _ h => h.2
  case list =>
    exact adds_as_operand (adds_plain rfl (isKnown_of_beq rfl)
      (adds_opened_of_starts (fun _ h => h.2) (adds_expressionsThrough _ rfl))
      (fun _ _ hns => all_map_kind hns) rfl)
  case map => exact adds_as_operand (adds_map fun _ h => h.2)
  case variant => exact adds_as_operand (adds_variant fun _ h => h.2)
  case record =>
    exact adds_as_operand (adds_plain rfl isKnown_of_isName
      (adds_open_append (fun _ h => (startsWith_and_continues h.2).1)
        (fun _ _ h hm => startsWith_of_continues (startsWith_and_continues h.2).2 hm)
        ((adds_recordInits fun _ h => h).le (opened_le_words (isKnown_of_beq rfl) _)))
      (fun _ _ hns => all_map_kind hns) rfl)
  case call => exact adds_as_operand (adds_call fun _ h => h.2)
  case reference =>
    exact adds_as_operand
      (adds_leaf rfl (by decide) (adds_open fun _ h => h.2) (fun _ => rfl) rfl)
  case constant =>
    exact adds_as_operand
      (adds_leaf rfl (by decide) (adds_open fun _ h => h.2) (fun _ => rfl) rfl)
  case closing => exact adds_noExpression _
  case other =>
    refine (adds_reject (fun l h => ?_) _).le (amiss_le_operands
      ((node_le_words _ _).trans (words_le (one_le_atMost fun n hn => ofKind_of_eq hn rfl))))
    have hsome : l.isEnd = false := by tauto
    exact first_ne_none_of_not_isEnd hsome

/-! ## Suffixes and signs -/

/-- What is behind an operand makes one expression of it. -/
lemma turns_suffixes :
    suffixes.Turns (soundness faulty) full false P (operands faulty) (operands faulty) :=
  .branch (turns_nest (fun _ hl _ hps => And.intro hl.2 hps) (fun _ _ _ h => h)
    fun _ _ => turns_done).weaken turns_done

lemma adds_postfixed : postfixed.Adds (soundness faulty) full true P (operands faulty) :=
  adds_mark (adds_operand.turns.seq turns_suffixes)

/-- The mark before the name of a field. -/
lemma place_behind_dot : ∀ ps ∈ operands faulty * token (· == .dot),
    ∀ (t : Token) (ts : List Token), t.kind.isName = true →
      nameToken? .fieldAccessExpr (ps.filterMap Element.token? ++ t :: ts) = some t := by
  rintro _ ⟨ps, hps, _, ⟨d, hd, rfl⟩, rfl⟩ t ts -
  have hdrop : ∀ u ∈ ps.filterMap Element.token?, (u.kind != .dot) = true := by
    intro u hu
    have hparen := hps.1 u (Element.mem_tokens_iff.1 hu)
    rw [bne_iff_ne]
    intro hdot
    rw [hdot] at hparen
    cases hparen
  change (((ps ++ [Element.token d]).filterMap Element.token? ++ t :: ts).dropWhile
    (·.kind != .dot))[1]? = some t
  rw [List.filterMap_append, List.append_assoc, List.dropWhile_append_of_pos hdrop]
  change ((d :: t :: ts).dropWhile (·.kind != .dot))[1]? = some t
  rw [List.dropWhile_cons_of_neg (by simpa using hd)]
  rfl

/-- A field access: the operand, the mark and the name of the field. -/
lemma isSound_fieldAccess {n : Node} (hk : n.kind = .fieldAccessExpr)
    (hparts : n.parts ∈ operands faulty * (token (· == .dot) * named faulty 1)) :
    n.IsSound faulty := by
  have hdot : token (· == .dot) ≤ words isKnown 1 := token_le_words (isKnown_of_beq rfl)
  have hname : named faulty 1 ≤ words isKnown 1 :=
    (named_le_words _ _).trans (words_le (add_le le_rfl (amiss_le _ _)))
  have hwords : n.parts ∈ words isKnown (valued faulty) := by
    refine (mul_le_mul' (operands_le_words faulty) (mul_le_mul' hdot hname)).trans ?_ hparts
    refine (mul_le_mul_right (words_mul_le _ 1 1) _).trans ((words_mul_le _ _ _).trans ?_)
    rw [one_mul, mul_one]
  have hone : ¬ faulty → n.parts ∈ words isKnown (one (ofKind isExpression)) :=
    fun hclean => valued_eq hclean ▸ hwords
  refine isSound_of_words hk hwords (fun _ ns hns => upTo_map_kind (valued_le faulty hns))
    (fun hclean => parts_ne_nil_of_mem (hone hclean)) fun hclean => ?_
  rw [named_eq hclean, ← mul_assoc] at hparts
  simpa only [HasAll, hk] using And.intro (name?_isSome_of_mem hk hparts place_behind_dot)
    (length_of_mem_one (childNodes_mem (hone hclean)))

lemma length_of_mem_pow {ns : List Node} {b : Nat} {q : Node → Prop} (h : ns ∈ one q ^ b) :
    ns.length = b := by
  induction b generalizing ns with
  | zero =>
    rw [pow_zero] at h
    rw [h]
    rfl
  | succ b ih =>
    rw [pow_succ] at h
    obtain ⟨ms, hms, _, ⟨n, -, rfl⟩, rfl⟩ := h
    change (ms ++ [n]).length = b + 1
    rw [List.length_append, ih hms]
    rfl

lemma valued_pow_le (faulty : Prop) (b : Nat) :
    valued faulty ^ b ≤ atMost b (ofKind (orError isExpression)) := by
  induction b with
  | zero => exact unit_le_atMost 0 _
  | succ b ih =>
    rw [pow_succ]
    exact (mul_le_mul' ih (valued_le faulty)).trans (mul_atMost_le b 1 _)

/-- A node that holds so many expressions, unless errors were found. -/
lemma isSound_expressions {n : Node} {k : NodeKind} {b : Nat} (hk : n.kind = k) (hb : 0 < b)
    (hparts : n.parts ∈ words isKnown (valued faulty ^ b))
    (hadmits : ∀ tokens kinds, k.admits tokens kinds = upTo b (orError isExpression) kinds)
    (hall : n.childNodes.length = b → n.HasAll) : n.IsSound faulty := by
  have hlength : ¬ faulty → n.childNodes.length = b := fun hclean =>
    length_of_mem_pow (valued_eq hclean ▸ childNodes_mem hparts)
  refine isSound_of_words hk hparts (fun _ ns hns => ?_) (fun hclean hnil => ?_)
    fun hclean => hall (hlength hclean)
  · rw [hadmits]
    exact upTo_map_kind (valued_pow_le faulty b hns)
  · have hlength := hlength hclean
    rw [childNodes_eq, hnil] at hlength
    exact absurd hlength hb.ne

/-- A suffix makes one expression of the operand before it. -/
lemma turns_suffixRule : suffixRule.Turns (soundness faulty) full true
    (fun l => l.startsWith opensSuffix = true) (operands faulty) (operands faulty) := by
  refine Rule.Turns.seq (s := true) (.branch ?field ?index) turns_suffixes
  case field =>
    refine (turns_wrap (by decide) (((adds_bump_of_starts fun _ h => h.2).seq
      (adds_named _ (adds_nothing le_rfl))) _) fun n hk hparts =>
        ⟨isSound_fieldAccess hk hparts, ?_⟩).le node_le_operands
    exact ofKind_of_eq hk rfl
  case index =>
    have hknown : ∀ k, opensSuffix k = true → isKnown k = true := by decide
    refine (turns_wrap (by decide) ((((adds_bump (p := opensSuffix) fun l h => h.1).le
      (token_le_words hknown)).marks_seq adds_value).seq_marks
        (adds_expected _ rfl) _) fun n hk hparts => ⟨?_, ?_⟩).le node_le_operands
    · refine isSound_expressions hk (b := 2) (by decide) ?_ (fun _ _ => rfl)
        fun h => by simpa only [HasAll, hk] using h
      rw [pow_two]
      exact words_mul_le _ _ _ (mul_le_mul_left (operands_le_words faulty) _ hparts)
    · exact ofKind_of_eq hk rfl

/-- An operand with the signs before it. -/
lemma adds_unary : unary.Adds (soundness faulty) full true P (operands faulty) :=
  .branch (adds_nest (fun _ hl _ => hl.2) (fun _ _ h => h) fun _ _ => adds_postfixed) adds_postfixed

lemma adds_signedRule : signedRule.Adds (soundness faulty) full true
    (fun l => l.startsWith isSign = true) (operands faulty) := by
  refine adds_as_operand (adds_node (by decide) (adds_opened (fun _ h => h)
    (adds_unary.le (operands_le_words faulty))).turns fun n hk hparts => ⟨?_, ?_⟩)
  · refine isSound_expressions hk (b := 1) (by decide) ?_ (fun _ _ => rfl)
      fun h => by simpa only [HasAll, hk] using h
    rw [pow_one]
    exact opened_le_words (by decide) _ hparts
  · exact ofKind_of_eq hk rfl

/-! ## Binary operators and the conditional -/

/-- The operands of a layer and the operators between them. -/
def chain (faulty : Prop) (isOperator : TokenKind → Bool) : Language Element :=
  tallied faulty (fun k => isParen k || isOperator k) isOperator fun a b => a = b + 1 ∧ b ≠ 0

lemma not_isOperator_of_isParen : ∀ k, isParen k = true → k.isOperator = false := by decide

lemma isKnown_of_isOperator : ∀ k, TokenKind.isOperator k = true → isKnown k = true := by decide

/-- All operators between the operands of a layer are its own. -/
lemma hasOperands_of_mem {n : Node} {isOperator : TokenKind → Bool}
    (hlayer : isOperator ∈ [isLogical, TokenKind.isComparison, isSum, isProduct])
    (hop : ∀ k, isOperator k = true → k.isOperator = true) (hclean : ¬ faulty)
    (hparts : n.parts ∈ chain faulty isOperator) : n.HasOperands := by
  have hsame : ∀ t ∈ n.significantTokens, t.kind.isOperator = isOperator t.kind := by
    intro t ht
    rw [significantTokens_eq, Element.mem_tokens_iff] at ht
    cases hown : isOperator t.kind with
    | true => exact hop _ hown
    | false =>
      refine not_isOperator_of_isParen _ ?_
      refine (Bool.or_eq_true_iff.1 (hparts.1.1 t ht)).resolve_right ?_
      rw [hown]
      exact Bool.false_ne_true
  have hfilter : n.tokensOf TokenKind.isOperator = n.tokensOf isOperator := List.filter_congr hsame
  obtain ⟨hcount, hne⟩ := hparts.2 hclean
  rw [tally_parts, ← hfilter] at hcount hne
  rw [← childNodes_eq] at hcount
  refine ⟨fun hnil => hne (hnil ▸ rfl), hcount, isOperator, hlayer, fun t ht => ?_⟩
  rw [hfilter] at ht
  exact (List.mem_filter.1 ht).2

/-- **A layer of binary operators adds one expression** if the next layer does, or an error is
found. -/
lemma adds_layer {isOperator : TokenKind → Bool}
    (hlayer : isOperator ∈ [isLogical, TokenKind.isComparison, isSum, isProduct])
    (hop : ∀ k, isOperator k = true → k.isOperator = true)
    (h : ∀ P, next.Adds (soundness faulty) full true P (operands faulty)) :
    (layer isOperator next).Adds (soundness faulty) full true P (operands faulty) := by
  have hparen : ∀ k, isParen k = true → isOperator k = false := fun k hk =>
    Bool.eq_false_iff.2 fun hown =>
      Bool.false_ne_true ((not_isOperator_of_isParen k hk).symm.trans (hop k hown))
  have hone : operands faulty ≤ tallied faulty (fun k => isParen k || isOperator k) isOperator
      fun a b => a = 1 ∧ b = 0 :=
    operands_le_tallied (fun _ hk => Bool.or_eq_true_iff.2 (.inl hk)) hparen
  have hmore : token isOperator * operands faulty ≤
      tallied faulty (fun k => isParen k || isOperator k) isOperator fun a b => a = 1 ∧ b = 1 :=
    (mul_le_mul' (token_le_tallied_of_mark (fun _ hk => Bool.or_eq_true_iff.2 (.inr hk))
      fun _ => id) hone).trans (tallied_mul_le (by omega))
  have hstop : ∀ l : Lookahead, (!l.startsWith isOperator) = false →
      l.startsWith isOperator = true := fun l hl => by simpa using hl
  -- One more operand behind an operator, with the first operand before it or a whole chain.
  have hstep : ∀ L, L * (token isOperator * operands faulty) ≤ chain faulty isOperator →
      (.bump ++ next : Rule).Moves (soundness faulty) full
        (fun l => (!l.startsWith isOperator) = false) L (chain faulty isOperator) := fun L hL =>
    (moves_bump hstop).append ((h _ _).le (by rw [mul_assoc]; exact hL))
  have hbinary : (wrap .binaryExpr (loop (fun l => !l.startsWith isOperator) (.bump ++ next))).Turns
      (soundness faulty) full false (fun l => l.startsWith isOperator = true) (operands faulty)
      (node (ofKind isExpression)) := by
    refine turns_wrap (by decide) (turns_loop_of_not_stop (fun l hl => by rw [hl]; rfl)
      (hstep _ ((mul_le_mul' hone hmore).trans (tallied_mul_le (by omega))))
      (hstep _ ((mul_le_mul_right hmore _).trans (tallied_mul_le (by omega)))))
      fun n hk hparts => ⟨?_, ofKind_of_eq hk rfl⟩
    have hknown : ∀ k, (isParen k || isOperator k) = true → isKnown k = true := fun k hk =>
      (Bool.or_eq_true_iff.1 hk).elim (isKnown_of_isParen k) fun hown =>
        isKnown_of_isOperator k (hop k hown)
    have hwords := words_mono hknown le_rfl hparts.1
    have hoperands : ¬ faulty → n.HasOperands := fun hclean =>
      hasOperands_of_mem hlayer hop hclean hparts
    refine isSound_of_words hk hwords (fun _ _ hns => all_map_kind hns) (fun hclean hnil => ?_)
      fun hclean => by simpa only [HasAll, hk] using hoperands hclean
    have hcount := (hparts.2 hclean).1
    rw [hnil] at hcount
    cases hcount
  exact adds_mark ((h P).turns.seq (.branch
    ((hbinary.le node_le_operands).mono (fun _ hl => hl.2) le_rfl le_rfl) turns_done))

lemma adds_binary : binary.Adds (soundness faulty) full true P (operands faulty) :=
  adds_layer (by simp) (by decide) fun _ => adds_layer (by simp) (by decide) fun _ =>
    adds_layer (by simp) (by decide) fun _ => adds_layer (by simp) (by decide) fun _ => adds_unary

/-- **The conditional adds one expression**, or an error is found. -/
lemma adds_conditional : conditional.Adds (soundness faulty) full true P (operands faulty) := by
  have hternary : (wrap .ternaryExpr
      (.bump ++ expression ++ expect .colon "Expected ':'" ++ expression)).Turns (soundness faulty)
      full true (fun l => True ∧ l.starts .question = true) (operands faulty)
      (node (ofKind isExpression)) := by
    refine turns_wrap (by decide) ((((adds_mark_of_starts rfl fun _ h => h.2).marks_seq
      adds_value).seq_marks (adds_expected _ rfl)).seq_words adds_value _) fun n hk hparts =>
        ⟨?_, ofKind_of_eq hk rfl⟩
    refine isSound_expressions hk (b := 3) (by decide) ?_ (fun _ _ => rfl)
      fun h => by simpa only [HasAll, hk] using h
    rw [pow_succ', pow_two]
    exact words_mul_le _ _ _ (mul_le_mul_left (operands_le_words faulty) _ hparts)
  exact adds_mark (adds_binary.turns.seq (.branch (hternary.le node_le_operands).weaken turns_done))

end Rules

/-! ## The levels together -/

/-- **The rules of the nesting levels keep their contract.** -/
theorem kept_soundness (faulty : Prop) : (soundness faulty).Kept where
  law_error := by
    intro hfaulty n t hk hparts
    refine ⟨?_, fun _ herror => absurd hk herror, absurd hfaulty⟩
    rw [hk, childNodes_eq, hparts]
    rfl
  levels := by
    intro level next ps hentry
    have hsettled : (false || true) = true := rfl
    cases level with
    | expression =>
      exact (adds_conditional.assures (P := fun _ => True) trivial).mono fun w hw =>
        ⟨hw.1 hsettled, hw.2⟩
    | signed =>
      exact (adds_signedRule.assures (v := ⟨next, ps, false, false, false⟩) hentry).mono fun w hw =>
        ⟨hw.1 hsettled, hw.2⟩
    | suffixed =>
      exact (turns_suffixRule _ hentry.1 hentry.2).mono fun w hw => ⟨hw.settled hsettled, hw.parts⟩
    | type =>
      exact (adds_typeRule.assures (P := fun _ => True) trivial).mono fun w hw =>
        ⟨hw.1 hsettled, hw.2⟩
    | array =>
      exact (turns_arrayRule _ hentry.1 hentry.2).mono fun w hw => ⟨hw.settled hsettled, hw.parts⟩

end TxTree.Grammar
