import TxTree.Proofs.Operands

set_option relaxedAutoImplicit false
set_option autoImplicit false

/-!
# Blocks and declarations keep to the schema

What blocks, declarations and files add, given that types and expressions keep their contract.

## Main definitions

* `TxTree.Grammar.IsEntry` — an entry of a block of fields.

## Main results

* `TxTree.Grammar.adds_bodyItem`, `TxTree.Grammar.adds_declaration`, `TxTree.Grammar.adds_file` —
  what they add.
-/

namespace TxTree.Grammar

open Rule NodeKind Node

section Rules

variable {faulty full : Prop} {s : Bool} {P : Lookahead → Prop} {r : Rule} {p : TokenKind → Bool}
  {k : NodeKind} {n : Node} {N : Language Node}

/-! ## Fields and bindings -/

/-- A field with a name, or a token that was passed over. -/
def IsEntry (n : Node) : Prop :=
  ofKind (orError (· == .blockField)) n ∧ (n.kind = .blockField → n.name?.isSome = true)

lemma isEntry_of_error (n : Node) (h : n.kind = .error) : IsEntry n := by
  refine ⟨ofKind_orError_of_error n h, fun hk => ?_⟩
  rw [hk] at h
  cases h

lemma hasNamedFields_of_mem (h : n.childNodes ∈ every IsEntry) : n.HasNamedFields :=
  fun m hm => (h m hm).2

lemma all_blockFields {ns : List Node} (h : ns ∈ every IsEntry) :
    (ns.map (·.kind)).all (orError (· == .blockField)) = true :=
  all_map_kind fun n hn => (h n hn).1

/-- A key and its value are a field. -/
lemma isSound_field (hk : n.kind = .blockField) (hp : ∀ k, p k = true → isKnown k = true)
    (hparts : n.parts ∈ opened p (valued faulty)) : n.IsSound faulty := by
  refine isSound_of_opened hk hparts hp (fun _ _ hns => upTo_map_kind (valued_le faulty hns))
    fun hclean hnodes => ?_
  rw [valued_eq hclean] at hnodes
  simpa only [HasAll, hk] using hasValue_of_mem hnodes

lemma adds_blockField : blockField.Adds (soundness faulty) full true
    (fun l => l.endsList .rBrace = false) (words isKnown (every IsEntry)) := by
  refine .branch ?named ?other
  case named =>
    refine Rule.Adds.le (adds_node (q := IsEntry) (by decide)
      (adds_opened (fun _ h => h.2) adds_valueAfterKey).turns fun n hk hparts =>
        ⟨isSound_field hk isKnown_of_isName hparts, ?_, fun _ => ?_⟩)
      ((node_le_words _ _).trans (words_le (one_le_every fun _ => id)))
    · exact ofKind_of_eq hk rfl
    · rw [opened, ← one_mul (token _ * _)] at hparts
      exact name?_isSome_of_mem hk hparts (place_first fun _ => rfl)
  case other =>
    exact adds_rejected isEntry_of_error (fun l h => first_ne_none_of_not_endsList h.1) _

lemma adds_fieldBlock :
    fieldBlock.Adds (soundness faulty) full true P (words isKnown (every IsEntry)) :=
  adds_braced rfl rfl isEntry_of_error adds_blockField

lemma adds_localBinding :
    localBinding.Adds (soundness faulty) full true P (node (ofKind (· == .letBinding))) := by
  refine adds_node (by decide) (adds_named _ adds_valueAfterKey).turns fun n hk hparts =>
    ⟨?_, beq_iff_eq.2 hk⟩
  rw [← one_mul (named faulty _)] at hparts
  refine isSound_binding hk (.inr rfl) (unit_le_words _ le_rfl) ?_ hparts
  rintro _ rfl t ts ht
  have hlet : (t.kind == .letKw) = false := by
    rw [beq_eq_false_iff_ne]
    intro hlet
    rw [hlet] at ht
    cases ht
  change (if t.kind == .letKw then ts.head? else some t) = some t
  rw [hlet]
  rfl

lemma adds_letBinding (hP : ∀ l, P l → l.starts .letKw = true) :
    letBinding.Adds (soundness faulty) full true P (node (ofKind (· == .letBinding))) := by
  refine adds_node (by decide) ((adds_bump_of_starts hP).seq
    (adds_named _ (((adds_expected _ rfl).marks_seq adds_value).seq_marks
      (adds_expected _ rfl)))).turns fun n hk hparts => ⟨?_, beq_iff_eq.2 hk⟩
  refine isSound_binding hk (.inr rfl) (token_le_words (isKnown_of_beq rfl)) ?_ hparts
  rintro _ ⟨u, hu, rfl⟩ t ts -
  change (if u.kind == .letKw then (t :: ts).head? else some u) = some t
  rw [if_pos hu]
  rfl

/-- A key that is missing, or that is none, was reported. -/
lemma adds_metadataField :
    metadataField.Adds (soundness faulty) full true P (node (ofKind (· == .blockField))) := by
  have hkeyed : ∀ k, (k == TokenKind.intLiteral || k == .stringLiteral) = true →
    isKnown k = true := by decide
  have hmissing : ∀ {L}, L ≤ words isKnown (valued faulty) → amiss faulty L ≤
      opened (fun k => k == .intLiteral || k == .stringLiteral) (valued faulty) +
        amiss faulty (words isKnown (atMost 1 (ofKind (orError isExpression)))) := fun hL =>
    (amiss_mono (hL.trans (words_le (valued_le faulty)))).trans le_add_self
  refine adds_node (by decide) (L := opened (fun k => k == .intLiteral || k == .stringLiteral)
    (valued faulty) + amiss faulty (words isKnown (atMost 1 (ofKind (orError isExpression)))))
    (Rule.Adds.turns (.branch ?keyed (.branch ?wrong (.branch ?missing ?nothing)))) ?_
  case keyed => exact (adds_opened (fun _ h => h.2) adds_valueAfterKey).le le_self_add
  case wrong =>
    refine ((adds_report_append _ fun _ => adds_bump fun _ h => h.2).seq adds_valueAfterKey).le
      ((amiss_mul_right_le _ _ _).trans (hmissing (token_mul_words_le isKnown_of_isName)))
  case missing => exact (adds_report_append _ fun _ => adds_valueAfterKey).le (hmissing le_rfl)
  case nothing =>
    exact (adds_report _).le
      ((amiss_mono (unit_le_words _ (unit_le_atMost 1 _))).trans le_add_self)
  · intro n hk hparts
    refine ⟨?_, beq_iff_eq.2 hk⟩
    have hwords : n.parts ∈ words isKnown (atMost 1 (ofKind (orError isExpression))) :=
      add_le ((token_mul_words_le hkeyed).trans (words_le (valued_le faulty))) (amiss_le _ _) hparts
    by_cases hclean : faulty
    · exact isSound_of_words hk hwords (fun _ _ hns => upTo_map_kind hns) (absurd hclean)
        (absurd hclean)
    · rw [amiss_eq_zero hclean, add_zero] at hparts
      exact isSound_field hk hkeyed hparts

/-! ## Blocks -/

/-- What stands in the body of a transaction. -/
def isBodyItem (k : NodeKind) : Bool := k.isBlock || k == .letBinding

/-- A word, a name if there is one, and fields. -/
lemma adds_fields (hk : isFieldBlock k = true) (hp : ∀ k, p k = true → isKnown k = true)
    (h : r.Adds (soundness faulty) full s P (opened p (every IsEntry))) :
    (Rule.node k r).Adds (soundness faulty) full s P (node (ofKind isBodyItem)) := by
  refine adds_node_of_opened (by rintro rfl; cases hk) hp h (fun _ _ hns => ?_)
    (fun n hn _ hnodes =>
      (hasAll_iff_of_isFieldBlock (hn ▸ hk)).2 (hasNamedFields_of_mem hnodes)) ?_
  · rw [admits_of_isFieldBlock hk]
    exact all_blockFields hns
  · rw [isBodyItem, isBlock_of_isFieldBlock hk]
    rfl

lemma adds_namedBlock {kind : TokenKind} (hk : isFieldBlock k = true) (hkind : isKnown kind = true)
    (hP : ∀ l, P l → l.starts kind = true) :
    (namedBlock k).Adds (soundness faulty) full true P (node (ofKind isBodyItem)) :=
  adds_fields hk (isKnown_of_beq hkind) (((adds_opened_of_starts hP
    (adds_nameIfAny_words isKnown_of_isName)).opened_seq adds_fieldBlock).le (by rw [one_mul]))

lemma adds_plainBlock {kind : TokenKind} (hk : isFieldBlock k = true) (hkind : isKnown kind = true)
    (hP : ∀ l, P l → l.starts kind = true) :
    (plainBlock k).Adds (soundness faulty) full true P (node (ofKind isBodyItem)) :=
  adds_fields hk (isKnown_of_beq hkind) (adds_opened_of_starts hP adds_fieldBlock)

lemma adds_inputBlock (hP : ∀ l, P l → l.starts .inputKw = true) :
    inputBlock.Adds (soundness faulty) full true P (node (ofKind isBodyItem)) :=
  adds_fields rfl (isKnown_of_beq rfl) ((((adds_opened_of_starts hP (adds_eaten rfl)).opened_marks
    (adds_nameIfAny_words isKnown_of_isName)).opened_seq adds_fieldBlock).le (by rw [one_mul]))

/-- A word and items in braces. -/
lemma adds_itemBlock {kind : TokenKind} {q : NodeKind → Bool} {item : Rule}
    (hk : k.isPlain = true) (hkind : isKnown kind = true) (hP : ∀ l, P l → l.starts kind = true)
    (hadmits : ∀ tokens kinds, k.admits tokens kinds = kinds.all (orError q))
    (hbody : isBodyItem k = true)
    (h : item.Adds (soundness faulty) full true (fun l => l.endsList .rBrace = false)
      (words isKnown (every (ofKind (orError q))))) :
    (Rule.node k (.bump ++ braced item)).Adds (soundness faulty) full true P
      (node (ofKind isBodyItem)) := by
  refine adds_plain hk (isKnown_of_beq hkind)
    (adds_opened_of_starts hP (adds_braced rfl rfl ofKind_orError_of_error h)) ?_ hbody
  intro tokens ns hns
  rw [hadmits]
  exact all_map_kind hns

lemma adds_localsBlock (hP : ∀ l, P l → l.starts .localsKw = true) :
    localsBlock.Adds (soundness faulty) full true P (node (ofKind isBodyItem)) :=
  adds_itemBlock rfl rfl hP (fun _ _ => rfl) rfl (adds_localBinding.le (node_le_items _))

lemma adds_signersBlock (hP : ∀ l, P l → l.starts .signersKw = true) :
    signersBlock.Adds (soundness faulty) full true P (node (ofKind isBodyItem)) :=
  adds_itemBlock rfl rfl hP (fun _ _ => rfl) rfl
    ((adds_value.seq_marks (adds_eaten rfl)).le (words_le (valued_le_every faulty)))

lemma adds_metadataBlock (hP : ∀ l, P l → l.starts .metadataKw = true) :
    metadataBlock.Adds (soundness faulty) full true P (node (ofKind isBodyItem)) :=
  adds_itemBlock rfl rfl hP (fun _ _ => rfl) rfl (adds_metadataField.le (node_le_items _))

/-- The name behind the mark of a path. -/
lemma place_behind_mark : ∀ ps ∈ token (· == .cardanoKw) * token (· == .colonColon),
    ∀ (t : Token) (ts : List Token), t.kind.isName = true →
      nameToken? .cardanoBlock (ps.filterMap Element.token? ++ t :: ts) = some t := by
  rintro _ ⟨_, ⟨u, hu, rfl⟩, _, ⟨d, hd, rfl⟩, rfl⟩ t ts -
  change ((u :: d :: t :: ts).dropWhile (·.kind != .colonColon))[1]? = some t
  rw [List.dropWhile_cons_of_pos (by rw [eq_of_beq hu]; rfl),
    List.dropWhile_cons_of_neg (by simpa using hd)]
  rfl

lemma adds_cardanoBlock (hP : ∀ l, P l → l.starts .cardanoKw = true) :
    cardanoBlock.Adds (soundness faulty) full true P (node (ofKind isBodyItem)) := by
  refine adds_node (by decide) ((adds_bump_of_starts hP).seq
    (adds_expectThen _ (adds_named _ adds_fieldBlock) fun _ => adds_done)).turns
      fun n hk hparts => ⟨?_, ofKind_of_eq hk rfl⟩
  have hopen : ∀ k, (k == TokenKind.cardanoKw) = true → isKnown k = true := isKnown_of_beq rfl
  have hmark : ∀ k, (k == TokenKind.colonColon) = true → isKnown k = true := isKnown_of_beq rfl
  have hwords : n.parts ∈ words isKnown (every IsEntry) := by
    refine (mul_le_mul_right (add_le ?_ ?_) _).trans (token_mul_words_le hopen) hparts
    · refine (mul_le_mul_right (named_le_words _ _) _).trans ((token_mul_words_le hmark).trans ?_)
      exact words_le (add_amiss_le _ (unit_le_every _))
    · exact (amiss_le _ _).trans (unit_le_words _ (unit_le_every _))
  refine isSound_of_words hk hwords (fun _ _ hns => all_blockFields hns)
    (fun _ => parts_ne_nil hparts) fun hclean => ?_
  change n.parts ∈ token _ * (token _ * named faulty _ + amiss faulty 1) at hparts
  rw [amiss_eq_zero hclean, add_zero, named_eq hclean, ← mul_assoc] at hparts
  simpa only [HasAll, hk] using And.intro (name?_isSome_of_mem hk hparts place_behind_mark)
    (hasNamedFields_of_mem (childNodes_mem hwords))

/-- **A block or a binding is added**, or a token is passed over. -/
lemma adds_bodyItem :
    bodyItem.Adds (soundness faulty) full true (fun l => l.endsList .rBrace = false)
      (words isKnown (every (ofKind (orError isBodyItem)))) := by
  refine .branch ?input <| .branch ?output <| .branch ?burn <| .branch ?mint <|
    .branch ?reference <| .branch ?collateral <| .branch ?validity <| .branch ?locals <|
    .branch ?signers <| .branch ?metadata <| .branch ?cardano <| .branch ?binding ?other
  case input => exact (adds_inputBlock fun _ h => h.2).le (node_le_items _)
  case output => exact (adds_namedBlock rfl rfl fun _ h => h.2).le (node_le_items _)
  case burn => exact (adds_namedBlock rfl rfl fun _ h => h.2).le (node_le_items _)
  case mint => exact (adds_namedBlock rfl rfl fun _ h => h.2).le (node_le_items _)
  case reference => exact (adds_namedBlock rfl rfl fun _ h => h.2).le (node_le_items _)
  case collateral => exact (adds_plainBlock rfl rfl fun _ h => h.2).le (node_le_items _)
  case validity => exact (adds_plainBlock rfl rfl fun _ h => h.2).le (node_le_items _)
  case locals => exact (adds_localsBlock fun _ h => h.2).le (node_le_items _)
  case signers => exact (adds_signersBlock fun _ h => h.2).le (node_le_items _)
  case metadata => exact (adds_metadataBlock fun _ h => h.2).le (node_le_items _)
  case cardano => exact (adds_cardanoBlock fun _ h => h.2).le (node_le_items _)
  case binding =>
    refine ((adds_letBinding fun _ h => h.2).le (node_mono fun n hn => ?_)).le (node_le_items _)
    exact Bool.or_eq_true_iff.2 (.inr hn)
  case other =>
    refine adds_rejected ofKind_orError_of_error (fun l h => ?_) _
    have hend : l.endsList .rBrace = false := by tauto
    exact first_ne_none_of_not_endsList hend

/-! ## Parties, policies and assets -/

/-- A declaration has its name behind the word that opens it. -/
lemma isSound_declared {kind : TokenKind} (hk : n.kind = k) (hkind : isKnown kind = true)
    (hplace : ∀ ts, nameToken? k ts = (ts.drop 1).find? (·.kind != .star))
    (hparts : n.parts ∈ token (· == kind) * named faulty N)
    (hadmits : ∀ tokens, ∀ ns ∈ N + amiss faulty 1, k.admits tokens (ns.map (·.kind)) = true)
    (hall : n.name?.isSome = true → n.childNodes ∈ N → n.HasAll) : n.IsSound faulty :=
  isSound_of_named hk hparts (token_le_words (isKnown_of_beq hkind)) (place_second hplace) hadmits
    fun _ => hall

/-- A declaration without nodes below it. -/
lemma isSound_leaf {kind : TokenKind} (hk : n.kind = k) (hmember : k = .partyDecl ∨ k = .assetDecl)
    (hkind : isKnown kind = true) (hparts : n.parts ∈ token (· == kind) * named faulty 1) :
    n.IsSound faulty := by
  have hplace : ∀ ts, nameToken? k ts = (ts.drop 1).find? (·.kind != .star) := by
    rcases hmember with rfl | rfl <;> exact fun _ => rfl
  refine isSound_declared hk hkind hplace hparts (fun _ ns hns => ?_) fun hname _ => ?_
  · have hnil : ns = [] := hns.elim id fun h => h.2
    rw [hnil]
    rcases hmember with rfl | rfl <;> rfl
  · rcases hmember with rfl | rfl <;> simpa only [HasAll, hk] using hname

lemma adds_semicolon : semicolon.Adds (soundness faulty) full true P (words isKnown 1) :=
  adds_expected _ rfl

lemma adds_partyDecl (hP : ∀ l, P l → l.starts .partyKw = true) :
    partyDecl.Adds (soundness faulty) full true P (node (ofKind isDeclaration)) :=
  adds_node (by decide) ((adds_bump_of_starts hP).seq
    (adds_nameThen _ adds_semicolon fun _ => adds_eaten rfl)).turns fun n hk hparts =>
      ⟨isSound_leaf hk (.inl rfl) rfl hparts, ofKind_of_eq hk rfl⟩

lemma adds_assetDecl (hP : ∀ l, P l → l.starts .assetKw = true) :
    assetDecl.Adds (soundness faulty) full true P (node (ofKind isDeclaration)) := by
  have hvalue : (Rule.branch (·.startsWith fun k => k == .assetLiteral || k == .hexLiteral) .bump
      (.report "Expected asset identifier (hex literal or hex.\"token\")")).Adds (soundness faulty)
      full true (fun _ => True) (words isKnown 1) :=
    .branch (adds_mark_of_startsWith (fun _ h => h.2) (by decide))
      ((adds_missing _).le (words_le (amiss_le _ _)))
  exact adds_node (by decide) ((adds_bump_of_starts hP).seq
    (adds_named _ ((adds_expectThen_words _ rfl (hvalue.seq_marks adds_semicolon)).le
      (words_le (add_le le_rfl (amiss_le _ _)))))).turns fun n hk hparts =>
        ⟨isSound_leaf hk (.inr rfl) rfl hparts, ofKind_of_eq hk rfl⟩

/-- The path of an import takes in whatever stands there. -/
lemma adds_path : (Rule.node .pathExpr
      (.loop (fun l => l.endsList .rParen || l.starts .semicolon) .bump)).Adds (soundness faulty)
      full false P (node (ofKind (· == .pathExpr))) := by
  have hsome : ∀ l : Lookahead, (l.endsList .rParen || l.starts .semicolon) = false →
      l.startsWith (fun _ => true) = true := by
    intro l hl
    have hne := first_ne_none_of_not_endsList (Bool.or_eq_false_iff.1 hl).1
    obtain ⟨kind, hfirst⟩ := Option.ne_none_iff_exists'.1 hne
    rw [Lookahead.startsWith, hfirst]
    rfl
  have hloop : (loop (fun l => l.endsList .rParen || l.starts .semicolon) .bump).Turns
      (soundness faulty) full false P (words (fun _ => true) 1) (words (fun _ => true) 1) :=
    turns_loop_of_moves ((moves_bump hsome).le (words_mul_token_le fun _ => id))
  refine adds_node (by decide) (hloop.mono (fun _ => id) (unit_le_words _ le_rfl) le_rfl)
    fun n hk hparts => ⟨⟨?_, fun hpath => absurd hk hpath, fun _ => ⟨.inr hk, ?_⟩⟩,
      beq_iff_eq.2 hk⟩
  · rw [hk, childNodes_mem hparts]
    rfl
  · simp only [HasAll, hk]

/-- An import is known by its first token. -/
lemma isSound_import (hk : n.kind = .callExpr) (hparts : n.parts ∈
      opened (· == .importKw) (one (ofKind (· == .pathExpr)) + amiss faulty 1)) :
    n.IsSound faulty := by
  have hopen : ∀ k, (k == TokenKind.importKw) = true → isKnown k = true := isKnown_of_beq rfl
  have hwords := opened_le_words hopen _ hparts
  obtain ⟨t, qs, ht, -, hcons⟩ := exists_cons_of_mem_token_mul hparts
  have hhead : (n.significantTokens.map (·.kind)).head? = some .importKw := by
    rw [significantTokens_eq, hcons]
    exact congrArg some (eq_of_beq ht)
  refine ⟨?_, fun _ _ u hu => bne_iff_ne.1 (hwords.1 u hu),
    fun _ => ⟨.inl (children_ne_nil_of_parts (parts_ne_nil hparts)), hasAll_of_isPlain (hk ▸ rfl)⟩⟩
  rw [hk, admits, if_pos hhead]
  obtain ⟨m, hm, hnodes⟩ | hnone := childNodes_mem hwords
  · rw [hnodes]
    simpa [ofKind] using hm
  · rw [hnone.2]
    rfl

lemma adds_importCall (hP : ∀ l, P l → l.starts .importKw = true) :
    importCall.Adds (soundness faulty) full true P (node (ofKind (· == .callExpr))) := by
  exact adds_node (by decide) (adds_opened_of_starts hP
    (adds_expectThen_words _ rfl ((adds_path.le (node_le_words _ _)).seq_marks
      (adds_expected _ rfl)))).turns fun n hk hparts => ⟨isSound_import hk hparts, beq_iff_eq.2 hk⟩

/-- The value of a policy: an import, a literal or fields. -/
def policyNodes : Language Node := one (ofKind (· == .callExpr)) + every IsEntry

lemma unit_le_policyNodes : 1 ≤ policyNodes := (unit_le_every _).trans le_add_self

lemma isSound_policyDecl (hk : n.kind = .policyDecl)
    (hparts : n.parts ∈ token (· == .policyKw) * named faulty policyNodes) : n.IsSound faulty := by
  refine isSound_declared hk rfl (fun _ => rfl) hparts (fun _ ns hns => ?_) fun hname hnodes => ?_
  · obtain ⟨m, hm, rfl⟩ | hentries := add_amiss_le _ unit_le_policyNodes hns
    · rw [List.map_singleton, eq_of_beq hm]
      rfl
    · rw [admits, all_blockFields hentries, Bool.or_true]
  · suffices hfields : n.HasNamedFields by simpa only [HasAll, hk] using And.intro hname hfields
    obtain ⟨m, hm, hone⟩ | hentries := hnodes
    · intro m' hm' hfield
      rw [hone, List.mem_singleton] at hm'
      rw [hm', eq_of_beq hm] at hfield
      cases hfield
    · exact hasNamedFields_of_mem hentries

lemma adds_policyDecl (hP : ∀ l, P l → l.starts .policyKw = true) :
    policyDecl.Adds (soundness faulty) full true P (node (ofKind isDeclaration)) := by
  have hmissing : ∀ {P} message, (report message).Adds (soundness faulty) full true P
      (words isKnown policyNodes) := fun message =>
    (adds_missing message).le (words_le ((amiss_le _ _).trans unit_le_policyNodes))
  have hvalue : (Rule.branch (·.starts .importKw) importCall
      (.branch (·.starts .hexLiteral) .bump
        (.report "Expected 'import(path)' or hex literal for policy value"))).Adds
      (soundness faulty) full true (fun _ => True) (words isKnown policyNodes) := by
    refine .branch ((adds_importCall fun _ h => h.2).le
      ((node_le_words _ _).trans (words_le le_self_add))) (.branch ?_ (hmissing _))
    exact (adds_mark_of_starts rfl fun _ h => h.2).le
      (words_le unit_le_policyNodes)
  refine adds_node (by decide) ((adds_bump_of_starts hP).seq
    (adds_named _ (.branch ?assigned (.branch ?fields (hmissing _))))).turns fun n hk hparts =>
      ⟨isSound_policyDecl hk hparts, ofKind_of_eq hk rfl⟩
  case assigned =>
    exact ((adds_mark_of_starts rfl fun _ h => h.2).marks_seq hvalue).seq_marks adds_semicolon
  case fields => exact adds_fieldBlock.le (words_le le_add_self)

/-! ## Types, records and environments -/

lemma adds_caseTypes (hP : ∀ l, P l → l.starts .lParen = true) :
    caseTypes.Adds (soundness faulty) full true P (node (ofKind (· == .variantTupleParams))) :=
  adds_plain rfl (isKnown_of_beq rfl) (adds_opened_of_starts hP
    (adds_itemsThrough _ rfl ofKind_orError_of_error ((adds_type.seq_marks (adds_eaten rfl)).le
      (words_le ((typed_le faulty).trans (atMost_le_every ofKind_orError))))))
    (fun _ _ hns => all_map_kind hns) rfl

/-- The fields of a record or a case. -/
def fieldNodes : Language Node := every (ofKind (orError (· == .recordField)))

/-- What a case carries: its fields or its types. -/
def payloadNodes : Language Node := one (ofKind (· == .variantTupleParams)) + fieldNodes

lemma unit_le_payloadNodes : 1 ≤ payloadNodes := (unit_le_every _).trans le_add_self

lemma adds_variantCase :
    variantCase.Adds (soundness faulty) full true P (node (ofKind (· == .variantCase))) := by
  have hpayload : (Rule.branch (·.starts .lBrace) recordFields
      (.branch (·.starts .lParen) caseTypes .done)).Adds (soundness faulty) full false
      (fun _ => True) (words isKnown payloadNodes) := by
    refine .branch ?_ (.branch ?_ (adds_nothing unit_le_payloadNodes))
    · exact (adds_recordFields fun _ h => startsWith_of_starts h.2).weaken.le
        ((opened_le_words (isKnown_of_beq rfl) _).trans (words_le le_add_self))
    · exact (adds_caseTypes fun _ h => h.2).weaken.le
        ((node_le_words _ _).trans (words_le le_self_add))
  refine adds_node (by decide) (adds_named _ (hpayload.seq_marks (adds_eaten rfl))).turns
    fun n hk hparts => ⟨?_, beq_iff_eq.2 hk⟩
  rw [← one_mul (named faulty _)] at hparts
  refine isSound_of_named hk hparts (unit_le_words _ le_rfl) (place_first fun _ => rfl)
    (fun _ ns hns => ?_) fun _ hname _ => by simpa only [HasAll, hk] using hname
  obtain ⟨m, hm, rfl⟩ | hfields := add_amiss_le _ unit_le_payloadNodes hns
  · rw [List.map_singleton, eq_of_beq hm]
    rfl
  · rw [admits, all_map_kind hfields, Bool.or_true]

/-- A declaration whose kind is settled behind its name. -/
lemma adds_mark_nameThen {message : String} {yes no : Rule} {L : Language Element} {s' : Bool}
    (hP : ∀ l, P l → l.startsWith p = true)
    (hyes : yes.Turns (soundness faulty) full s (fun _ => True)
      (token p * token TokenKind.isName) L)
    (hno : faulty → no.Turns (soundness faulty) full s' (fun _ => True) (token p) L) :
    (Rule.mark (.bump ++ nameThen message yes no)).Adds (soundness faulty) full true P L :=
  adds_mark ((adds_bump hP).turns.seq (turns_nameThen message hyes hno))

/-- A declaration with a name, and nodes behind it. -/
lemma turns_wrap_named (hk : k ≠ .error) (hdecl : k.isDeclaration = true)
    (h : r.Adds (soundness faulty) full s P (words isKnown N))
    (hsound : ∀ n : Node, n.kind = k → n.parts ∈ token p * named faulty N → n.IsSound faulty) :
    (Rule.wrap k r).Turns (soundness faulty) full s P (token p * token TokenKind.isName)
      (node (ofKind isDeclaration)) := by
  refine turns_wrap hk (h _) fun n hn hparts => ⟨hsound n hn ?_, ofKind_of_eq hn hdecl⟩
  have hle : token p * (token TokenKind.isName * words isKnown N) ≤ token p * named faulty N :=
    mul_le_mul_right le_self_add _
  rw [mul_assoc] at hparts
  exact hle hparts

/-- A declaration without its name. -/
lemma turns_wrap_nameless (hk : k ≠ .error) (hdecl : k.isDeclaration = true) (hfaulty : faulty)
    (hsound : ∀ n : Node, n.kind = k → n.parts ∈ token p * named faulty N → n.IsSound faulty) :
    (Rule.wrap k .done).Turns (soundness faulty) full false P (token p)
      (node (ofKind isDeclaration)) := by
  refine turns_wrap hk turns_done fun n hn hparts => ⟨hsound n hn ?_, ofKind_of_eq hn hdecl⟩
  have hle : token p * 1 ≤ token p * named faulty N := mul_le_mul_right
    (le_trans (fun _ hps => ⟨hfaulty, unit_le_words _ le_rfl hps⟩) le_add_self) _
  rw [← mul_one (token p)] at hparts
  exact hle hparts

lemma isSound_recordDecl (hk : n.kind = .recordDecl)
    (hparts : n.parts ∈ token (· == .recordKw) * named faulty fieldNodes) : n.IsSound faulty :=
  isSound_declared hk rfl (fun _ => rfl) hparts
    (fun _ _ hns => all_map_kind (add_amiss_le _ (unit_le_every _) hns))
    fun hname _ => by simpa only [HasAll, hk] using hname

lemma adds_recordDecl (hP : ∀ l, P l → l.starts .recordKw = true) :
    recordDecl.Adds (soundness faulty) full true P (node (ofKind isDeclaration)) :=
  adds_mark_nameThen (fun l h => startsWith_of_starts (hP l h))
    (turns_wrap_named (by decide) rfl (adds_braced rfl rfl ofKind_orError_of_error
      (adds_recordField.le (node_le_items _))) fun _ => isSound_recordDecl)
    fun hfaulty => turns_wrap_nameless (by decide) rfl hfaulty fun _ => isSound_recordDecl

/-- What a type is made of: its fields or its cases. -/
def memberNodes : Language Node := fieldNodes + every (ofKind (orError (· == .variantCase)))

lemma unit_le_memberNodes : 1 ≤ memberNodes := (unit_le_every _).trans le_self_add

lemma isSound_typeDecl (hk : n.kind = .typeDecl)
    (hparts : n.parts ∈ token (· == .typeKw) * named faulty memberNodes) : n.IsSound faulty := by
  refine isSound_declared hk rfl (fun _ => rfl) hparts (fun _ ns hns => ?_)
    fun hname _ => by simpa only [HasAll, hk] using hname
  rw [admits, Bool.or_eq_true]
  exact (add_amiss_le _ unit_le_memberNodes hns).imp all_map_kind all_map_kind

/-- An alias has one type, with errors or without. -/
lemma isSound_typeAliasDecl (hk : n.kind = .typeAliasDecl) (hparts : n.parts ∈
      token (· == .typeKw) * (token TokenKind.isName * words isKnown (one (ofKind isType)))) :
    n.IsSound faulty := by
  have hwords : n.parts ∈ words isKnown (one (ofKind isType)) :=
    ((mul_le_mul_right (token_mul_words_le isKnown_of_isName) _).trans
      (token_mul_words_le (isKnown_of_beq rfl))) hparts
  refine isSound_of_words hk hwords (fun _ ns hns => ?_) (fun _ => parts_ne_nil hparts) fun _ => ?_
  · obtain ⟨m, hm, rfl⟩ := hns
    simpa [admits, ofKind] using hm
  · simpa only [HasAll, hk] using And.intro
      (name?_isSome_of_mem hk hparts (place_second fun _ => rfl))
      (hasType_of_mem (childNodes_mem hwords))

/-- The cases or the fields of a type. -/
lemma adds_members : (Rule.branch startsCase (.loop (·.endsList .rBrace) variantCase)
      (.loop (·.endsList .rBrace) recordField)).Adds (soundness faulty) full false P
      (words isKnown memberNodes) :=
  .branch ((adds_items ofKind_orError_of_error (adds_variantCase.le (node_le_items _))).le
    (words_le le_add_self))
    ((adds_items ofKind_orError_of_error (adds_recordField.le (node_le_items _))).le
      (words_le le_self_add))

lemma adds_typeDecl (hroom : ¬ full) (hP : ∀ l, P l → l.starts .typeKw = true) :
    typeDecl.Adds (soundness faulty) full true P (node (ofKind isDeclaration)) := by
  refine adds_mark_nameThen (s := true) (fun l h => startsWith_of_starts (hP l h))
    (.branch ?synonym (turns_wrap_named (by decide) rfl ?members fun _ => isSound_typeDecl))
    fun hfaulty => turns_wrap_nameless (by decide) rfl hfaulty fun _ => isSound_typeDecl
  case synonym =>
    refine turns_wrap (by decide) ((((adds_mark_of_starts rfl fun _ h => h.2).marks_seq
        ((adds_typeOrUnion hroom).le (node_le_words _ _))).seq_marks adds_semicolon) _)
          fun n hk hparts => ⟨isSound_typeAliasDecl hk ?_, ofKind_of_eq hk rfl⟩
    rwa [mul_assoc] at hparts
  case members =>
    exact (adds_expectThen_words _ rfl (adds_members.seq_marks (adds_expected _ rfl))).le
      (words_le (add_amiss_le _ unit_le_memberNodes))

lemma adds_envDecl (hP : ∀ l, P l → l.starts .envKw = true) :
    envDecl.Adds (soundness faulty) full true P (node (ofKind isDeclaration)) := by
  refine adds_plain (N := fieldNodes) rfl (isKnown_of_beq rfl)
    (adds_opened_of_starts (s := true) hP (.branch ?_ ?_)) (fun _ _ hns => all_map_kind hns) rfl
  · exact (adds_recordFields fun _ h => startsWith_of_starts h.2).le
      (opened_le_words (isKnown_of_beq rfl) _)
  · exact (adds_missing _).le (words_le ((amiss_le _ _).trans (unit_le_every _)))

/-! ## Transactions -/

lemma adds_txParam : txParam.Adds (soundness faulty) full true P (node (ofKind (· == .txParam))) :=
  adds_node (by decide) (adds_named _ adds_typeAfterName).turns fun _ hk hparts =>
    ⟨isSound_typed hk (.inr rfl) hparts, beq_iff_eq.2 hk⟩

lemma adds_paramList :
    paramList.Adds (soundness faulty) full true P (node (ofKind (· == .paramList))) := by
  have hparams : (.loop (fun l => l.endsList .rParen || l.starts .lBrace) (txParam ++ eat .comma) ++
      expect .rParen "Expected ')'" : Rule).Adds (soundness faulty) full true (fun _ => True)
      (words isKnown (every (ofKind (orError (· == .txParam))))) :=
    (adds_items ofKind_orError_of_error ((adds_txParam.le (node_le_items _)).seq_marks
      (adds_eaten rfl))).seq_marks (adds_expected _ rfl)
  refine adds_node (by decide) (adds_expectThen _ hparams fun _ => adds_done).turns
    fun n hk hparts => ⟨?_, beq_iff_eq.2 hk⟩
  have hwords : n.parts ∈ words isKnown (every (ofKind (orError (· == .txParam)))) :=
    add_le (token_mul_words_le (isKnown_of_beq rfl))
      ((amiss_le _ _).trans (unit_le_words _ (unit_le_every _))) hparts
  refine isSound_of_words hk hwords (fun _ _ hns => all_map_kind hns) (fun hclean => ?_)
    fun _ => hasAll_of_isPlain (hk ▸ rfl)
  change n.parts ∈ token _ * words isKnown _ + amiss faulty 1 at hparts
  rw [amiss_eq_zero hclean, add_zero] at hparts
  exact parts_ne_nil hparts

/-- The parameters of a transaction and its body. -/
def txNodes : Language Node :=
  one (ofKind (· == .paramList)) * every (ofKind (orError isBodyItem))

lemma isSound_txDecl (hk : n.kind = .txDecl)
    (hparts : n.parts ∈ token (· == .txKw) * named faulty txNodes) : n.IsSound faulty := by
  refine isSound_declared hk rfl (fun _ => rfl) hparts (fun _ ns hns => ?_)
    fun hname _ => by simpa only [HasAll, hk] using hname
  obtain ⟨_, ⟨m, hm, rfl⟩, ms, hms, rfl⟩ | hnone := hns
  · change (m.kind == .paramList && (ms.map (·.kind)).all (orError isBodyItem)) = true
    rw [all_map_kind hms, Bool.and_true]
    exact hm
  · rw [hnone.2]
    rfl

lemma adds_txDecl (hP : ∀ l, P l → l.starts .txKw = true) :
    txDecl.Adds (soundness faulty) full true P (node (ofKind isDeclaration)) :=
  adds_node (by decide) ((adds_bump_of_starts hP).seq
    (adds_named _ ((adds_paramList.le (node_le_words _ _)).seq_words
      (adds_braced rfl rfl ofKind_orError_of_error adds_bodyItem)))).turns fun n hk hparts =>
        ⟨isSound_txDecl hk hparts, ofKind_of_eq hk rfl⟩

/-! ## Files -/

/-- **A declaration is added**, or a token is passed over. -/
lemma adds_declaration (hroom : ¬ full) : declaration.Adds (soundness faulty) full true
    (fun l => l.isEnd = false) (words isKnown (every (ofKind (orError isDeclaration)))) := by
  refine .branch ?party <| .branch ?policy <| .branch ?record <| .branch ?type <| .branch ?tx <|
    .branch ?env <| .branch ?asset ?other
  case party => exact (adds_partyDecl fun _ h => h.2).le (node_le_items _)
  case policy => exact (adds_policyDecl fun _ h => h.2).le (node_le_items _)
  case record => exact (adds_recordDecl fun _ h => h.2).le (node_le_items _)
  case type => exact (adds_typeDecl hroom fun _ h => h.2).le (node_le_items _)
  case tx => exact (adds_txDecl fun _ h => h.2).le (node_le_items _)
  case env => exact (adds_envDecl fun _ h => h.2).le (node_le_items _)
  case asset => exact (adds_assetDecl fun _ h => h.2).le (node_le_items _)
  case other =>
    refine adds_rejected ofKind_orError_of_error (fun l h => ?_) _
    have hsome : l.isEnd = false := by tauto
    exact first_ne_none_of_not_isEnd hsome

/-- **A file is made of declarations**, and of tokens that were passed over. -/
lemma adds_file (hroom : ¬ full) : file.Adds (soundness faulty) full false P
    (words isKnown (every (ofKind (orError isDeclaration)))) :=
  adds_items ofKind_orError_of_error (adds_declaration hroom)

end Rules

end TxTree.Grammar
