import TxTree.Grammar.Declarations
import TxTree.Proofs.Schema

set_option relaxedAutoImplicit false
set_option autoImplicit false

/-!
# Types keep to the schema

Each nesting level makes what it should of what it starts from: a level of types one type, whatever
comes, and a level of expressions one expression in any number of parentheses, for which there may
be a token that was passed over, or nothing, where an error was reported. That each does so if all
do is all that has to be shown.

## Main definitions

* `TxTree.Grammar.operands` — the words of an expression.
* `TxTree.Grammar.soundness` — the contract that the nesting levels keep.

## Main results

* `TxTree.Grammar.adds_plain`, `TxTree.Grammar.adds_leaf` — the nodes of which little is demanded.
* `TxTree.Grammar.adds_typeRule`, `TxTree.Grammar.turns_arrayRule` — the levels of types keep it.
* `TxTree.Grammar.adds_typeOrUnion` — at the outermost level there is always a type.
-/

namespace TxTree.Grammar

open Rule NodeKind Node

/-! ## The contract -/

/-- Parentheses. -/
def isParen (k : TokenKind) : Bool := k == .lParen || k == .rParen

/-- The signs before an operand. -/
def isSign (k : TokenKind) : Bool := k == .bang || k == .minus

/-- What a suffix of an operand begins with. -/
def opensSuffix (k : TokenKind) : Bool := k == .dot || k == .lBracket

/-- A type; behind an error it may be missing. -/
def typed (faulty : Prop) : Language Node := one (ofKind isType) + amiss faulty 1

/-- An expression; behind an error there may be a token that was passed over, or nothing. -/
def valued (faulty : Prop) : Language Node :=
  one (ofKind isExpression) + amiss faulty (atMost 1 (ofKind (· == .error)))

/-- **The words of an expression**, in any number of parentheses. -/
def operands (faulty : Prop) : Language Element := words isParen (valued faulty)

/-- **The contract of the nesting levels**, under which all nodes are sound. -/
def soundness (faulty : Prop) : Contract where
  faulty := faulty
  law := IsSound faulty
  entry
    | .expression, _, _ => True
    | .signed, next, _ => next.startsWith isSign = true
    | .suffixed, next, ps => next.startsWith opensSuffix = true ∧ ps ∈ operands faulty
    | .type, _, _ => True
    | .array, next, ps =>
      (next.starts .lBracket && next.continues .rBracket) = true ∧ ps ∈ node (ofKind isType)
  result
    | .expression, ps, qs => ∃ w ∈ operands faulty, qs = ps ++ w
    | .signed, ps, qs => ∃ w ∈ operands faulty, qs = ps ++ w
    | .suffixed, _, qs => qs ∈ operands faulty
    | .type, ps, qs => ∃ w ∈ node (ofKind isType), qs = ps ++ w
    | .array, _, qs => qs ∈ node (ofKind isType)

section Rules

variable {faulty full : Prop} {s : Bool} {P : Lookahead → Prop} {r rest yes : Rule}
  {kind : TokenKind} {p : TokenKind → Bool} {N N' : Language Node}

/-! ## Common rules -/

lemma isKnown_of_beq (h : isKnown kind = true) : ∀ k, (k == kind) = true → isKnown k = true :=
  fun _ hk => eq_of_beq hk ▸ h

/-- A token opens a construct. -/
lemma adds_open (hP : ∀ l, P l → l.startsWith p = true) :
    bump.Adds (soundness faulty) full true P (opened p 1) :=
  (adds_bump hP).le ((mul_one _).symm.le.trans (mul_le_mul_right (unit_le_words _ le_rfl) _))

/-- A token opens a construct, and what came after it is known to come next. -/
lemma adds_open_append {P' : Lookahead → Prop} (hP : ∀ l, P l → l.startsWith p = true)
    (hnext : ∀ l m : Lookahead, P l → m.first = l.second → P' m)
    (h : r.Adds (soundness faulty) full s P' (words isKnown N)) :
    (.bump ++ r : Rule).Adds (soundness faulty) full true P (opened p N) :=
  adds_bump_append hP hnext h

lemma startsWith_of_continues {l m : Lookahead} (h : l.continues kind = true)
    (hm : m.first = l.second) : m.startsWith (· == kind) = true := by
  refine startsWith_of_starts ?_
  rw [Lookahead.starts, hm]
  exact h

/-- Two tokens open a construct. -/
lemma adds_openTwo {p' : TokenKind → Bool} (hP : ∀ l, P l → l.startsWith p = true)
    (hnext : ∀ l m : Lookahead, P l → m.first = l.second → m.startsWith p' = true)
    (hp' : ∀ k, p' k = true → isKnown k = true) :
    (.bump ++ .bump : Rule).Adds (soundness faulty) full true P (opened p 1) :=
  adds_open_append hP hnext (adds_mark_of_startsWith (fun _ h => h) hp')

/-- More nodes behind a token that opens a construct. -/
lemma Rule.Adds.opened_seq (h : r.Adds (soundness faulty) full true P (opened p N))
    (h' : rest.Adds (soundness faulty) full s (fun _ => True) (words isKnown N')) :
    (r ++ rest).Adds (soundness faulty) full true P (opened p (N * N')) := by
  refine (h.seq h').le ?_
  rw [opened, mul_assoc]
  exact mul_le_mul_right (words_mul_le _ _ _) _

/-- The first nodes behind the token that opens a construct. -/
lemma adds_opened (hP : ∀ l, P l → l.startsWith p = true)
    (h : r.Adds (soundness faulty) full s (fun _ => True) (words isKnown N)) :
    (.bump ++ r : Rule).Adds (soundness faulty) full true P (opened p N) :=
  ((adds_open hP).opened_seq h).le (by rw [one_mul])

lemma adds_opened_of_starts (hP : ∀ l, P l → l.starts kind = true)
    (h : r.Adds (soundness faulty) full s (fun _ => True) (words isKnown N)) :
    (.bump ++ r : Rule).Adds (soundness faulty) full true P (opened (· == kind) N) :=
  adds_opened (fun l hl => startsWith_of_starts (hP l hl)) h

/-- Nothing but tokens behind. -/
lemma Rule.Adds.opened_marks (h : r.Adds (soundness faulty) full true P (opened p N))
    (h' : rest.Adds (soundness faulty) full s (fun _ => True) (words isKnown 1)) :
    (r ++ rest).Adds (soundness faulty) full true P (opened p N) :=
  (h.opened_seq h').le (by rw [mul_one])

/-- A name and what is behind it. -/
lemma adds_named (message : String)
    (h : yes.Adds (soundness faulty) full s (fun _ => True) (words isKnown N)) :
    (nameThen message yes .done).Adds (soundness faulty) full true P (named faulty N) :=
  adds_nameThen message h fun _ => adds_nothing le_rfl

lemma unit_le_amiss {α : Type} (h : faulty) : (1 : Language α) ≤ amiss faulty 1 :=
  fun _ hps => ⟨h, hps⟩

/-! ## Types -/

lemma typed_eq (h : ¬ faulty) : typed faulty = one (ofKind isType) := by
  rw [typed, amiss_eq_zero h, add_zero]

lemma typed_le (faulty : Prop) : typed faulty ≤ atMost 1 (ofKind isType) :=
  add_le (one_le_atMost fun _ => id) ((amiss_le _ _).trans (unit_le_atMost 1 _))

lemma missing_type_le (faulty : Prop) : typed faulty + amiss faulty 1 ≤ atMost 1 (ofKind isType) :=
  add_le (typed_le faulty) ((amiss_le _ _).trans (unit_le_atMost 1 _))

/-- A type is added where there is room for it, whatever comes. -/
lemma adds_type_of_room (h : ¬ full) :
    type.Adds (soundness faulty) full true P (node (ofKind isType)) :=
  adds_nest (s := false) (fun _ _ _ => trivial) (fun _ _ h => h) fun hfull => absurd hfull h

/-- A type is added, or an error is found. -/
lemma adds_type : type.Adds (soundness faulty) full true P (words isKnown (typed faulty)) := by
  refine adds_nest (fun _ _ _ => trivial) (fun ps qs h => ?_)
    fun _ hfaulty => adds_nothing ((unit_le_amiss hfaulty).trans le_add_self)
  obtain ⟨w, hw, rfl⟩ := h
  exact ⟨w, words_le le_self_add (node_le_words _ _ hw), rfl⟩

lemma adds_typeAfterName :
    typeAfterName.Adds (soundness faulty) full true P (words isKnown (typed faulty)) := by
  have hmissing : faulty → (Rule.branch startsType type .done).Adds (soundness faulty) full false
      (fun _ => True) (words isKnown (typed faulty)) := fun hfaulty =>
    .branch adds_type.weaken (adds_nothing ((unit_le_amiss hfaulty).trans le_add_self))
  refine (adds_expectThen _ adds_type hmissing).le (add_le ?_ (amiss_le _ _))
  exact token_mul_words_le (isKnown_of_beq rfl)

/-- A field with a name and a type. -/
lemma isSound_typed {n : Node} {k : NodeKind} (hk : n.kind = k)
    (hmember : k = .recordField ∨ k = .txParam) (hparts : n.parts ∈ named faulty (typed faulty)) :
    n.IsSound faulty := by
  have hfirst : ∀ ts, nameToken? k ts = ts.head? := by
    rcases hmember with rfl | rfl <;> exact fun _ => rfl
  rw [← one_mul (named faulty _)] at hparts
  refine isSound_of_named hk hparts (unit_le_words _ le_rfl) (place_first hfirst)
    (fun _ ns hns => ?_) fun hclean hname hnodes => ?_
  · have hmost := upTo_map_kind (missing_type_le faulty hns)
    rcases hmember with rfl | rfl <;> exact hmost
  · rw [typed_eq hclean] at hnodes
    have hall := And.intro hname (hasType_of_mem hnodes)
    rcases hmember with rfl | rfl <;> simpa only [HasAll, hk] using hall

lemma adds_recordField :
    recordField.Adds (soundness faulty) full true P (node (ofKind (· == .recordField))) :=
  adds_node (by decide)
    (adds_named _ (adds_typeAfterName.seq_marks (adds_eaten rfl))).turns fun _ hk hparts =>
      ⟨isSound_typed hk (.inl rfl) hparts, beq_iff_eq.2 hk⟩

lemma ofKind_orError_of_error {p : NodeKind → Bool} (n : Node) (h : n.kind = .error) :
    ofKind (orError p) n := by
  rw [ofKind, orError, h]
  exact Bool.or_true _

lemma ofKind_orError {p : NodeKind → Bool} (n : Node) (h : ofKind p n) : ofKind (orError p) n := by
  rw [ofKind, orError, h]
  rfl

/-- Items of a set of kinds, or tokens that were passed over. -/
lemma node_le_items (p : NodeKind → Bool) :
    node (ofKind p) ≤ words isKnown (every (ofKind (orError p))) :=
  (node_le_words _ _).trans (words_le (one_le_every ofKind_orError))

lemma adds_recordFields (hP : ∀ l, P l → l.startsWith (· == .lBrace) = true) :
    recordFields.Adds (soundness faulty) full true P
      (opened (· == .lBrace) (every (ofKind (orError (· == .recordField))))) :=
  adds_opened hP (adds_itemsThrough _ rfl ofKind_orError_of_error
    (adds_recordField.le (node_le_items _)))

lemma adds_node_of_opened {k : NodeKind} {q : NodeKind → Bool} (hk : k ≠ .error)
    (hp : ∀ k, p k = true → isKnown k = true) (h : r.Adds (soundness faulty) full s P (opened p N))
    (hadmits : ∀ tokens, ∀ ns ∈ N, k.admits tokens (ns.map (·.kind)) = true)
    (hall : ∀ n : Node, n.kind = k → ¬ faulty → n.childNodes ∈ N → n.HasAll) (hq : q k = true) :
    (Rule.node k r).Adds (soundness faulty) full s P (node (ofKind q)) :=
  adds_node hk h.turns fun n hn hparts =>
    ⟨isSound_of_opened hn hparts hp hadmits (hall n hn), ofKind_of_eq hn hq⟩

/-- A node of which nothing but a token is demanded. -/
lemma adds_plain {k : NodeKind} {q : NodeKind → Bool} (hk : k.isPlain = true)
    (hp : ∀ k, p k = true → isKnown k = true) (h : r.Adds (soundness faulty) full s P (opened p N))
    (hadmits : ∀ tokens, ∀ ns ∈ N, k.admits tokens (ns.map (·.kind)) = true) (hq : q k = true) :
    (Rule.node k r).Adds (soundness faulty) full s P (node (ofKind q)) := by
  refine adds_node_of_opened ?_ hp h hadmits (fun n hn _ _ => hasAll_of_isPlain (hn ▸ hk)) hq
  rintro rfl
  cases hk

/-- A node of tokens alone. -/
lemma adds_leaf {k : NodeKind} {q : NodeKind → Bool} (hk : k.isPlain = true)
    (hp : ∀ k, p k = true → isKnown k = true) (h : r.Adds (soundness faulty) full s P (opened p 1))
    (hadmits : ∀ tokens, k.admits tokens [] = true) (hq : q k = true) :
    (Rule.node k r).Adds (soundness faulty) full s P (node (ofKind q)) := by
  refine adds_plain hk hp h (fun tokens ns hns => ?_) hq
  rw [hns]
  exact hadmits tokens

/-- Types in angle brackets, if there are any. -/
lemma adds_angles {b : Nat} {args : Rule}
    (h : args.Adds (soundness faulty) full true (fun l => (True ∧ l.starts .lt = true))
      (words isKnown (atMost b (ofKind isType)))) :
    (Rule.branch (·.starts .lt) args .done).Adds (soundness faulty) full false (fun _ => True)
      (words isKnown (atMost b (ofKind isType))) :=
  .branch h.weaken (adds_nothing (unit_le_atMost b _))

lemma adds_baseType : baseType.Adds (soundness faulty) full true P (node (ofKind isType)) := by
  have htype : ∀ P, type.Adds (soundness faulty) full true P
      (words isKnown (atMost 1 (ofKind isType))) := fun _ =>
    adds_type.le (words_le (typed_le faulty))
  refine .branch ?list <| .branch ?generic <| .branch ?map <| .branch ?record <| .branch ?ref ?none
  case list =>
    exact adds_plain rfl (isKnown_of_beq rfl)
      ((adds_opened_of_starts (fun _ h => h.2) (htype _)).opened_marks
        (adds_expected _ rfl)) (fun _ _ hns => upTo_map_kind (b := 1) hns) rfl
  case generic =>
    refine adds_plain rfl (isKnown_of_beq rfl)
      (adds_opened_of_starts (fun _ h => h.2) (adds_angles (b := 1) ?_))
      (fun _ _ hns => upTo_map_kind hns) rfl
    exact ((adds_mark_of_starts rfl fun _ h => h.2).marks_seq (htype _)).seq_marks
      (adds_expected _ rfl)
  case map =>
    refine adds_plain rfl (isKnown_of_beq rfl)
      (adds_opened_of_starts (fun _ h => h.2) (adds_angles (b := 2) ?_))
      (fun _ _ hns => upTo_map_kind hns) rfl
    refine Rule.Adds.le ?_ (words_le (mul_atMost_le 1 1 _))
    exact ((((adds_mark_of_starts rfl fun _ h => h.2).marks_seq (htype _)).seq_marks
      (adds_eaten rfl)).seq_words (htype _)).seq_marks (adds_expected _ rfl)
  case record =>
    exact adds_plain rfl (isKnown_of_beq rfl)
      (adds_recordFields fun _ h => startsWith_of_starts h.2) (fun _ _ hns => all_map_kind hns) rfl
  case ref =>
    exact adds_leaf rfl (by decide) (adds_open fun _ h => h.2) (fun _ => rfl) rfl
  case none =>
    refine (adds_report_append (s := false) _ fun hfaulty => ?_).le (amiss_le _ _)
    refine adds_node (by decide) adds_done.turns fun n hk hparts => ⟨?_, ofKind_of_eq hk rfl⟩
    have hwords : n.parts ∈ words isKnown 1 := unit_le_words _ le_rfl hparts
    exact isSound_of_words hk hwords (fun _ _ hns => by rw [hns]; rfl) (absurd hfaulty)
      (absurd hfaulty)

/-- The brackets behind a type make one type of it. -/
lemma turns_arraySuffixes : arraySuffixes.Turns (soundness faulty) full false P
    (node (ofKind isType)) (node (ofKind isType)) :=
  .branch (turns_nest (fun _ hl _ hps => And.intro hl.2 hps) (fun _ _ _ h => h)
    fun _ _ => turns_done).weaken turns_done

/-- **A type is added**, whatever comes. -/
lemma adds_typeRule : typeRule.Adds (soundness faulty) full true P (node (ofKind isType)) :=
  adds_mark (adds_baseType.turns.seq turns_arraySuffixes)

/-- A pair of brackets makes one type of the type before it. -/
lemma turns_arrayRule : arrayRule.Turns (soundness faulty) full true
    (fun l => (l.starts .lBracket && l.continues .rBracket) = true)
    (node (ofKind isType)) (node (ofKind isType)) := by
  have hbrackets : (.bump ++ .bump : Rule).Adds (soundness faulty) full true
      (fun l => (l.starts .lBracket && l.continues .rBracket) = true) (words isKnown 1) :=
    (adds_openTwo (fun l h => startsWith_of_starts (Bool.and_eq_true_iff.1 h).1)
      (fun l m h hm => startsWith_of_continues (Bool.and_eq_true_iff.1 h).2 hm)
      (isKnown_of_beq rfl)).le (token_mul_words_le (isKnown_of_beq rfl))
  refine Rule.Turns.seq (turns_wrap (by decide) (hbrackets _) fun n hk hparts => ⟨?_, ?_⟩)
    turns_arraySuffixes
  · have hwords : n.parts ∈ words isKnown (one (ofKind isType)) := by
      rw [← mul_one (one _)]
      exact words_mul_le _ _ _ (mul_le_mul_left (node_le_words _ _) _ hparts)
    refine isSound_of_words hk hwords (fun _ ns hns => ?_) (fun _ => parts_ne_nil_of_mem hwords)
      fun _ => hasAll_of_isPlain (hk ▸ rfl)
    obtain ⟨m, hm, rfl⟩ := hns
    simpa [admits, ofKind] using hm
  · exact ofKind_of_eq hk rfl

/-- Where there is room for types, one type or a union is added. -/
lemma adds_typeOrUnion (h : ¬ full) :
    typeOrUnion.Adds (soundness faulty) full true P (node (ofKind isType)) := by
  have hone : node (ofKind isType) ≤ words isKnown (atLeast 1 (ofKind isType)) :=
    (node_le_words _ _).trans (words_le (one_le_atLeast _))
  -- One more type behind a bar.
  have hstep : ∀ b, words isKnown (atLeast b (ofKind isType)) * token (· == .pipe) *
      node (ofKind isType) ≤ words isKnown (atLeast (b + 1) (ofKind isType)) := fun b =>
    (mul_le_mul' (words_mul_token_le (isKnown_of_beq rfl)) hone).trans
      ((words_mul_le _ _ _).trans (words_le (mul_atLeast_le b 1 _)))
  have hbar : ∀ l : Lookahead, (!l.starts .pipe) = false → l.startsWith (· == .pipe) = true :=
    fun l hl => startsWith_of_starts (by simpa using hl)
  have hloop : ∀ L b, L ≤ words isKnown (atLeast b (ofKind isType)) → 1 ≤ b →
      (.bump ++ type : Rule).Moves (soundness faulty) full (fun l => (!l.starts .pipe) = false) L
        (words isKnown (atLeast 2 (ofKind isType))) := fun L b hL hb =>
    (moves_bump hbar).append ((adds_type_of_room h _).le
      (((mul_le_mul_left (mul_le_mul_left hL _) _).trans (hstep b)).trans
        (words_le (atLeast_anti (by omega)))))
  have hunion : (wrap .unionType (loop (fun l => !l.starts .pipe) (.bump ++ type))).Turns
      (soundness faulty) full false (fun l => l.starts .pipe = true) (node (ofKind isType))
      (node (ofKind isType)) := by
    refine turns_wrap (by decide) (turns_loop_of_not_stop (fun l hl => by rw [hl]; rfl)
      (hloop _ 1 hone le_rfl) (hloop _ 2 le_rfl (by omega))) fun n hk hparts => ⟨?_, ?_⟩
    · refine isSound_of_words hk hparts (fun _ ns hns => ?_) (fun _ hnil => ?_)
        fun _ => hasAll_of_isPlain (hk ▸ rfl)
      · rw [admits, all_map_kind hns.2, List.length_map, Bool.and_true, decide_eq_true_iff]
        exact hns.1
      · have hlength := hparts.2.1
        rw [hnil] at hlength
        exact absurd hlength (by decide)
    · exact ofKind_of_eq hk rfl
  exact adds_mark ((adds_type_of_room h).turns.seq
    (.branch (hunion.mono (fun _ hl => hl.2) le_rfl le_rfl) turns_done))

end Rules

end TxTree.Grammar
