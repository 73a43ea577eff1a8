import TxTree.Proofs.Arrangement

set_option relaxedAutoImplicit false
set_option autoImplicit false

/-!
# Commas between items

Whether a comma follows an item is told by the child list of the node that holds it, wherever the
comma is: as the last token of the item itself, or between the item and the next. Looking for it
by the kind of the item finds the same in the tree of a clean text, except in lists of expressions:
a spread in a list does not hold the comma behind it as one in a record does, and behind an
expression in parentheses the closing one stands before the comma.

## Main definitions

* `TxTree.Node.commaFollows` — whether a comma stands between a child and the next child node.
* `TxTree.Separated` — what stands between an item and the next, by the kind of the node.
* `TxTree.Spaced` — whether it is so between all child nodes.

## Main results

* `TxTree.Grammar.spaced_of_form` — it is so in each node that has its form.
* `TxTree.parse_hasTrailingComma` — where a comma is found, and where it is not.
-/

namespace TxTree

open Grammar
open scoped Computability

/-! ## Looking for commas -/

namespace NodeKind

/-- The kinds whose items are expressions that have the comma behind them. -/
def listsExpressions (k : NodeKind) : Bool := k == .listExpr || k == .argList || k == .signersBlock

/-- The kinds whose items may have commas between them. -/
def isListing : NodeKind → Bool
  | .listExpr | .argList | .paramList | .variantTupleParams | .typeDecl | .recordDecl | .envDecl
  | .variantCase | .anonymousRecordType | .recordLiteral | .variantExpr => true
  | k => k.isBlock

/-- The only expression that holds the comma behind it is a spread. -/
lemma holdsOwnComma_iff_of_isExpression {k : NodeKind} (h : k.isExpression = true) :
    k.holdsOwnComma = true ↔ k = .spreadExpr := by
  revert h
  cases k <;> decide

end NodeKind

namespace Element

/-- Whether an element is a comma. -/
def isComma (c : Element) : Bool := c.token?.any (·.kind == .comma)

/-- The elements before the first node. -/
def gap (cs : List Element) : List Element := cs.takeWhile (·.node?.isNone)

end Element

namespace Node

/-- **Whether a comma stands between the child node at an index and the next child node**: as the
last token directly below the child, or as one of those between the two. -/
def commaFollows (n : Node) (index : Nat) : Bool :=
  (n.children[index]?.bind Element.node?).any (·.endsInComma) ||
    (Element.gap (n.children.drop (index + 1))).any (·.isComma)

/-- What comes after the child at an index, if it is a token other than white space and comments. -/
def tokenAfter? (n : Node) (index : Nat) : Option Token :=
  ((n.children.drop (index + 1)).find? (!·.isTrivia)).bind Element.token?

end Node

/-! ## Spacing -/

/-- **What stands between an item and the next**, by the kind of the node that holds them: nothing
behind an entry, which holds its own comma; a comma, if any, behind a parameter or a type; and
behind an expression the parentheses around it as well, and those around the next. -/
inductive Separated (k : NodeKind) (m : Node) (gap : List Element) : Prop
  /-- Behind an entry. -/
  | entry (hk : k.listsExpressions = false) (hm : m.kind.holdsOwnComma = true) (hgap : gap = [])
  /-- Behind a parameter or a type. -/
  | item (hk : k.listsExpressions = false) (hm : m.kind.holdsOwnComma = false)
    (hend : m.endsInComma = false) (hgap : gap ∈ commaIfAny)
  /-- Behind an expression. -/
  | expression (hk : k.listsExpressions = true) (hm : m.kind.isExpression = true)
    (hend : m.endsInComma = false)
    (hgap : gap ∈ (token (· == .rParen))∗ * commaIfAny * (token (· == .lParen))∗)

/-- **All nodes of a list that have another behind them** are spaced from it as they should. -/
def Spaced (G : Node → List Element → Prop) : List Element → Prop
  | [] => True
  | .token _ :: ps => Spaced G ps
  | .node m :: ps => ((∃ m', .node m' ∈ ps) → G m (Element.gap ps)) ∧ Spaced G ps

namespace Spaced

variable {G : Node → List Element → Prop} {T U : Language Element} {q : Node → Prop}
  {ps qs : List Element} {m m' : Node}

/-- What is known of a node that has another behind it. -/
lemma of_append (h : Spaced G (ps ++ .node m :: qs)) (hm : .node m' ∈ qs) :
    G m (Element.gap qs) := by
  induction ps with
  | nil => exact h.1 ⟨m', hm⟩
  | cons c ps ih =>
    cases c with
    | token t => exact ih h
    | node n => exact ih h.2

/-- There is no node among tokens alone. -/
lemma node?_of_mem_marks (h : ps ∈ marks) : ∀ c ∈ ps, c.node? = none :=
  List.filterMap_eq_nil_iff.1 h.2

lemma not_mem_marks (h : ps ∈ marks) : .node m ∉ ps :=
  fun hm => nomatch node?_of_mem_marks h _ hm

/-- Tokens before a list do not matter, … -/
lemma marks_append_iff (h : ps ∈ marks) : Spaced G (ps ++ qs) ↔ Spaced G qs := by
  have hnone := node?_of_mem_marks h
  clear h
  induction ps with
  | nil => exact Iff.rfl
  | cons c ps ih =>
    rw [List.forall_mem_cons] at hnone
    cases c with
    | token t => exact ih hnone.2
    | node n => cases hnone.1

/-- … but they are before its first node. -/
lemma gap_marks_append (h : ps ∈ marks) : Element.gap (ps ++ qs) = ps ++ Element.gap qs :=
  List.takeWhile_append_of_pos fun c hc => by rw [node?_of_mem_marks h c hc]; rfl

/-- Tokens alone are spaced. -/
lemma of_marks (h : ps ∈ marks) : Spaced G ps := by
  have hiff : Spaced G (ps ++ []) ↔ Spaced G [] := marks_append_iff h
  rw [List.append_nil] at hiff
  exact hiff.2 trivial

/-- A single node has no other behind it. -/
lemma of_single (h : ps ∈ marks * node q * marks) : Spaced G ps := by
  obtain ⟨_, ⟨ps, hps, _, ⟨m, -, rfl⟩, rfl⟩, qs, hqs, rfl⟩ := h
  change Spaced G (ps ++ [Element.node m] ++ qs)
  rw [List.append_assoc, marks_append_iff hps]
  refine ⟨?_, of_marks hqs⟩
  rintro ⟨m', hm'⟩
  exact absurd hm' (not_mem_marks hqs)

/-- Words that are spaced, with a word of a language before the first node, if there is one. -/
def wordsFrom (G : Node → List Element → Prop) (T : Language Element) : Language Element :=
  {ps | Spaced G ps ∧ ((∃ m, .node m ∈ ps) → Element.gap ps ∈ T)}

lemma marks_le_wordsFrom : marks ≤ wordsFrom G T := fun _ hps =>
  ⟨of_marks hps, fun ⟨_, hm⟩ => absurd hm (not_mem_marks hps)⟩

/-- One item more. -/
lemma item_mul_le (hT : T ≤ marks) (hU : U ≤ marks)
    (hG : ∀ m, q m → ∀ us ∈ U, ∀ ts ∈ T, G m (us ++ ts)) :
    T * node q * U * wordsFrom G T ≤ wordsFrom G T := by
  rintro _ ⟨_, ⟨_, ⟨ts, hts, _, ⟨m, hm, rfl⟩, rfl⟩, us, hus, rfl⟩, ps, ⟨hps, hlead⟩, rfl⟩
  change ts ++ [Element.node m] ++ us ++ ps ∈ wordsFrom G T
  rw [List.append_assoc, List.append_assoc, List.singleton_append]
  refine ⟨(marks_append_iff (hT hts)).2 ⟨?_, (marks_append_iff (hU hus)).2 hps⟩, fun _ => ?_⟩
  · rintro ⟨m', hm'⟩
    have hnext : .node m' ∈ ps :=
      (List.mem_append.1 hm').resolve_left (not_mem_marks (hU hus))
    change G m (Element.gap (us ++ ps))
    rw [gap_marks_append (hU hus)]
    exact hG m hm us hus _ (hlead ⟨m', hnext⟩)
  · rw [gap_marks_append (hT hts)]
    change ts ++ [] ∈ T
    rwa [List.append_nil]

/-- **Items over and over are spaced** by what is behind each of them and before the next.

**Proof sketch.** From the last item on: what is before the first of some items is what may stand
before an item, and stands behind the one before it. -/
lemma of_rows (hT : T ≤ marks) (hU : U ≤ marks)
    (hG : ∀ m, q m → ∀ us ∈ U, ∀ ts ∈ T, G m (us ++ ts)) (h : ps ∈ rows (T * node q * U)) :
    Spaced G ps := by
  obtain ⟨os, hos, rest, hrest, rfl⟩ := h
  have hitems : (T * node q * U)∗ * marks ≤ wordsFrom G T :=
    kstar_mul_le marks_le_wordsFrom (item_mul_le hT hU hG)
  exact (marks_append_iff hos).2 (hitems hrest).1

end Spaced

/-! ## Spacing by the kind of a node -/

namespace Grammar

open NodeKind

variable {k : NodeKind} {n : Node} {ps : List Element} {p : NodeKind → Bool}

lemma tokens_le_marks (p : TokenKind → Bool) : (token p)∗ ≤ marks :=
  kstar_le_of_mul_le_left unit_le_marks ((mul_le_mul_right (token_le_marks p) _).trans marks_mul_le)

/-- Entries have nothing between them. -/
lemma spaced_entries (hk : k.listsExpressions = false) (h : ps ∈ rows entry) :
    Spaced (Separated k) ps := by
  have hentry : entry = 1 * entry * 1 := by rw [one_mul, mul_one]
  rw [hentry] at h
  refine Spaced.of_rows unit_le_marks unit_le_marks (fun m hm us hus ts hts => ?_) h
  exact .entry hk hm (by rw [hus, hts]; rfl)

/-- Parameters and types have commas between them. -/
lemma spaced_items (hk : k.listsExpressions = false)
    (hp : ∀ k, p k = true → k.holdsOwnComma = false)
    (h : ps ∈ rows (node (bare p) * commaIfAny)) : Spaced (Separated k) ps := by
  rw [← one_mul (node _)] at h
  refine Spaced.of_rows unit_le_marks commaIfAny_le_marks (fun m hm us hus ts hts => ?_) h
  rw [hts, List.append_nil]
  exact .item hk (hp _ hm.1) hm.2 hus

/-- Expressions have commas and parentheses between them. -/
lemma spaced_values (hk : k.listsExpressions = true) (h : ps ∈ rows (value * commaIfAny)) :
    Spaced (Separated k) ps := by
  rw [value, grouped, mul_assoc (_ * _)] at h
  have hbehind : (token (· == .rParen))∗ * commaIfAny ≤ marks :=
    (mul_le_mul' (tokens_le_marks _) commaIfAny_le_marks).trans marks_mul_le
  refine Spaced.of_rows (tokens_le_marks _) hbehind (fun m hm us hus ts hts => ?_) h
  exact .expression hk hm.1 hm.2 (Language.append_mem_mul hus hts)

/-- **In each node that has its form** items are separated as its kind says. -/
theorem spaced_of_form (hk : n.kind.isListing = true) (h : n.parts ∈ form n.kind) :
    Spaced (Separated n.kind) n.parts := by
  revert hk h
  cases n.kind
  case listExpr | argList | signersBlock => exact fun _ h => spaced_values rfl h
  case paramList | variantTupleParams =>
    exact fun _ h => spaced_items rfl (fun k => by cases k <;> decide) h
  case variantCase => exact fun _ h => h.2.elim (spaced_entries rfl) Spaced.of_single
  all_goals first
    | exact fun _ h => spaced_entries rfl h
    | exact nofun

end Grammar

/-! ## What is found -/

namespace Element

/-- The elements before the first node, white space and comments apart. -/
lemma gap_parts (cs : List Element) : gap (parts cs) = parts (gap cs) := by
  induction cs with
  | nil => rfl
  | cons c cs ih =>
    cases c with
    | node n => rfl
    | token t => cases h : t.isTrivia <;> simp_all [gap, parts, isTrivia, node?]

/-- White space and comments are no commas. -/
lemma any_isComma_parts (cs : List Element) : (parts cs).any isComma = cs.any isComma := by
  have hcomma : ∀ c : Element, (!c.isTrivia && c.isComma) = c.isComma := by
    intro c
    cases hc : c.isComma with
    | false => exact Bool.and_false _
    | true =>
      cases c with
      | node n => cases hc
      | token t =>
        have ht : t.kind = .comma := eq_of_beq hc
        rw [isTrivia, Token.isTrivia, ht]
        rfl
  rw [parts, List.any_filter, List.any_congr rfl hcomma]

/-- Where a node comes, what is before it is followed by one. -/
lemma exists_gap_append {m : Node} {cs : List Element} (h : .node m ∈ cs) :
    ∃ n rest, cs = gap cs ++ .node n :: rest := by
  induction cs with
  | nil => cases h
  | cons c cs ih =>
    cases c with
    | node n => exact ⟨n, cs, rfl⟩
    | token t =>
      obtain ⟨n, rest, heq⟩ := ih ((List.mem_cons.1 h).resolve_left Element.noConfusion)
      exact ⟨n, rest, congrArg (Element.token t :: ·) heq⟩

end Element

namespace Node

variable {m m' n : Node} {i : Nat}

/-- The parts of a node before and behind a child. -/
lemma parts_eq_of_getElem? (h : n.children[i]? = some (.node m)) :
    n.parts = Element.parts (n.children.take i) ++
      .node m :: Element.parts (n.children.drop (i + 1)) := by
  obtain ⟨hi, hget⟩ := List.getElem?_eq_some_iff.1 h
  calc n.parts = Element.parts (n.children.take i ++ n.children.drop i) := by
        rw [List.take_append_drop, parts]
    _ = _ := by
        rw [List.drop_eq_getElem_cons hi, hget, Element.parts_append]
        rfl

/-- What is looked at for a comma behind a child. -/
lemma hasTrailingComma_eq (h : n.children[i]? = some (.node m)) :
    n.hasTrailingComma i = (if m.kind.holdsOwnComma then m.parts.getLast?
      else (Element.parts (n.children.drop (i + 1))).head?).any Element.isComma := by
  have hlast : m.children.reverse.find? (!·.isTrivia) = m.parts.getLast? := by
    rw [parts, Element.parts, List.getLast?_eq_head?_reverse, ← List.filter_reverse,
      List.head?_filter]
  have hnext : (n.children.drop (i + 1)).find? (!·.isTrivia) =
      (Element.parts (n.children.drop (i + 1))).head? := by rw [Element.parts, List.head?_filter]
  rw [hasTrailingComma, h]
  simp only [hlast, hnext, Option.any_bind]
  rfl

lemma tokenAfter?_eq (n : Node) (i : Nat) :
    n.tokenAfter? i = (Element.parts (n.children.drop (i + 1))).head?.bind Element.token? := by
  rw [tokenAfter?, Element.parts, List.head?_filter]

lemma commaFollows_eq (h : n.children[i]? = some (.node m)) :
    n.commaFollows i = (m.endsInComma ||
      (Element.gap (Element.parts (n.children.drop (i + 1)))).any (·.isComma)) := by
  rw [commaFollows, h, Element.gap_parts, Element.any_isComma_parts]
  rfl

/-- A comma that is the last part of a node is the last of its tokens. -/
lemma endsInComma_of_parts (h : m.parts.getLast?.any Element.isComma = true) :
    m.endsInComma = true := by
  cases hlast : m.parts.getLast? with
  | none =>
    rw [hlast] at h
    cases h
  | some c =>
    rw [hlast] at h
    obtain ⟨before, hparts⟩ := List.getLast?_eq_some_iff.1 hlast
    obtain ⟨t, rfl, hcomma⟩ : ∃ t, c = .token t ∧ (t.kind == .comma) = true := by
      cases c with
      | node n => cases h
      | token t => exact ⟨t, rfl, h⟩
    have htokens : m.significantTokens = before.filterMap Element.token? ++ [t] := by
      rw [significantTokens_eq, hparts, List.filterMap_append]
      rfl
    rw [endsInComma, htokens, List.getLast?_concat]
    exact hcomma

/-- Where the last token can only be a comma if it is the last part, it is found there. -/
lemma getLast?_any_isComma (h : m.parts ∈ plain * commaIfAny) :
    m.parts.getLast?.any Element.isComma = m.endsInComma := by
  obtain ⟨ps, hps, _, ⟨t, ht, rfl⟩ | rfl, heq⟩ := h
  · have hlast : m.parts.getLast?.any Element.isComma = true := by
      rw [← heq]
      change (ps ++ [Element.token t]).getLast?.any _ = true
      rw [List.getLast?_concat]
      exact ht
    rw [hlast, endsInComma_of_parts hlast]
  · have hplain : m.parts ∈ plain := by
      rw [← heq]
      change ps ++ [] ∈ plain
      rwa [List.append_nil]
    rw [endsInComma_eq_false hplain, Bool.eq_false_iff]
    intro hlast
    have hends := endsInComma_of_parts hlast
    rw [endsInComma_eq_false hplain] at hends
    cases hends

/-- Words without commas. -/
lemma any_isComma_of_commaless {ps : List Element} (h : ps ∈ commaless) :
    ps.any (·.isComma) = false := by
  rw [List.any_eq_false]
  intro c hc hcomma
  cases c with
  | node n => cases hcomma
  | token t => exact bne_iff_ne.1 (h.1 t hc) (eq_of_beq hcomma)

/-- A word of tokens of one sort begins with such a token, or is empty. -/
lemma eq_nil_or_cons_of_mem_kstar {p : TokenKind → Bool} {ps : List Element}
    (h : ps ∈ (token p)∗) :
    ps = [] ∨ ∃ (t : Token) (qs : List Element), p t.kind = true ∧ ps = .token t :: qs := by
  rw [← Language.one_add_self_mul_kstar_eq_kstar] at h
  refine h.imp id fun h => ?_
  obtain ⟨t, qs, ht, -, heq⟩ := exists_cons_of_mem_token_mul h
  exact ⟨t, qs, ht, heq⟩

/-- Behind an expression a comma comes next if there is one and no closing parenthesis is before
it. -/
lemma head?_any_isComma {ps rest : List Element} {next : Node}
    (h : ps ∈ (token (· == .rParen))∗ * commaIfAny * (token (· == .lParen))∗) :
    (ps ++ .node next :: rest).head?.any (·.isComma) = (ps.any (·.isComma) &&
      !((ps ++ .node next :: rest).head?.bind Element.token?).any (·.kind == .rParen)) := by
  obtain ⟨_, ⟨rs, hrs, cs, hcs, rfl⟩, ls, hls, rfl⟩ := h
  obtain rfl | ⟨t, us, ht, rfl⟩ := eq_nil_or_cons_of_mem_kstar hrs
  · obtain ⟨t, ht, rfl⟩ | rfl := hcs
    · -- The comma comes next.
      change (t.kind == .comma) = ((t.kind == .comma || ls.any (·.isComma)) && !(t.kind == .rParen))
      rw [eq_of_beq ht]
      rfl
    · -- There is no comma.
      change (ls ++ .node next :: rest).head?.any (·.isComma) = (ls.any (·.isComma) && _)
      rw [any_isComma_of_commaless (kstar_le_commaless (token_le_commaless rfl) hls),
        Bool.false_and]
      obtain rfl | ⟨t, us, ht, rfl⟩ := eq_nil_or_cons_of_mem_kstar hls
      · rfl
      · change (t.kind == .comma) = false
        rw [eq_of_beq ht]
        rfl
  · -- A closing parenthesis comes next.
    change (t.kind == .comma) = (_ && !(t.kind == .rParen))
    rw [eq_of_beq ht]
    exact (Bool.and_false _).symm

/-- **Where items are separated as they should**, a comma is found wherever there is one, except
behind a spread or a parenthesis in a list of expressions. -/
lemma hasTrailingComma_of_separated (h : n.children[i]? = some (.node m))
    (hm : .node m' ∈ n.children.drop (i + 1))
    (hown : m.kind.holdsOwnComma = true → m.parts ∈ plain * commaIfAny)
    (hsep : Separated n.kind m (Element.gap (Element.parts (n.children.drop (i + 1))))) :
    n.hasTrailingComma i = (n.commaFollows i && !(n.kind.listsExpressions &&
      (m.kind == .spreadExpr || (n.tokenAfter? i).any (·.kind == .rParen)))) := by
  have hmem : .node m' ∈ Element.parts (n.children.drop (i + 1)) := List.mem_filter.2 ⟨hm, rfl⟩
  obtain ⟨next, rest, hrest⟩ := Element.exists_gap_append hmem
  rw [hasTrailingComma_eq h, commaFollows_eq h, tokenAfter?_eq]
  generalize Element.parts (n.children.drop (i + 1)) = after at hrest hsep ⊢
  generalize Element.gap after = between at hrest hsep ⊢
  subst hrest
  cases hsep with
  | entry hk hkind hgap =>
    rw [hkind, if_pos rfl, getLast?_any_isComma (hown hkind), hgap, hk, List.any_nil,
      Bool.or_false, Bool.false_and, Bool.not_false, Bool.and_true]
  | item hk hkind hend hgap =>
    rw [hkind, if_neg Bool.false_ne_true, hend, hk, Bool.false_or, Bool.false_and, Bool.not_false,
      Bool.and_true]
    obtain ⟨t, ht, rfl⟩ | rfl := hgap
    · exact (Bool.or_false _).symm
    · rfl
  | expression hk hkind hend hgap =>
    rw [hend, hk, Bool.false_or, Bool.true_and]
    cases hown' : m.kind.holdsOwnComma with
    | true =>
      have hspread := (NodeKind.holdsOwnComma_iff_of_isExpression hkind).1 hown'
      rw [if_pos rfl, getLast?_any_isComma (hown hown'), hend, hspread]
      exact (Bool.and_false _).symm
    | false =>
      have hspread : (m.kind == .spreadExpr) = false := by
        rw [beq_eq_false_iff_ne]
        intro hspread
        rw [(NodeKind.holdsOwnComma_iff_of_isExpression hkind).2 hspread] at hown'
        cases hown'
      rw [if_neg Bool.false_ne_true, hspread, Bool.false_or]
      exact head?_any_isComma hgap

end Node

/-! ## The tree of a clean text -/

/-- An entry that holds the comma behind it has it as its last part, or ends in none. -/
lemma form_le_of_holdsOwnComma {k : NodeKind} (h : k.holdsOwnComma = true) :
    form k ≤ plain * commaIfAny := by
  revert h
  cases k
  case recordField | blockField | letBinding | recordFieldInit => exact fun _ => le_rfl
  case variantCase => exact fun _ => inf_le_left
  case spreadExpr =>
    intro _
    refine mul_le_mul_left ((commaless_mul_le (token_le_commaless rfl) ?_).trans
      commaless_le_plain) _
    exact add_le (token_le_commaless rfl) unit_le_commaless
  all_goals exact nofun

/-- **Where a comma is found behind an item**: in the tree of a clean text, behind each item of a
list, a block or a record that has another behind it, if there is one; only in a list of expressions
it is not found behind a spread, and not behind an expression whose parenthesis is closed. -/
theorem parse_hasTrailingComma (text : String) (hclean : (parse text).diagnostics = []) :
    ∀ n ∈ (parse text).root.descendants, n.kind.isListing = true → ∀ (i : Nat) (m m' : Node),
      n.children[i]? = some (.node m) → .node m' ∈ n.children.drop (i + 1) →
      n.hasTrailingComma i = (n.commaFollows i && !(n.kind.listsExpressions &&
        (m.kind == .spreadExpr || (n.tokenAfter? i).any (·.kind == .rParen)))) := by
  intro n hn hk i m m' hm hm'
  have hform := parts_mem_form hclean
  have hchild : m ∈ (parse text).root.descendants :=
    Node.mem_descendants_trans hn (Element.mem_nodes_iff.2 (List.mem_of_getElem? hm))
  have hspaced := spaced_of_form hk (hform n hn)
  rw [Node.parts_eq_of_getElem? hm] at hspaced
  exact Node.hasTrailingComma_of_separated hm hm'
    (fun hown => form_le_of_holdsOwnComma hown (hform m hchild))
    (hspaced.of_append (List.mem_filter.2 ⟨hm', rfl⟩))

/-- A record of two fields. -/
theorem parse_hasTrailingComma_fields :
    (parse "record R \x7b a: Int, b: Int \x7d").diagnostics = [] ∧
      ∃ n ∈ (parse "record R \x7b a: Int, b: Int \x7d").root.descendants,
        n.kind.isListing = true ∧ ∃ m m', n.children[6]? = some (.node m) ∧
          .node m' ∈ n.children.drop (6 + 1) ∧
          n.hasTrailingComma 6 = (n.commaFollows 6 && !(n.kind.listsExpressions &&
            (m.kind == .spreadExpr || (n.tokenAfter? 6).any (·.kind == .rParen)))) := by
  have hclean : (parse "record R \x7b a: Int, b: Int \x7d").diagnostics = [] := by decide +kernel
  obtain ⟨n, hn, hk, m, -, hm, m', -, hm'⟩ :
      ∃ n ∈ (parse "record R \x7b a: Int, b: Int \x7d").root.childNodes, n.kind.isListing = true ∧
        ∃ m ∈ n.childNodes, n.children[6]? = some (.node m) ∧
          ∃ m' ∈ n.childNodes, .node m' ∈ n.children.drop (6 + 1) := by decide +kernel
  have hmem := Node.mem_descendants_of_mem hn
  exact ⟨hclean, n, hmem, hk, m, m', hm, hm',
    parse_hasTrailingComma _ hclean n hmem hk 6 m m' hm hm'⟩

/-- Signers of which the first is a spread, and the second stands in parentheses: commas follow
them, and are not found. -/
theorem hasTrailingComma_misses :
    (parse "tx t() \x7b signers \x7b ...a, (b), c \x7d \x7d").diagnostics = [] ∧
      ∃ n ∈ (parse "tx t() \x7b signers \x7b ...a, (b), c \x7d \x7d").root.descendants,
        n.kind = .signersBlock ∧ n.children.countP (·.node?.isSome) = 3 ∧
        (∀ i ∈ [4, 8], (n.children[i]?.bind Element.node?).isSome = true ∧
          n.commaFollows i = true ∧ n.hasTrailingComma i = false) ∧
        (n.children[12]?.bind Element.node?).isSome = true := by
  obtain ⟨tx, htx, n, hn, hkind, hrest⟩ :
      ∃ tx ∈ (parse "tx t() \x7b signers \x7b ...a, (b), c \x7d \x7d").root.childNodes,
        ∃ n ∈ tx.childNodes, n.kind = .signersBlock ∧ n.children.countP (·.node?.isSome) = 3 ∧
          (∀ i ∈ [4, 8], (n.children[i]?.bind Element.node?).isSome = true ∧
            n.commaFollows i = true ∧ n.hasTrailingComma i = false) ∧
          (n.children[12]?.bind Element.node?).isSome = true := by decide +kernel
  exact ⟨by decide +kernel, n,
    Node.mem_descendants_trans (Node.mem_descendants_of_mem htx) hn, hkind, hrest⟩

end TxTree
