import Mathlib.Order.ConditionallyCompleteLattice.Basic
import TxTree.Proofs.Operands

set_option relaxedAutoImplicit false
set_option autoImplicit false

/-!
# The layout of nodes

In the tree of a clean text the parts of a node form a word of the language that belongs to its
kind. These languages tell where the names, the arguments of types and above all the commas stand:
an entry holds the comma behind it as its own last part; in lists the comma stands behind the item,
and behind the parentheses around it.

## Main definitions

* `TxTree.Node.endsInComma` — whether the last token directly below a node is a comma.
* `TxTree.Grammar.grouped` — a node in any number of parentheses.
* `TxTree.Grammar.rows` — items over and over, with tokens before and behind.
* `TxTree.Grammar.form` — the words of the parts of a node, by its kind.
* `TxTree.Grammar.layout` — the contract that all parts form such words.

## Main results

* `TxTree.Grammar.group_le_grouped`, `TxTree.Grammar.token_mul_rows_le` — how words of these
  languages are put together.
* `TxTree.Grammar.bare_of_mem` — how a node is known not to end in a comma.
-/

namespace TxTree

/-- Whether the last of the tokens directly below a node is a comma, white space and comments
apart. -/
def Node.endsInComma (n : Node) : Bool := n.significantTokens.getLast?.any (·.kind == .comma)

namespace Grammar

open Rule NodeKind Node
open scoped Computability

/-! ## Words -/

/-- Words of tokens alone. -/
def marks : Language Element := words (fun _ => true) 1

/-- Words of any nodes, and of tokens other than commas. -/
def commaless : Language Element := words (· != .comma) ⊤

/-- Words without a comma for their last token. -/
def plain : Language Element :=
  {ps | ∀ t ∈ (ps.filterMap Element.token?).getLast?, t.kind ≠ .comma}

/-- A comma, if there is one. -/
def commaIfAny : Language Element := token (· == .comma) + 1

/-- **A node in any number of parentheses.** -/
def grouped (q : Node → Prop) : Language Element :=
  (token (· == .lParen))∗ * node q * (token (· == .rParen))∗

/-- **Items over and over**, with tokens before and behind. -/
def rows (L : Language Element) : Language Element := marks * (L∗ * marks)

/-- A node of a set of kinds that does not end in a comma. -/
def bare (p : NodeKind → Bool) (n : Node) : Prop := ofKind p n ∧ n.endsInComma = false

/-- An entry with the comma behind it. -/
def entry : Language Element := node (ofKind holdsOwnComma)

/-- An expression in any number of parentheses. -/
def value : Language Element := grouped (bare isExpression)

/-- A type. -/
def typing : Language Element := node (bare isType)

/-- **The words of the parts of a node**, by its kind, if no error was found. -/
def form : NodeKind → Language Element
  -- The arguments of types, and spreads.
  | .genericType =>
    token (· == .listType) * (token (· == .lt) * typing * token (· == .gt) + 1)
  | .mapType =>
    token (· == .mapType) *
      (token (· == .lt) * typing * commaIfAny * typing * token (· == .gt) + 1)
  | .spreadExpr => token (· == .spread) * (token TokenKind.isName + 1) * commaIfAny
  -- Lists.
  | .listExpr | .argList | .signersBlock => rows (value * commaIfAny)
  | .paramList => rows (node (bare (· == .txParam)) * commaIfAny)
  | .variantTupleParams => rows (typing * commaIfAny)
  -- Entries, and what holds them.
  | .recordField | .blockField | .letBinding | .recordFieldInit => plain * commaIfAny
  | .variantCase => plain * commaIfAny ⊓ (rows entry + marks * node (fun _ => True) * marks)
  | .inputBlock | .outputBlock | .burnBlock | .mintBlock | .localsBlock | .collateralBlock
  | .referenceBlock | .validityBlock | .metadataBlock | .cardanoBlock | .recordDecl | .typeDecl
  | .envDecl | .anonymousRecordType | .recordLiteral | .variantExpr => rows entry
  | _ => ⊤

section Words

variable {p : TokenKind → Bool} {q : Node → Prop} {L M K : Language Element}

lemma token_le_marks (p : TokenKind → Bool) : token p ≤ marks := token_le_words fun _ _ => rfl

lemma unit_le_marks : 1 ≤ marks := unit_le_words _ le_rfl

lemma commaIfAny_le_marks : commaIfAny ≤ marks := add_le (token_le_marks _) unit_le_marks

lemma marks_mul_le : marks * marks ≤ marks :=
  (words_mul_le _ 1 1).trans (words_le (by rw [one_mul]))

/-! ### Commas -/

lemma commaless_mul_le (hL : L ≤ commaless) (hM : M ≤ commaless) : L * M ≤ commaless :=
  (mul_le_mul' hL hM).trans ((words_mul_le _ _ _).trans (words_le le_top))

lemma unit_le_commaless : 1 ≤ commaless := unit_le_words _ le_top

lemma token_le_commaless (hp : p .comma = false) : token p ≤ commaless := by
  refine (token_le_words fun k hk => ?_).trans (words_le le_top)
  rw [bne_iff_ne]
  rintro rfl
  rw [hp] at hk
  cases hk

lemma node_le_commaless (q : Node → Prop) : node q ≤ commaless :=
  (node_le_words _ q).trans (words_le le_top)

lemma kstar_le_commaless (hL : L ≤ commaless) : L∗ ≤ commaless :=
  kstar_le_of_mul_le_left unit_le_commaless (commaless_mul_le le_rfl hL)

lemma commaless_le_plain : commaless ≤ plain := fun _ hps t ht =>
  bne_iff_ne.1 (hps.1 t (Element.mem_tokens_iff.1 (List.mem_of_getLast? ht)))

/-- Words that end with a token other than a comma. -/
lemma mul_token_le_plain (hp : p .comma = false) : L * token p ≤ plain := by
  rintro _ ⟨ps, -, _, ⟨t, ht, rfl⟩, rfl⟩ u hu
  change u ∈ ((ps ++ [Element.token t]).filterMap Element.token?).getLast? at hu
  rw [List.filterMap_append] at hu
  obtain rfl : t = u := by simpa [Element.token?] using hu
  intro hcomma
  rw [hcomma, hp] at ht
  cases ht

/-- Words in brackets. -/
lemma enclosed_le_plain {p' : TokenKind → Bool} (hp : p .comma = false) :
    token p' * (L * token p) ≤ plain := by
  rw [← mul_assoc]
  exact mul_token_le_plain hp

/-- Plain words do not end in a comma. -/
lemma endsInComma_eq_false {n : Node} (h : n.parts ∈ plain) : n.endsInComma = false := by
  rw [endsInComma, significantTokens_eq]
  cases hlast : (n.parts.filterMap Element.token?).getLast? with
  | none => rfl
  | some t => exact beq_eq_false_iff_ne.2 (h t hlast)

/-- A node does not end in a comma by the word of its parts. -/
lemma bare_of_mem {n : Node} {k : NodeKind} {r : NodeKind → Bool} (hk : n.kind = k)
    (hr : r k = true) (hL : L ≤ plain) (h : n.parts ∈ L) : bare r n :=
  ⟨ofKind_of_eq hk hr, endsInComma_eq_false (hL h)⟩

/-! ### Parentheses -/

lemma node_le_grouped : node q ≤ grouped q := by
  calc node q = 1 * node q * 1 := by rw [one_mul, mul_one]
    _ ≤ grouped q := mul_le_mul' (mul_le_mul_left one_le_kstar _) one_le_kstar

/-- One pair of parentheses more. -/
lemma group_le_grouped : token (· == .lParen) * grouped q * token (· == .rParen) ≤ grouped q := by
  calc token (· == .lParen) * grouped q * token (· == .rParen)
      = token (· == .lParen) * (token (· == .lParen))∗ * node q *
          ((token (· == .rParen))∗ * token (· == .rParen)) := by simp only [grouped, mul_assoc]
    _ ≤ grouped q :=
      mul_le_mul' (mul_le_mul_left mul_kstar_le_kstar _) kstar_mul_le_kstar

lemma grouped_le_commaless (q : Node → Prop) : grouped q ≤ commaless :=
  commaless_mul_le (commaless_mul_le (kstar_le_commaless (token_le_commaless rfl))
    (node_le_commaless q)) (kstar_le_commaless (token_le_commaless rfl))

/-! ### Rows -/

lemma marks_mul_rows_le : marks * rows K ≤ rows K := by
  rw [rows, ← mul_assoc]
  exact mul_le_mul_left marks_mul_le _

lemma rows_mul_marks_le : rows K * marks ≤ rows K := by
  rw [rows, mul_assoc, mul_assoc]
  exact mul_le_mul_right (mul_le_mul_right marks_mul_le _) _

lemma token_mul_rows_le (hL : L ≤ rows K) : token p * L ≤ rows K :=
  (mul_le_mul' (token_le_marks p) hL).trans marks_mul_rows_le

lemma kstar_mul_token_le_rows : K∗ * token p ≤ rows K := by
  refine (mul_le_mul_right (token_le_marks p) _).trans ?_
  exact (one_mul _).symm.le.trans (mul_le_mul_left unit_le_marks _)

lemma marks_le_rows : marks ≤ rows K := by
  calc marks = 1 * (1 * marks) := by rw [one_mul, one_mul]
    _ ≤ rows K := mul_le_mul' unit_le_marks (mul_le_mul_left one_le_kstar _)

lemma unit_le_rows : 1 ≤ rows K := unit_le_marks.trans marks_le_rows

end Words

/-! ## The contract -/

/-- **The contract of the nesting levels** under which the parts of all nodes form words of their
kinds, where no error may be found. -/
def layout : Contract where
  faulty := False
  law n := n.parts ∈ form n.kind
  entry
    | .expression, _, _ => True
    | .signed, next, _ => next.startsWith isSign = true
    | .suffixed, next, ps => next.startsWith opensSuffix = true ∧ ps ∈ value
    | .type, _, _ => True
    | .array, next, ps => (next.starts .lBracket && next.continues .rBracket) = true ∧ ps ∈ typing
  result
    | .expression, ps, qs => ∃ w ∈ value, qs = ps ++ w
    | .signed, ps, qs => ∃ w ∈ value, qs = ps ++ w
    | .suffixed, _, qs => qs ∈ value
    | .type, ps, qs => ∃ w ∈ typing, qs = ps ++ w
    | .array, _, qs => qs ∈ typing

end Grammar

end TxTree
