import TxTree.Proofs.Cut

set_option relaxedAutoImplicit false
set_option autoImplicit false

/-!
# Tokens by themselves

The texts of some tokens of a text, one behind the other, are cut into just these tokens again:
how a token is read depends neither on what stands before it nor on what stands behind the last of
the tokens that are kept.

## Main definitions

* `TxTree.startOf` — where the first of some tokens starts.

## Main results

* `TxTree.tokensFrom_eq_append` — the characters of the tokens before and behind a place.
* `TxTree.tokenize_range` — the texts of the tokens between two places make up the same tokens.
-/

namespace TxTree

/-- Where the first of some tokens starts. -/
def startOf (tokens : List Token) : Nat := (tokens.head?.map (·.span.start)).getD 0

/-- The first of the tokens of some characters starts where the characters do. -/
lemma startOf_tokensFrom {start : Nat} {cs : List Char} (h : tokensFrom start cs ≠ []) :
    startOf (tokensFrom start cs) = start := by
  cases cs with
  | nil => exact absurd (tokensFrom_nil start) h
  | cons c cs =>
    rw [tokensFrom_cons]
    rfl

/-- Where characters are split, if some of those behind are left out. -/
lemma take_drop_append {n : Nat} {cs as bs : List Char} (h : cs.drop n = as ++ bs) :
    (cs.take n ++ as).take n = cs.take n ∧ (cs.take n ++ as).drop n = as := by
  by_cases hn : n ≤ cs.length
  · have hlength := List.length_take_of_le hn
    exact ⟨List.take_left' hlength, List.drop_left' hlength⟩
  · have hlt := Nat.lt_of_not_le hn
    rw [List.drop_of_length_le hlt.le] at h
    obtain ⟨rfl, -⟩ := List.nil_eq_append_iff.1 h
    rw [List.append_nil, List.take_of_length_le hlt.le, List.take_of_length_le hlt.le,
      List.drop_of_length_le hlt.le]
    exact ⟨rfl, rfl⟩

/-- A token is the same before some of the characters behind it, if they are those of tokens. -/
lemma scan_take_append {c : Char} {cs as bs : List Char} (h : cs.drop (scan c cs).2 = as ++ bs) :
    scan c (cs.take (scan c cs).2 ++ as) = scan c cs := by
  have hcs : cs.take (scan c cs).2 ++ as ++ bs = cs := by
    rw [List.append_assoc, ← h, List.take_append_drop]
  cases bs with
  | nil => rw [← List.append_nil (cs.take _ ++ as), hcs]
  | cons b bs =>
    have hlength := congrArg List.length h
    rw [List.length_drop, List.length_append, List.length_cons] at hlength
    have hcut : (scan c (cs.take (scan c cs).2 ++ as ++ b :: bs)).2 ≤
        (cs.take (scan c cs).2 ++ as).length := by
      rw [hcs, List.length_append, List.length_take]
      omega
    rw [← scan_append hcut, hcs]

/-- **The tokens of some characters, split at any place**, are those of the characters before and
behind a place.

**Proof sketch.** Induction from token to token before the place. The first token is the same before
those that are kept of the others, for it does not reach into them. -/
theorem tokensFrom_eq_append {start : Nat} {cs : List Char} {before after : List Token}
    (h : tokensFrom start cs = before ++ after) :
    ∃ as bs : List Char, cs = as ++ bs ∧ tokensFrom start as = before ∧
      tokensFrom (start + (String.ofList as).utf8ByteSize) bs = after := by
  induction start, cs using tokens_induction generalizing before with
  | nil start =>
    obtain ⟨rfl, rfl⟩ := List.nil_eq_append_iff.1 ((tokensFrom_nil start).symm.trans h)
    exact ⟨[], [], rfl, tokensFrom_nil start, tokensFrom_nil _⟩
  | cons start c cs ih =>
    cases before with
    | nil => exact ⟨[], c :: cs, rfl, tokensFrom_nil start, h⟩
    | cons t before =>
      rw [tokensFrom_cons, List.cons_append, List.cons.injEq] at h
      obtain ⟨hfirst, hrest⟩ := h
      obtain ⟨as, bs, hsplit, has, hbs⟩ := ih hrest
      have hscan := scan_take_append hsplit
      obtain ⟨htake, hdrop⟩ := take_drop_append hsplit
      have hsame : firstToken start c (cs.take (scan c cs).2 ++ as) = firstToken start c cs := by
        rw [firstToken, hscan, htake, firstToken]
      refine ⟨c :: (cs.take (scan c cs).2 ++ as), bs, ?_, ?_, ?_⟩
      · rw [List.cons_append, List.append_assoc, ← hsplit, List.take_append_drop]
      · rw [tokensFrom_cons, hsame, hscan, hdrop, has, hfirst]
      · have hstop := stop_firstToken_add start c (cs.take (scan c cs).2 ++ as)
        rw [hsame, hscan, hdrop] at hstop
        rw [← hstop]
        exact hbs

/-- The texts of tokens that stand among those of a text make up the same tokens. -/
lemma tokenize_of_eq_append {text : String} {before mid after : List Token}
    (h : tokenize text = before ++ (mid ++ after)) :
    (tokenize (String.join (mid.map (·.text)))).map (Token.shift (startOf mid)) = mid := by
  obtain ⟨as, bs, -, -, hbehind⟩ := tokensFrom_eq_append h
  obtain ⟨ms, cs, -, hmid, -⟩ := tokensFrom_eq_append hbehind
  rw [Nat.zero_add] at hmid
  by_cases hnil : mid = []
  · subst hnil
    exact List.map_eq_nil_iff.2 (tokensFrom_nil 0)
  have hstart : startOf mid = (String.ofList as).utf8ByteSize := by
    rw [← hmid]
    exact startOf_tokensFrom (hmid ▸ hnil)
  have hjoin : String.join (mid.map (·.text)) = String.ofList ms := by
    rw [← hmid, join_text_tokensFrom]
  rw [hjoin, hstart, tokenize, String.toList_ofList, ← tokensFrom_shift, Nat.zero_add, hmid]

/-- **The texts of the tokens between two places make up the same tokens**, which only stand further
on in the whole text, by as much as the first of them does. -/
theorem tokenize_range (text : String) (i j : Nat) :
    (tokenize (String.join (((tokenize text).extract i j).map (·.text)))).map
        (Token.shift (startOf ((tokenize text).extract i j))) =
      (tokenize text).extract i j := by
  have hsplit : tokenize text = (tokenize text).take i ++
      ((tokenize text).extract i j ++ ((tokenize text).drop i).drop (j - i)) := by
    rw [List.extract_eq_take_drop, List.take_append_drop, List.take_append_drop]
  exact tokenize_of_eq_append hsplit

end TxTree
