import Mathlib.Tactic.Lemma
import TxTree.Token.Scan

set_option relaxedAutoImplicit false
set_option autoImplicit false

/-!
# The texts of tokens

A text is cut into tokens from left to right, and each token takes at least one character, and as
many bytes as its characters have.

## Main definitions

* `TxTree.firstToken` — the token that begins at the first of some characters.

## Main results

* `TxTree.tokens_induction` — induction from token to token.
* `TxTree.join_text_tokenize` — the texts of the tokens of a text spell the text.
-/

namespace TxTree

/-- The token that begins at the first of some characters. -/
def firstToken (start : Nat) (c : Char) (cs : List Char) : Token :=
  Token.ofText (scan c cs).1 (String.ofList (c :: cs.take (scan c cs).2)) start

/-- The tokens of characters are the one that begins there, and those of the characters behind. -/
lemma tokensFrom_cons (start : Nat) (c : Char) (cs : List Char) :
    tokensFrom start (c :: cs) = firstToken start c cs ::
      tokensFrom (firstToken start c cs).span.stop (cs.drop (scan c cs).2) := by
  rw [tokensFrom]
  rfl

@[simp] lemma tokensFrom_nil (start : Nat) : tokensFrom start [] = [] := by
  rw [tokensFrom]

/-- Induction from token to token. -/
@[elab_as_elim]
theorem tokens_induction {motive : Nat → List Char → Prop} (start : Nat) (cs : List Char)
    (nil : ∀ start, motive start [])
    (cons : ∀ start c cs, motive (firstToken start c cs).span.stop (cs.drop (scan c cs).2) →
      motive start (c :: cs)) : motive start cs := by
  induction start, cs using tokensFrom.induct with
  | case1 start => exact nil start
  | case2 start c cs kind n hscan token ih =>
    refine cons start c cs ?_
    rw [firstToken, hscan]
    exact ih

/-- The texts of the tokens of some characters spell the characters. -/
lemma join_text_tokensFrom (start : Nat) (cs : List Char) :
    String.join ((tokensFrom start cs).map (·.text)) = String.ofList cs := by
  induction start, cs using tokens_induction with
  | nil start => simp
  | cons start c cs ih =>
    rw [tokensFrom_cons, List.map_cons, String.join_cons, ih]
    change String.ofList _ ++ String.ofList _ = _
    rw [← String.ofList_append, List.cons_append, List.take_append_drop]

/-- **The texts of the tokens of a text spell the text.** -/
theorem join_text_tokenize (text : String) :
    String.join ((tokenize text).map (·.text)) = text := by
  rw [tokenize, join_text_tokensFrom, String.ofList_toList]

/-! ## Bytes -/

/-- Every character takes up some bytes. -/
lemma byteSize_cons_pos (c : Char) (cs : List Char) :
    0 < (String.ofList (c :: cs)).utf8ByteSize := by
  rw [Nat.pos_iff_ne_zero, ne_eq, String.utf8ByteSize_eq_zero_iff, String.ofList_eq_empty_iff]
  exact List.cons_ne_nil c cs

/-- The bytes of characters one behind the other. -/
lemma byteSize_append (as bs : List Char) :
    (String.ofList (as ++ bs)).utf8ByteSize =
      (String.ofList as).utf8ByteSize + (String.ofList bs).utf8ByteSize := by
  rw [String.ofList_append, String.utf8ByteSize_append]

/-- The first token ends behind the place where the characters begin, … -/
lemma lt_stop_firstToken (start : Nat) (c : Char) (cs : List Char) :
    start < (firstToken start c cs).span.stop :=
  Nat.lt_add_of_pos_right (byteSize_cons_pos c _)

/-- … and takes up all the bytes but those of the characters behind it. -/
lemma stop_firstToken_add (start : Nat) (c : Char) (cs : List Char) :
    (firstToken start c cs).span.stop + (String.ofList (cs.drop (scan c cs).2)).utf8ByteSize =
      start + (String.ofList (c :: cs)).utf8ByteSize := by
  change start + (String.ofList (c :: cs.take (scan c cs).2)).utf8ByteSize + _ = _
  rw [Nat.add_assoc, ← byteSize_append, List.cons_append, List.take_append_drop]

end TxTree
