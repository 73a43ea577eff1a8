import TxTree.Proofs.Tokens

set_option relaxedAutoImplicit false
set_option autoImplicit false

/-!
# Tokens tile their text

The tokens of a text stand one behind the other from its first byte to its last, none of them
empty, and each holds what stands between its two ends. No token is cut inside a character, however
many bytes that has: all ends are boundaries of characters.

## Main definitions

* `TxTree.Token.LiesIn` — whether a token is a piece of a text, cut out at its span.
* `TxTree.Tiles` — whether tokens stand one behind the other from one offset to another.

## Main results

* `TxTree.tiles_tokenize` — the tokens of a text tile its bytes.
* `TxTree.liesIn_of_mem_tokenize` — each of them is a piece of the text, and not empty.
-/

namespace TxTree

/-- **A token lies in a text** if its span is between two boundaries of characters and its text is
what stands there. -/
structure Token.LiesIn (text : String) (t : Token) : Prop where
  /-- The span starts at a boundary of characters. -/
  start_isValid : (⟨t.span.start⟩ : String.Pos.Raw).IsValid text
  /-- The span stops at a boundary of characters. -/
  stop_isValid : (⟨t.span.stop⟩ : String.Pos.Raw).IsValid text
  /-- What stands there is the text of the token. -/
  extract_eq : text.extract ⟨⟨t.span.start⟩, start_isValid⟩ ⟨⟨t.span.stop⟩, stop_isValid⟩ = t.text

/-- **Tokens tile the bytes** from one offset to another if the first starts at the one, each starts
where the one before it stops, none is empty, and the last stops at the other. -/
def Tiles : (start : Nat) → List Token → (stop : Nat) → Prop
  | start, [], stop => start = stop
  | start, t :: ts, stop =>
    t.span.start = start ∧ start < t.span.stop ∧ Tiles t.span.stop ts stop

namespace Tiles

variable {start stop : Nat} {ts : List Token}

/-- The tiles are between the two offsets. -/
lemma le_start_of_mem (h : Tiles start ts stop) :
    ∀ t ∈ ts, start ≤ t.span.start ∧ t.span.start < stop := by
  induction ts generalizing start with
  | nil => nofun
  | cons t ts ih =>
    obtain ⟨hstart, hlt, hrest⟩ := h
    have hlater := ih hrest
    rw [List.forall_mem_cons]
    refine ⟨⟨hstart ▸ Nat.le_refl _, ?_⟩, fun u hu => ?_⟩
    · cases ts with
      | nil =>
        obtain rfl : t.span.stop = stop := hrest
        omega
      | cons u us =>
        have hnext := hlater u List.mem_cons_self
        omega
    · have hbetween := hlater u hu
      omega

/-- Each tile starts before the further ones. -/
lemma pairwise_start_lt (h : Tiles start ts stop) :
    ts.Pairwise fun t u => t.span.start < u.span.start := by
  induction ts generalizing start with
  | nil => exact .nil
  | cons t ts ih =>
    obtain ⟨hstart, hlt, hrest⟩ := h
    refine .cons (fun u hu => ?_) (ih hrest)
    have hnext := hrest.le_start_of_mem u hu
    omega

end Tiles

/-- A token that is made of what stands behind some characters lies in the text. -/
lemma Token.liesIn_append (kind : TokenKind) (before mid after : String) :
    (Token.ofText kind mid before.utf8ByteSize).LiesIn (before ++ mid ++ after) := by
  have hstart : (⟨before.utf8ByteSize⟩ : String.Pos.Raw).IsValid (before ++ mid ++ after) :=
    String.Pos.Raw.isValid_iff_exists_append.2 ⟨before, mid ++ after, String.append_assoc .., rfl⟩
  have hstop : (⟨before.utf8ByteSize + mid.utf8ByteSize⟩ : String.Pos.Raw).IsValid
      (before ++ mid ++ after) := by
    refine String.Pos.Raw.isValid_iff_exists_append.2 ⟨before ++ mid, after, rfl, ?_⟩
    rw [← String.utf8ByteSize_append]
    rfl
  refine ⟨hstart, hstop, String.toByteArray_inj.1 ?_⟩
  calc (before ++ mid ++ after).toByteArray.extract before.utf8ByteSize
        (before.utf8ByteSize + mid.utf8ByteSize)
      = (before.toByteArray ++ (mid.toByteArray ++ after.toByteArray)).extract
          (before.utf8ByteSize + 0) (before.utf8ByteSize + mid.utf8ByteSize) := by
        rw [String.toByteArray_append, String.toByteArray_append, ByteArray.append_assoc,
          Nat.add_zero]
    _ = (mid.toByteArray ++ after.toByteArray).extract 0 mid.utf8ByteSize :=
        ByteArray.extract_append_size_add' rfl
    _ = mid.toByteArray := ByteArray.extract_append_eq_left rfl

/-- The tokens of characters tile their bytes. -/
lemma tiles_tokensFrom (start : Nat) (cs : List Char) :
    Tiles start (tokensFrom start cs) (start + (String.ofList cs).utf8ByteSize) := by
  induction start, cs using tokens_induction with
  | nil start =>
    rw [tokensFrom_nil]
    exact (Nat.add_zero start).symm
  | cons start c cs ih =>
    rw [tokensFrom_cons, ← stop_firstToken_add]
    exact ⟨rfl, lt_stop_firstToken start c cs, ih⟩

/-- The tokens of a text tile its bytes. -/
lemma tiles_tokenize (text : String) : Tiles 0 (tokenize text) text.utf8ByteSize := by
  have h := tiles_tokensFrom 0 text.toList
  rwa [Nat.zero_add, String.ofList_toList] at h

/-- The tokens of the characters behind others lie in the whole text, and are not empty.

**Proof sketch.** Induction from token to token: what is behind a token is also behind what the
token and the characters before it make up. -/
lemma liesIn_of_mem_tokensFrom {start : Nat} {cs : List Char} (before : List Char)
    (hstart : start = (String.ofList before).utf8ByteSize) :
    ∀ t ∈ tokensFrom start cs, t.LiesIn (String.ofList (before ++ cs)) ∧ t.text ≠ "" := by
  induction start, cs using tokens_induction generalizing before with
  | nil start => simp
  | cons start c cs ih =>
    subst hstart
    have hsplit : before ++ c :: cs =
        (before ++ c :: cs.take (scan c cs).2) ++ cs.drop (scan c cs).2 := by
      rw [List.append_assoc, List.cons_append, List.take_append_drop]
    rw [tokensFrom_cons, List.forall_mem_cons]
    refine ⟨⟨?_, ?_⟩, ?_⟩
    · rw [hsplit, String.ofList_append, String.ofList_append]
      exact Token.liesIn_append ..
    · exact fun h => List.cons_ne_nil _ _ (String.ofList_eq_empty_iff.1 h)
    · rw [hsplit]
      exact ih _ (byteSize_append ..).symm

/-- The tokens of a text lie in it, and are not empty. -/
lemma liesIn_of_mem_tokenize (text : String) :
    ∀ t ∈ tokenize text, t.LiesIn text ∧ t.text ≠ "" := by
  have hlies : ∀ t ∈ tokensFrom 0 text.toList, t.LiesIn (String.ofList ([] ++ text.toList)) ∧
      t.text ≠ "" := liesIn_of_mem_tokensFrom [] rfl
  rwa [List.nil_append, String.ofList_toList] at hlies

end TxTree
