import TxTree.Proofs.Shift
import TxTree.Proofs.Tokens

set_option relaxedAutoImplicit false
set_option autoImplicit false

/-!
# Where a text may be cut

If a token of a text ends somewhere, the text may be cut there: the tokens of the two parts, by
themselves, are those of the whole, only that those of the second part stand further on. For a
token depends on what is behind it only by taking more of it in.

## Main definitions

* `TxTree.behindDigits` — what begins behind the digits of a literal in base sixteen.
* `TxTree.scanPlain` — what begins where neither white space nor a comment does.

## Main results

* `TxTree.scan_append` — a token that does not reach into what follows is the same without it.
* `TxTree.tokensFrom_shift` — the tokens of characters that stand further on.
* `TxTree.tokenize_append` — the tokens of a text that is cut between two of them.
-/

namespace TxTree

open Scan

/-! ## Tokens that do not reach into what follows -/

/-- A run that ends before what follows, or just there, is the same without it. -/
lemma runLength_append {p : Char → Bool} {r s : List Char} (h : runLength p (r ++ s) ≤ r.length) :
    runLength p (r ++ s) = runLength p r := by
  unfold runLength at h ⊢
  rw [List.takeWhile_append] at h ⊢
  split at h
  · next hall =>
    rw [if_pos hall]
    rw [List.length_append] at h ⊢
    omega
  · next hsome => rw [if_neg hsome]

/-- One more character of a comment, unless the mark that closes it begins there. -/
lemma commentLength_cons {c : Char} {cs : List Char}
    (h : ∀ tail, c = '*' → cs = '/' :: tail → False) :
    commentLength (c :: cs) = commentLength cs + 1 := by
  rw [commentLength]
  exact h

/-- A comment that ends before what follows, or just there, is the same without it. -/
lemma commentLength_append {r s : List Char} (h : commentLength (r ++ s) ≤ r.length) :
    commentLength (r ++ s) = commentLength r := by
  fun_induction commentLength r with
  | case1 => simpa using h
  | case2 rest => simp [commentLength]
  | case3 c rest hne ih =>
    have hopen (tail : List Char) (hc : c = '*') (hs : rest ++ s = '/' :: tail) : False := by
      cases rest with
      | nil =>
        rw [List.nil_append] at hs
        subst hc hs
        simp [commentLength] at h
      | cons y rest =>
        cases hs
        exact hne rest hc rfl
    rw [List.cons_append, commentLength_cons hopen] at h ⊢
    rw [ih (Nat.le_of_succ_le_succ h)]

/-! ### Strings -/

/-- A backslash takes the next character with it. -/
lemma stringLength_escape {c : Char} (hc : c ≠ '\n') (cs : List Char) :
    stringLength ('\\' :: c :: cs) = ((stringLength cs).1, (stringLength cs).2 + 2) := by
  rw [stringLength]
  exact hc

/-- One more character of a string. -/
lemma stringLength_cons {c : Char} (hquote : c ≠ '"') (hline : c ≠ '\n') (hslash : c ≠ '\\')
    (cs : List Char) : stringLength (c :: cs) = ((stringLength cs).1, (stringLength cs).2 + 1) := by
  rw [stringLength]
  · exact hquote
  · exact hline
  · exact fun h => absurd h hslash
  · exact fun _ h => absurd h hslash
  · exact fun _ _ h => absurd h hslash

/-- A character is no backslash if it is none before the end and none before another. -/
lemma ne_backslash {c : Char} {cs : List Char} (hend : c = '\\' → cs = [] → False)
    (hnext : ∀ (head : Char) (tail : List Char), c = '\\' → cs = head :: tail → False) :
    c ≠ '\\' := by
  intro hc
  cases cs with
  | nil => exact hend hc rfl
  | cons head tail => exact hnext head tail hc rfl

/-- A string that ends before what follows, or just there, is the same without it. -/
lemma stringLength_append {r s : List Char} (h : (stringLength (r ++ s)).2 ≤ r.length) :
    stringLength (r ++ s) = stringLength r := by
  fun_induction stringLength r with
  | case1 =>
    rw [List.nil_append] at h ⊢
    unfold stringLength at h ⊢
    split at h <;> simp_all
  | case2 => simp [stringLength]
  | case3 => simp [stringLength]
  | case4 =>
    cases s with
    | nil => rfl
    | cons c s =>
      by_cases hc : c = '\n'
      · subst hc
        rfl
      · change (stringLength ('\\' :: c :: s)).2 ≤ 1 at h
        rw [stringLength_escape hc] at h
        omega
  | case5 => simp [stringLength]
  | case6 c rest hc closed n heq ih =>
    have hescape (cs : List Char) := stringLength_escape hc cs
    rw [List.cons_append, List.cons_append, hescape] at h ⊢
    rw [ih (Nat.le_of_add_le_add_right h), heq]
  | case7 c rest hquote hline hend _ hnext closed n heq ih =>
    have hcons (cs : List Char) := stringLength_cons hquote hline (ne_backslash hend hnext) cs
    rw [List.cons_append, hcons] at h ⊢
    rw [ih (Nat.le_of_succ_le_succ h), heq]

/-- A string that is closed is the same whatever follows. -/
lemma stringLength_append_of_closed {r : List Char} (s : List Char)
    (h : (stringLength r).1 = true) : stringLength (r ++ s) = stringLength r := by
  fun_induction stringLength r with
  | case1 => cases h
  | case2 => simp [stringLength]
  | case3 => cases h
  | case4 => cases h
  | case5 => cases h
  | case6 c rest hc closed n heq ih =>
    have hescape (cs : List Char) := stringLength_escape hc cs
    rw [heq] at ih
    rw [List.cons_append, List.cons_append, hescape, ih h]
  | case7 c rest hquote hline hend _ hnext closed n heq ih =>
    have hcons (cs : List Char) := stringLength_cons hquote hline (ne_backslash hend hnext) cs
    rw [heq] at ih
    rw [List.cons_append, hcons, ih h]

/-! ### Literals in base sixteen -/

lemma scanBytes_append {r s : List Char} (h : (scanBytes (r ++ s)).2 ≤ r.length) :
    scanBytes (r ++ s) = scanBytes r := by
  have hrun : runLength isHexDigit (r ++ s) = runLength isHexDigit r := by
    apply runLength_append
    unfold scanBytes at h
    cases hn : runLength isHexDigit (r ++ s) with
    | zero => omega
    | succ n => simpa only [hn] using h
  unfold scanBytes
  rw [hrun]

/-- What begins behind the digits of a literal in base sixteen, of which there are `n`. -/
def behindDigits (n : Nat) : List Char → TokenKind × Nat
  | '#' :: rest =>
    match runLength Char.isDigit rest with
    | 0 => (.hexLiteral, n + 1)
    | m => (.utxoRefLiteral, n + 2 + m)
  | '.' :: '"' :: rest =>
    match stringLength rest with
    | (true, m) => (.assetLiteral, n + 3 + m)
    | (false, _) => (.hexLiteral, n + 1)
  | _ => (.hexLiteral, n + 1)

lemma scanHex_eq (cs : List Char) :
    scanHex cs = behindDigits (runLength isHexDigit cs) (cs.drop (runLength isHexDigit cs)) := rfl

/-- Either the literal ends with its digits, or it takes in two further characters at least. -/
lemma behindDigits_eq_or (n : Nat) (cs : List Char) :
    behindDigits n cs = (.hexLiteral, n + 1) ∨ n + 2 < (behindDigits n cs).2 := by
  unfold behindDigits
  split
  · split
    · exact .inl rfl
    · next hrun =>
      have hpos := Nat.pos_of_ne_zero hrun
      exact .inr (by simp only; omega)
  · split
    · exact .inr (by simp only; omega)
    · exact .inl rfl
  · exact .inl rfl

/-- A single character is not taken in, … -/
lemma behindDigits_of_length_le {n : Nat} {cs : List Char} (h : cs.length ≤ 1) :
    behindDigits n cs = (.hexLiteral, n + 1) := by
  match cs with
  | [] => rfl
  | [c] =>
    unfold behindDigits
    split
    · next heq =>
      cases heq
      rfl
    · next heq => cases heq
    · rfl

/-- … nor are two others than those that a reference or an asset begins with. -/
lemma behindDigits_of_ne {n : Nat} {c c' : Char} (hmark : c ≠ '#') (hquote : ¬(c = '.' ∧ c' = '"'))
    (cs : List Char) : behindDigits n (c :: c' :: cs) = (.hexLiteral, n + 1) := by
  unfold behindDigits
  split
  · next heq =>
    cases heq
    exact absurd rfl hmark
  · next heq =>
    cases heq
    exact absurd ⟨rfl, rfl⟩ hquote
  · rfl

lemma behindDigits_mark_append {n : Nat} {r s : List Char}
    (h : (behindDigits n ('#' :: (r ++ s))).2 ≤ n + r.length + 2) :
    behindDigits n ('#' :: (r ++ s)) = behindDigits n ('#' :: r) := by
  simp only [behindDigits] at h ⊢
  have hrun : runLength Char.isDigit (r ++ s) = runLength Char.isDigit r := by
    apply runLength_append
    split at h
    · omega
    · simp only at h
      omega
  rw [hrun]

/-- An asset is one only if its string is closed, and then what follows the string does not
matter. -/
lemma behindDigits_quote_append {n : Nat} {r s : List Char}
    (h : (behindDigits n ('.' :: '"' :: (r ++ s))).2 ≤ n + r.length + 3) :
    behindDigits n ('.' :: '"' :: (r ++ s)) = behindDigits n ('.' :: '"' :: r) := by
  simp only [behindDigits] at h ⊢
  cases hlong : stringLength (r ++ s) with
  | mk closed m =>
    cases closed with
    | true =>
      rw [hlong] at h
      have hsame : stringLength (r ++ s) = stringLength r := by
        apply stringLength_append
        rw [hlong]
        simp only at h ⊢
        omega
      rw [← hsame, hlong]
    | false =>
      have hopen : (stringLength r).1 = false := by
        by_contra hclosed
        have hsame := stringLength_append_of_closed s (Bool.of_not_eq_false hclosed)
        rw [hsame] at hlong
        rw [hlong] at hclosed
        exact hclosed rfl
      cases hr : stringLength r with
      | mk closed m' =>
        rw [hr] at hopen
        cases hopen
        rfl

lemma behindDigits_append {n : Nat} {r s : List Char}
    (h : (behindDigits n (r ++ s)).2 ≤ n + r.length + 1) :
    behindDigits n (r ++ s) = behindDigits n r := by
  by_cases hshort : r.length ≤ 1
  · rw [behindDigits_of_length_le hshort]
    exact (behindDigits_eq_or n (r ++ s)).resolve_right (by omega)
  obtain ⟨c, c', r, rfl⟩ : ∃ c c' r', r = c :: c' :: r' := by
    match r, hshort with
    | c :: c' :: r, _ => exact ⟨c, c', r, rfl⟩
    | [], h | [_], h => simp at h
  simp only [List.cons_append, List.length_cons] at h ⊢
  by_cases hmark : c = '#'
  · subst hmark
    have hlength : n + (r.length + 1 + 1) + 1 = n + (c' :: r).length + 2 := by
      rw [List.length_cons]
      omega
    exact behindDigits_mark_append (r := c' :: r) (hlength ▸ h)
  by_cases hquote : c = '.' ∧ c' = '"'
  · obtain ⟨rfl, rfl⟩ := hquote
    exact behindDigits_quote_append (by omega)
  · rw [behindDigits_of_ne hmark hquote, behindDigits_of_ne hmark hquote]

lemma scanHex_append {r s : List Char} (h : (scanHex (r ++ s)).2 ≤ r.length + 1) :
    scanHex (r ++ s) = scanHex r := by
  rw [scanHex_eq] at h ⊢
  have hdigits : runLength isHexDigit (r ++ s) ≤ r.length := by
    rcases behindDigits_eq_or (runLength isHexDigit (r ++ s))
      ((r ++ s).drop (runLength isHexDigit (r ++ s))) with heq | hlt
    · rw [heq] at h
      exact Nat.le_of_succ_le_succ h
    · omega
  have hrun := runLength_append hdigits
  rw [hrun] at h hdigits ⊢
  rw [List.drop_append_of_le_length hdigits] at h ⊢
  rw [scanHex_eq]
  apply behindDigits_append
  rw [List.length_drop]
  omega

/-! ### Symbols -/

/-- A symbol does not depend on more than the next two characters. -/
lemma scanSymbol_cons_cons (c x y : Char) (l l' : List Char) :
    scanSymbol c (x :: y :: l) = scanSymbol c (x :: y :: l') := by
  unfold scanSymbol
  split <;> simp_all

lemma scanSymbol_append {c : Char} {r s : List Char}
    (h : (scanSymbol c (r ++ s)).2 ≤ r.length) : scanSymbol c (r ++ s) = scanSymbol c r := by
  match r with
  | [] | [x] =>
    unfold scanSymbol at h ⊢
    split at h <;> simp_all
  | x :: y :: l => exact scanSymbol_cons_cons c x y (l ++ s) l

/-! ### All tokens -/

/-- A literal in base sixteen takes in more than its digits. -/
lemma runLength_lt_scanHex (cs : List Char) : runLength isHexDigit cs < (scanHex cs).2 := by
  rw [scanHex_eq]
  rcases behindDigits_eq_or (runLength isHexDigit cs) (cs.drop (runLength isHexDigit cs)) with
    heq | hlt
  · rw [heq]
    exact Nat.lt_succ_self _
  · omega

/-- Whether a literal in base sixteen begins behind a character. -/
def startsHex (c : Char) (cs : List Char) : Bool :=
  c == '0' && cs.head? == some 'x' && (cs.drop 1).head?.any isHexDigit

lemma scanHex_append_of_startsHex {c : Char} {r s : List Char}
    (hstarts : startsHex c (r ++ s) = true) (h : (scanHex ((r ++ s).drop 1)).2 ≤ r.length) :
    startsHex c r = true ∧ scanHex ((r ++ s).drop 1) = scanHex (r.drop 1) := by
  have hlt := runLength_lt_scanHex ((r ++ s).drop 1)
  match r with
  | [] =>
    rw [List.length_nil] at h
    omega
  | [x] =>
    have hdigit : 0 < runLength isHexDigit s := by
      cases s with
      | nil => simp [startsHex] at hstarts
      | cons y s =>
        have hy : isHexDigit y = true := by
          simp only [startsHex, List.cons_append, Bool.and_eq_true] at hstarts
          exact hstarts.2
        simp [runLength, hy]
    change runLength isHexDigit s < (scanHex s).2 at hlt
    change (scanHex s).2 ≤ 1 at h
    omega
  | x :: y :: r =>
    refine ⟨hstarts, ?_⟩
    exact scanHex_append (r := y :: r) h

lemma startsHex_append {c : Char} {r : List Char} (s : List Char) (h : startsHex c r = true) :
    startsHex c (r ++ s) = true := by
  match r with
  | [] | [x] => simp [startsHex] at h
  | x :: y :: r => exact h

/-- What begins at a character where neither white space nor a comment does. -/
def scanPlain (c : Char) (cs : List Char) : TokenKind × Nat :=
  if c == '"' then
    (.stringLiteral, (stringLength cs).2)
  else if c == '#' then
    scanBytes cs
  else if startsHex c cs then
    scanHex (cs.drop 1)
  else if c.isDigit then
    (.intLiteral, runLength Char.isDigit cs)
  else if isNameStart c then
    (wordKind (c :: cs.take (runLength isNameRest cs)), runLength isNameRest cs)
  else
    scanSymbol c cs

/-- Whether a comment begins at a character, the second mark of which is `mark`. -/
def startsComment (mark c : Char) (cs : List Char) : Bool := c == '/' && cs.head? == some mark

lemma scan_eq (c : Char) (cs : List Char) :
    scan c cs =
      if Text.isBlank c then (.whitespace, runLength Text.isBlank cs)
      else if startsComment '/' c cs then (.lineComment, runLength (· != '\n') cs)
      else if startsComment '*' c cs then (.blockComment, commentLength (cs.drop 1) + 1)
      else scanPlain c cs :=
  rfl

lemma startsComment_append {mark c : Char} {r : List Char} (s : List Char)
    (h : startsComment mark c r = true) : startsComment mark c (r ++ s) = true := by
  match r with
  | [] => simp [startsComment] at h
  | _ :: _ => exact h

/-- A token that is neither white space nor a comment is the same without what it does not reach
into.

**Proof sketch.** One case for each kind of token, in the order in which they are tried. -/
lemma scanPlain_append {c : Char} {r s : List Char} (h : (scanPlain c (r ++ s)).2 ≤ r.length) :
    scanPlain c (r ++ s) = scanPlain c r := by
  unfold scanPlain at h ⊢
  by_cases hquote : (c == '"') = true
  · rw [if_pos hquote] at h
    rw [if_pos hquote, if_pos hquote, stringLength_append h]
  rw [if_neg hquote] at h
  rw [if_neg hquote, if_neg hquote]
  by_cases hbytes : (c == '#') = true
  · rw [if_pos hbytes] at h
    rw [if_pos hbytes, if_pos hbytes, scanBytes_append h]
  rw [if_neg hbytes] at h
  rw [if_neg hbytes, if_neg hbytes]
  by_cases hhex : startsHex c (r ++ s) = true
  · rw [if_pos hhex] at h
    obtain ⟨hstarts, hsame⟩ := scanHex_append_of_startsHex hhex h
    rw [if_pos hhex, if_pos hstarts, hsame]
  rw [if_neg hhex] at h
  rw [if_neg hhex, if_neg fun hr => hhex (startsHex_append s hr)]
  by_cases hdigit : c.isDigit
  · rw [if_pos hdigit] at h
    rw [if_pos hdigit, if_pos hdigit, runLength_append h]
  rw [if_neg hdigit] at h
  rw [if_neg hdigit, if_neg hdigit]
  by_cases hname : isNameStart c
  · rw [if_pos hname] at h
    have hrun := runLength_append h
    simp only [hrun] at h
    rw [if_pos hname, if_pos hname, hrun, List.take_append_of_le_length h]
  · rw [if_neg hname] at h
    rw [if_neg hname, if_neg hname, scanSymbol_append h]

/-- **A token that does not reach into what follows is the same without it.**

**Proof sketch.** White space, the two kinds of comment, and all else. The two marks that begin a
comment are both in it, or it would be longer. -/
theorem scan_append {c : Char} {r s : List Char} (h : (scan c (r ++ s)).2 ≤ r.length) :
    scan c (r ++ s) = scan c r := by
  rw [scan_eq] at h ⊢
  rw [scan_eq]
  by_cases hblank : Text.isBlank c
  · rw [if_pos hblank] at h
    rw [if_pos hblank, if_pos hblank, runLength_append h]
  rw [if_neg hblank] at h
  rw [if_neg hblank, if_neg hblank]
  by_cases hline : startsComment '/' c (r ++ s) = true
  · rw [if_pos hline] at h
    have hr : startsComment '/' c r = true := by
      match r with
      | [] =>
        cases s with
        | nil => exact hline
        | cons x s =>
          have hx : x = '/' := by simpa using (Bool.and_eq_true_iff.1 hline).2
          simp [runLength, hx] at h
      | _ :: _ => exact hline
    rw [if_pos hline, if_pos hr, runLength_append h]
  rw [if_neg hline] at h
  rw [if_neg hline, if_neg fun hr => hline (startsComment_append s hr)]
  by_cases hblock : startsComment '*' c (r ++ s) = true
  · rw [if_pos hblock] at h
    obtain ⟨x, r, rfl⟩ : ∃ x r', r = x :: r' := by
      apply List.exists_cons_of_ne_nil
      rintro rfl
      rw [List.length_nil] at h
      omega
    have hr : startsComment '*' c (x :: r) = true := hblock
    rw [if_pos hblock, if_pos hr]
    simp only [List.cons_append, List.drop_succ_cons, List.drop_zero, List.length_cons] at h ⊢
    rw [commentLength_append (by omega)]
  rw [if_neg hblock] at h
  rw [if_neg hblock, if_neg fun hr => hblock (startsComment_append s hr), scanPlain_append h]

/-! ## Tokens further on -/

/-- **The tokens of characters that stand further on** stand further on by as much. -/
theorem tokensFrom_shift (d start : Nat) (cs : List Char) :
    tokensFrom (start + d) cs = (tokensFrom start cs).map (Token.shift d) := by
  induction start, cs using tokens_induction with
  | nil start => simp
  | cons start c cs ih =>
    have hfirst : firstToken (start + d) c cs = (firstToken start c cs).shift d := by
      simp only [firstToken, Token.ofText, Token.shift, Span.shift, Nat.add_right_comm]
    rw [tokensFrom_cons, tokensFrom_cons, List.map_cons, hfirst, ← ih]
    rfl

/-! ### Where tokens start and end -/

/-- A token ends after the place where the text begins. -/
lemma lt_stop_of_mem_tokensFrom {start : Nat} {cs : List Char} {t : Token}
    (ht : t ∈ tokensFrom start cs) : start < t.span.stop := by
  induction start, cs using tokens_induction with
  | nil start => simp at ht
  | cons start c cs ih =>
    rw [tokensFrom_cons, List.mem_cons] at ht
    rcases ht with rfl | ht
    · exact lt_stop_firstToken start c cs
    · exact (lt_stop_firstToken start c cs).trans (ih ht)

/-- The last token of a text ends where the text does. -/
lemma stop_getLast_tokensFrom (start : Nat) (cs : List Char) :
    ((tokensFrom start cs).getLast?.map (·.span.stop)).getD start =
      start + (String.ofList cs).utf8ByteSize := by
  induction start, cs using tokens_induction with
  | nil start => simp
  | cons start c cs ih =>
    rw [tokensFrom_cons, List.getLast?_cons, ← stop_firstToken_add, ← ih]
    cases (tokensFrom (firstToken start c cs).span.stop _).getLast? <;> rfl

/-- The tokens of a text start within it. -/
lemma start_le_of_mem_tokensFrom {start : Nat} {cs : List Char} {t : Token}
    (ht : t ∈ tokensFrom start cs) : t.span.start ≤ start + (String.ofList cs).utf8ByteSize := by
  induction start, cs using tokens_induction with
  | nil start => simp at ht
  | cons start c cs ih =>
    rw [tokensFrom_cons, List.mem_cons] at ht
    rcases ht with rfl | ht
    · exact Nat.le_add_right start _
    · rw [← stop_firstToken_add]
      exact ih ht

/-- The last token of a text ends where the text does. -/
theorem endOf_tokenize (text : String) : Grammar.endOf (tokenize text) = text.utf8ByteSize := by
  have h := stop_getLast_tokensFrom 0 text.toList
  rwa [String.ofList_toList, Nat.zero_add] at h

/-- The tokens of a text start within it. -/
theorem start_le_of_mem_tokenize {text : String} {t : Token} (ht : t ∈ tokenize text) :
    t.span.start ≤ text.utf8ByteSize := by
  have h := start_le_of_mem_tokensFrom ht
  rwa [String.ofList_toList, Nat.zero_add] at h

/-- The first token of a text starts where the text does. -/
lemma start_eq_of_tokenize_eq_cons {text : String} {t : Token} {rest : List Token}
    (h : tokenize text = t :: rest) : t.span.start = 0 := by
  unfold tokenize at h
  cases hcs : text.toList with
  | nil =>
    rw [hcs, tokensFrom_nil] at h
    cases h
  | cons c cs =>
    rw [hcs, tokensFrom_cons] at h
    cases h
    rfl

/-! ## Cutting -/

/-- A first token that does not reach into what follows is the same without it, and so are the
characters behind it, with what follows. -/
lemma tokensFrom_cons_append {c : Char} {r s : List Char} (start : Nat)
    (h : (scan c (r ++ s)).2 ≤ r.length) :
    tokensFrom start (c :: r ++ s) = firstToken start c r ::
      tokensFrom (firstToken start c r).span.stop (r.drop (scan c r).2 ++ s) := by
  have hscan := scan_append h
  rw [hscan] at h
  have hfirst : firstToken start c (r ++ s) = firstToken start c r := by
    rw [firstToken, hscan, List.take_append_of_le_length h, firstToken]
  rw [List.cons_append, tokensFrom_cons, hfirst, hscan, List.drop_append_of_le_length h]

/-- Where the first token reaches into what follows, every token ends behind the cut. -/
lemma lt_stop_of_reaches {start : Nat} {c b : Char} {r bs : List Char} {t : Token}
    (h : r.length < (scan c (r ++ b :: bs)).2)
    (ht : t ∈ tokensFrom start (c :: r ++ b :: bs)) :
    start + (String.ofList (c :: r)).utf8ByteSize < t.span.stop := by
  have hfirst : start + (String.ofList (c :: r)).utf8ByteSize <
      (firstToken start c (r ++ b :: bs)).span.stop := by
    change _ < start + (String.ofList (c :: (r ++ b :: bs).take _)).utf8ByteSize
    obtain ⟨m, hm⟩ : ∃ m, (scan c (r ++ b :: bs)).2 = r.length + (m + 1) :=
      ⟨(scan c (r ++ b :: bs)).2 - r.length - 1, by omega⟩
    rw [hm, List.take_append, List.take_of_length_le (by omega), Nat.add_sub_cancel_left,
      List.take_succ_cons, ← List.cons_append, byteSize_append]
    exact Nat.add_lt_add_left (Nat.lt_add_of_pos_right (byteSize_cons_pos b _)) start
  rw [List.cons_append, tokensFrom_cons, List.mem_cons] at ht
  rcases ht with rfl | ht
  · exact hfirst
  · exact hfirst.trans (lt_stop_of_mem_tokensFrom ht)

/-- The tokens of a text that is cut between two of them.

**Proof sketch.** Induction from token to token before the cut. A token that reached into what
follows would end behind the cut, and so would all those after it. -/
lemma tokensFrom_append {start : Nat} {as bs : List Char}
    (h : as = [] ∨ ∃ t ∈ tokensFrom start (as ++ bs),
      t.span.stop = start + (String.ofList as).utf8ByteSize) :
    tokensFrom start (as ++ bs) =
      tokensFrom start as ++ tokensFrom (start + (String.ofList as).utf8ByteSize) bs := by
  induction start, as using tokens_induction with
  | nil start => simp
  | cons start c r ih =>
    obtain ⟨t, ht, hstop⟩ := h.resolve_left (List.cons_ne_nil c r)
    by_cases hle : (scan c (r ++ bs)).2 ≤ r.length
    · have hend := stop_firstToken_add start c r
      rw [tokensFrom_cons_append start hle] at ht ⊢
      -- The cut is behind the first token, or there is more to cut.
      have hcut : r.drop (scan c r).2 = [] ∨
          ∃ t ∈ tokensFrom (firstToken start c r).span.stop (r.drop (scan c r).2 ++ bs),
            t.span.stop = (firstToken start c r).span.stop +
              (String.ofList (r.drop (scan c r).2)).utf8ByteSize := by
        rcases List.mem_cons.1 ht with rfl | ht
        · refine .inl ?_
          cases hrest : r.drop (scan c r).2 with
          | nil => rfl
          | cons x rest =>
            have hpos := byteSize_cons_pos x rest
            rw [hrest] at hend
            omega
        · exact .inr ⟨t, ht, hstop.trans hend.symm⟩
      rw [ih hcut, hend, tokensFrom_cons, List.cons_append]
    · -- The first token reaches into what follows, if anything does.
      cases bs with
      | nil => simp
      | cons b bs =>
        have hlt := lt_stop_of_reaches (Nat.lt_of_not_le hle) ht
        omega

/-- **The tokens of a text that is cut between two of them** are those of the two parts. -/
theorem tokenize_append {a b : String} (h : a.utf8ByteSize = 0 ∨
    ∃ t ∈ tokenize (a ++ b), t.span.stop = a.utf8ByteSize) :
    tokenize (a ++ b) = tokenize a ++ (tokenize b).map (Token.shift a.utf8ByteSize) := by
  unfold tokenize at h ⊢
  rw [String.toList_append] at h ⊢
  have hcut : a.toList = [] ∨ ∃ t ∈ tokensFrom 0 (a.toList ++ b.toList),
      t.span.stop = 0 + (String.ofList a.toList).utf8ByteSize := by
    rw [String.ofList_toList, Nat.zero_add]
    refine h.imp (fun hempty => ?_) id
    rw [String.utf8ByteSize_eq_zero_iff.1 hempty]
    rfl
  rw [tokensFrom_append hcut, String.ofList_toList, ← tokensFrom_shift]

end TxTree
