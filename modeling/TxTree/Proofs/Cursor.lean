import TxTree.Proofs.Forms
import TxTree.Proofs.Lines
import TxTree.Proofs.Tiling
import TxTree.Token.Cursor

set_option relaxedAutoImplicit false
set_option autoImplicit false

/-!
# A cursor never cuts a character

A cursor that reads tokens is a number of bytes, and nothing keeps it between two characters but how
it is moved. It always stands before some characters that are the rest of the text. Each reading
function takes it behind as many of them as belong to the token, whether it adds the bytes of a mark
that it has seen, goes to where a search ended or to the end of the text, or goes back where a
string was not closed. So no cut fails, each token takes the cursor further on, and it comes to the
end.

## Main definitions

* `TxTree.Cursor.StandsBefore` — whether some characters are the rest of the text at a cursor.

## Main results

* `TxTree.Cursor.StandsBefore.read` — what begins at the cursor is passed, and no more.
* `TxTree.Cursor.tokenize?_eq` — a cursor reads the tokens of a text.
* `TxTree.Cursor.exists_nextToken?` — it reads a token at any boundary of characters.
* `TxTree.tokenize_tiles` — the tokens of a text tile it.
-/

namespace TxTree.Cursor

open Scan

/-! ## Standing between two characters -/

/-- **A cursor stands before some characters** if these are the rest of the text, and the cursor is
the number of bytes of all that is before them. -/
def StandsBefore (text : String) (position : Nat) (cs : List Char) : Prop :=
  ∃ before : List Char,
    text.toList = before ++ cs ∧ position = (String.ofList before).utf8ByteSize

lemma standsBefore_zero (text : String) : StandsBefore text 0 text.toList := ⟨[], rfl, rfl⟩

/-- What is between two strings is cut out where it stands. -/
lemma cut?_append (before mid after : String) :
    cut? (before ++ mid ++ after) before.utf8ByteSize
      (before.utf8ByteSize + mid.utf8ByteSize) = some mid := by
  have hlies := Token.liesIn_append .ident before mid after
  rw [cut?, dif_pos ⟨hlies.start_isValid, hlies.stop_isValid, Nat.le_add_right _ _⟩]
  exact congrArg some hlies.extract_eq

/-- Bytes are passed with the first character, and then with the others. -/
lemma add_byteSize_cons (position : Nat) (c : Char) (cs : List Char) :
    position + (String.ofList (c :: cs)).utf8ByteSize =
      position + c.utf8Size + (String.ofList cs).utf8ByteSize := by
  rw [Text.byteSize_cons, Nat.add_assoc]

section Standing

variable {text : String} {position : Nat} {c : Char} {as cs : List Char} {p : Char → Bool}

namespace StandsBefore

/-- The cursor may move on behind any of the next characters. -/
lemma moved (h : StandsBefore text position (as ++ cs)) :
    StandsBefore text (position + (String.ofList as).utf8ByteSize) cs := by
  obtain ⟨before, htext, rfl⟩ := h
  exact ⟨before ++ as, by rw [htext, List.append_assoc], (byteSize_append _ _).symm⟩

/-- The next characters are cut out. -/
lemma cut (h : StandsBefore text position (as ++ cs)) :
    cut? text position (position + (String.ofList as).utf8ByteSize) =
      some (String.ofList as) := by
  obtain ⟨before, htext, rfl⟩ := h
  have hsplit : text = String.ofList before ++ String.ofList as ++ String.ofList cs := by
    rw [← String.ofList_append, ← String.ofList_append, List.append_assoc, ← htext,
      String.ofList_toList]
  rw [hsplit]
  exact cut?_append _ _ _

lemma moved_take (h : StandsBefore text position cs) (n : Nat) :
    StandsBefore text (position + (String.ofList (cs.take n)).utf8ByteSize) (cs.drop n) := by
  rw [← List.take_append_drop n cs] at h
  exact h.moved

lemma cut_take (h : StandsBefore text position cs) (n : Nat) :
    cut? text position (position + (String.ofList (cs.take n)).utf8ByteSize) =
      some (String.ofList (cs.take n)) := by
  rw [← List.take_append_drop n cs] at h
  exact h.cut

/-- The rest of the text takes up the bytes to its end. -/
lemma add_size (h : StandsBefore text position cs) :
    position + (String.ofList cs).utf8ByteSize = text.utf8ByteSize := by
  obtain ⟨before, htext, rfl⟩ := h
  rw [← byteSize_append, ← htext, String.ofList_toList]

lemma rest (h : StandsBefore text position cs) : rest? text position = some cs := by
  have hall : StandsBefore text position (cs ++ []) := by rwa [List.append_nil]
  have hcut := hall.cut
  rw [h.add_size] at hcut
  rw [rest?, hcut, Option.map_some, String.toList_ofList]

lemma peek (h : StandsBefore text position cs) (ahead : Nat) :
    peek? text position ahead = some cs[ahead]? := by
  rw [peek?, h.rest, Option.map_some]

lemma peek_zero (h : StandsBefore text position cs) : peek? text position 0 = some cs.head? := by
  rw [h.peek, List.head?_eq_getElem?]

/-! ### Passing characters -/

/-- The cursor passes one character. -/
lemma advance (h : StandsBefore text position (c :: cs)) :
    advance? text position = some (position + c.utf8Size) := by
  rw [advance?, h.peek]
  rfl

lemma moved_cons (h : StandsBefore text position (c :: cs)) :
    StandsBefore text (position + c.utf8Size) cs := by
  have hfirst : StandsBefore text position ([c] ++ cs) := h
  have hmoved := hfirst.moved
  rwa [Text.byteSize_cons] at hmoved

/-- A cursor that moves on comes nearer to the end. -/
lemma left_lt {next : Nat} (h : StandsBefore text position (c :: cs)) (hnext : position < next) :
    text.utf8ByteSize - next < text.utf8ByteSize - position := by
  have hsize := h.add_size
  have hpos := byteSize_cons_pos c cs
  omega

lemma left_lt_cons (h : StandsBefore text position (c :: cs)) :
    text.utf8ByteSize - (position + c.utf8Size) < text.utf8ByteSize - position :=
  h.left_lt (Nat.lt_add_of_pos_right c.utf8Size_pos)

/-- The cursor passes the next characters of a class. -/
lemma advanceWhile (h : StandsBefore text position cs) :
    advanceWhile? text p position =
      some (position + (String.ofList (cs.takeWhile p)).utf8ByteSize) := by
  induction cs generalizing position with
  | nil =>
    refine loop?_of_done ?_
    rw [h.peek]
    rfl
  | cons c cs ih =>
    cases hc : p c with
    | true =>
      rw [List.takeWhile_cons_of_pos hc, add_byteSize_cons, ← ih h.moved_cons]
      refine loop?_of_step ?_ h.left_lt_cons
      rw [h.peek]
      exact congrArg some (if_pos hc)
    | false =>
      rw [List.takeWhile_cons_of_neg (Bool.eq_false_iff.1 hc)]
      refine loop?_of_done ?_
      rw [h.peek]
      exact congrArg some (if_neg (Bool.eq_false_iff.1 hc))

end StandsBefore

/-! ## Searches -/

/-- The search for the closing mark of a comment ends where the comment does, less the mark; and if
there is none the comment takes in all the rest. -/
lemma bytesBefore?_closingMark (cs : List Char) :
    match bytesBefore? ['*', '/'] cs with
    | some bytes => bytes + 2 = (String.ofList (cs.take (commentLength cs))).utf8ByteSize
    | none => cs.take (commentLength cs) = cs := by
  fun_induction commentLength cs with
  | case1 => rfl
  | case2 rest => rfl
  | case3 c rest hne ih =>
    have hmark : ['*', '/'].isPrefixOf (c :: rest) = false := by
      refine Bool.eq_false_iff.2 fun hprefix => ?_
      obtain ⟨tail, htail⟩ := List.isPrefixOf_iff_prefix.1 hprefix
      cases htail
      exact hne tail rfl rfl
    rw [bytesBefore?, hmark, List.take_succ_cons]
    cases hfound : bytesBefore? ['*', '/'] rest with
    | none =>
      rw [hfound] at ih
      exact congrArg (c :: ·) ih
    | some bytes =>
      rw [hfound] at ih
      change c.utf8Size + bytes + 2 = _
      rw [Text.byteSize_cons, ← ih, Nat.add_assoc]

/-- A run has no characters if the next one is not of the class. -/
lemma any_head?_eq_false_iff : cs.head?.any p = false ↔ runLength p cs = 0 := by
  cases cs with
  | nil => simp [runLength]
  | cons d cs => cases hd : p d <;> simp [runLength, hd]

/-! ## Comments and strings -/

namespace StandsBefore

/-- A block comment is passed. -/
lemma blockComment (h : StandsBefore text position ('/' :: '*' :: cs)) :
    blockComment? text position = some (.blockComment, position +
      (String.ofList ('/' :: '*' :: cs.take (commentLength cs))).utf8ByteSize) := by
  have hinside : StandsBefore text (position + 2) cs := h.moved_cons.moved_cons
  have hsize : (String.ofList ('/' :: '*' :: cs.take (commentLength cs))).utf8ByteSize =
      2 + (String.ofList (cs.take (commentLength cs))).utf8ByteSize := by
    rw [Text.byteSize_cons, Text.byteSize_cons, ← Nat.add_assoc]
    rfl
  have hfound := bytesBefore?_closingMark cs
  rw [blockComment?, hinside.rest, hsize]
  cases hsearch : bytesBefore? ['*', '/'] cs with
  | none =>
    rw [hsearch] at hfound
    rw [hfound, ← Nat.add_assoc, hinside.add_size]
    simp [hsearch]
  | some bytes =>
    rw [hsearch] at hfound
    rw [← hfound, ← Nat.add_assoc]
    simp [hsearch]

/-- A string that is open stops at the end of the text … -/
lemma stringRest_end (h : StandsBefore text position []) :
    stringRest? text position = some (false, position) := by
  refine loop?_of_done ?_
  rw [h.peek]
  rfl

/-- … or before a line end; … -/
lemma stringRest_line (h : StandsBefore text position ('\n' :: cs)) :
    stringRest? text position = some (false, position) := by
  refine loop?_of_done ?_
  rw [h.peek]
  rfl

/-- … and one that is closed behind the quote. -/
lemma stringRest_quote (h : StandsBefore text position ('"' :: cs)) :
    stringRest? text position = some (true, position + '"'.utf8Size) := by
  refine loop?_of_done ?_
  rw [h.peek]
  simp only [h.advance, Option.bind_eq_bind, Option.bind_some, List.getElem?_cons_zero]
  rfl

/-- A backslash is passed by itself before the end of the text or a line end, … -/
lemma stringRest_slash (h : StandsBefore text position ('\\' :: cs))
    (hcs : cs.head?.any (· != '\n') = false) :
    stringRest? text position = stringRest? text (position + '\\'.utf8Size) := by
  refine loop?_of_step ?_ h.left_lt_cons
  have hnext := h.moved_cons.peek_zero
  rw [h.peek]
  simp [h.advance, hnext, hcs]

/-- … and otherwise with the character behind it. -/
lemma stringRest_escape (h : StandsBefore text position ('\\' :: c :: cs)) (hc : c ≠ '\n') :
    stringRest? text position = stringRest? text (position + '\\'.utf8Size + c.utf8Size) := by
  have hlt : position < position + '\\'.utf8Size + c.utf8Size := by
    have hpos := c.utf8Size_pos
    omega
  refine loop?_of_step ?_ (h.left_lt hlt)
  have hnext := h.moved_cons.peek 0
  have hadvance := h.moved_cons.advance
  rw [h.peek]
  simp [h.advance, hnext, hadvance, hc]

/-- Any other character but the closing quote is passed by itself. -/
lemma stringRest_cons (h : StandsBefore text position (c :: cs)) (hquote : c ≠ '"')
    (hline : c ≠ '\n') (hslash : c ≠ '\\') :
    stringRest? text position = stringRest? text (position + c.utf8Size) := by
  refine loop?_of_step ?_ h.left_lt_cons
  rw [h.peek]
  simp only [h.advance, Option.bind_eq_bind, Option.bind_some, List.getElem?_cons_zero]
  rfl

/-- What is behind the opening quote of a string is passed.

**Proof sketch.** Induction on the characters, along the cases of the length of a string. -/
lemma stringRest (h : StandsBefore text position cs) :
    stringRest? text position = some ((stringLength cs).1,
      position + (String.ofList (cs.take (stringLength cs).2)).utf8ByteSize) := by
  fun_induction stringLength cs generalizing position with
  | case1 => exact h.stringRest_end
  | case2 rest => exact h.stringRest_quote
  | case3 rest => exact h.stringRest_line
  | case4 =>
    rw [h.stringRest_slash rfl, h.moved_cons.stringRest_end]
    rfl
  | case5 rest =>
    rw [h.stringRest_slash rfl, h.moved_cons.stringRest_line]
    rfl
  | case6 c rest hc closed n heq ih =>
    rw [h.stringRest_escape hc, ih h.moved_cons.moved_cons, heq, List.take_succ_cons,
      List.take_succ_cons, add_byteSize_cons, add_byteSize_cons]
  | case7 c rest hquote hline hend _ hnext closed n heq ih =>
    rw [h.stringRest_cons hquote hline (ne_backslash hend hnext), ih h.moved_cons, heq,
      List.take_succ_cons, add_byteSize_cons]

/-- A string is passed. -/
lemma string (h : StandsBefore text position ('"' :: cs)) :
    string? text position = some ((stringLength cs).1,
      position + (String.ofList ('"' :: cs.take (stringLength cs).2)).utf8ByteSize) := by
  rw [string?, h.advance, add_byteSize_cons]
  exact h.moved_cons.stringRest

/-! ## Literals -/

/-- The mark `#` is passed, and the digits behind it. -/
lemma bytes (h : StandsBefore text position ('#' :: cs)) :
    bytes? text position = some ((scanBytes cs).1,
      position + (String.ofList ('#' :: cs.take (scanBytes cs).2)).utf8ByteSize) := by
  have hinside := h.moved_cons
  rw [bytes?, h.advance, add_byteSize_cons]
  simp only [Option.bind_eq_bind, Option.bind_some, hinside.peek_zero, scanBytes]
  cases hany : cs.head?.any isHexDigit with
  | false =>
    rw [any_head?_eq_false_iff.1 hany]
    rfl
  | true =>
    have hrun : runLength isHexDigit cs ≠ 0 := by
      rw [ne_eq, ← any_head?_eq_false_iff, hany]
      exact Bool.true_eq_false_eq_False
    rw [if_pos rfl, hinside.advanceWhile, ← take_runLength]
    split
    · contradiction
    · rfl

/-- Behind the digits of a literal in base sixteen, a mark is passed with the number behind it, if
there is one. -/
lemma behindDigits_mark (h : StandsBefore text position ('#' :: cs)) (n : Nat) :
    ∃ kind m, TxTree.behindDigits n ('#' :: cs) = (kind, n + 1 + m) ∧
      behindDigits? text position =
        some (kind, position + (String.ofList (('#' :: cs).take m)).utf8ByteSize) := by
  have hsecond : ('#' :: cs)[1]? = cs.head? := List.head?_eq_getElem?.symm
  rw [TxTree.behindDigits, behindDigits?, h.peek, h.peek, hsecond]
  cases hany : cs.head?.any Char.isDigit with
  | false =>
    refine ⟨.hexLiteral, 0, by rw [any_head?_eq_false_iff.1 hany]; rfl, ?_⟩
    simp [hany]
  | true =>
    refine ⟨.utxoRefLiteral, runLength Char.isDigit cs + 1, ?_, ?_⟩
    · split
      · next hrun =>
        rw [any_head?_eq_false_iff.2 hrun] at hany
        cases hany
      · congr 1
        omega
    · rw [List.take_succ_cons, take_runLength, add_byteSize_cons]
      simp [hany, h.advance, h.moved_cons.advanceWhile]

/-- A point is passed with the string behind it if that is closed. If it is open the cursor goes
back to where it was. -/
lemma behindDigits_quote (h : StandsBefore text position ('.' :: '"' :: cs)) (n : Nat) :
    ∃ kind m, TxTree.behindDigits n ('.' :: '"' :: cs) = (kind, n + 1 + m) ∧
      behindDigits? text position =
        some (kind, position + (String.ofList (('.' :: '"' :: cs).take m)).utf8ByteSize) := by
  have hstring := h.moved_cons.string
  have hread : behindDigits? text position = some (if (stringLength cs).1 then
      (.assetLiteral, position + '.'.utf8Size +
        (String.ofList ('"' :: cs.take (stringLength cs).2)).utf8ByteSize)
      else (.hexLiteral, position)) := by
    rw [behindDigits?, h.peek, h.peek]
    simp [h.advance, hstring]
  rw [TxTree.behindDigits, hread]
  obtain ⟨closed, m⟩ := stringLength cs
  cases closed with
  | false => exact ⟨.hexLiteral, 0, rfl, rfl⟩
  | true =>
    have hlength : n + 3 + m = n + 1 + (m + 2) := by omega
    refine ⟨.assetLiteral, m + 2, by rw [← hlength], ?_⟩
    rw [List.take_succ_cons, List.take_succ_cons, add_byteSize_cons position '.']
    rfl

/-- Behind the digits of a literal in base sixteen, what belongs to it is passed, and no more. -/
lemma behindDigits (h : StandsBefore text position cs) (n : Nat) :
    ∃ kind m, TxTree.behindDigits n cs = (kind, n + 1 + m) ∧
      behindDigits? text position =
        some (kind, position + (String.ofList (cs.take m)).utf8ByteSize) := by
  unfold TxTree.behindDigits
  split
  · exact h.behindDigits_mark n
  · exact h.behindDigits_quote n
  · next hmark hquote =>
    have hnomark : ¬(cs[0]? == some '#' && cs[1]?.any Char.isDigit) = true := by
      intro hthere
      have hfirst := beq_iff_eq.1 (Bool.and_eq_true_iff.1 hthere).1
      obtain ⟨rest, rfl⟩ := List.head?_eq_some_iff.1 (List.head?_eq_getElem?.trans hfirst)
      exact hmark rest rfl
    have hnoquote : ¬(cs[0]? == some '.' && cs[1]? == some '"') = true := by
      intro hthere
      rw [Bool.and_eq_true, beq_iff_eq, beq_iff_eq] at hthere
      obtain ⟨rest, rfl⟩ := List.head?_eq_some_iff.1 (List.head?_eq_getElem?.trans hthere.1)
      obtain ⟨rest, rfl⟩ := List.head?_eq_some_iff.1 (List.head?_eq_getElem?.trans hthere.2)
      exact hquote rest rfl
    refine ⟨.hexLiteral, 0, rfl, ?_⟩
    rw [behindDigits?, h.peek, h.peek]
    simp only [Option.bind_eq_bind, Option.bind_some, if_neg hnomark, if_neg hnoquote]
    rfl

/-- What begins with `0x` is passed. -/
lemma hexFamily (h : StandsBefore text position ('0' :: 'x' :: cs)) :
    hexFamily? text position = some ((scanHex cs).1,
      position + (String.ofList ('0' :: ('x' :: cs).take (scanHex cs).2)).utf8ByteSize) := by
  have hinside : StandsBefore text (position + 2) cs := h.moved_cons.moved_cons
  obtain ⟨kind, m, hkind, hpassed⟩ :=
    (hinside.moved_take (runLength isHexDigit cs)).behindDigits (runLength isHexDigit cs)
  have hsize (digits behind : List Char) :
      (String.ofList ('0' :: 'x' :: (digits ++ behind))).utf8ByteSize =
        2 + (String.ofList digits).utf8ByteSize + (String.ofList behind).utf8ByteSize := by
    rw [Text.byteSize_cons, Text.byteSize_cons, byteSize_append, ← Nat.add_assoc, ← Nat.add_assoc]
    rfl
  have htake : ('x' :: cs).take (runLength isHexDigit cs + 1 + m) =
      'x' :: (cs.take (runLength isHexDigit cs) ++ (cs.drop (runLength isHexDigit cs)).take m) := by
    rw [Nat.add_right_comm, List.take_succ_cons, List.take_add]
  rw [hexFamily?, hinside.advanceWhile, ← take_runLength, scanHex_eq, hkind]
  simp only [htake, hsize, ← Nat.add_assoc]
  exact hpassed

/-! ## Symbols -/

/-- Each long symbol is the text of its kind, and takes up as many bytes as are known. -/
lemma wideSymbols_spelled : ∀ wide ∈ wideSymbols, wide.2.1 ∈ longSymbols ∧
    wide.2.1.isSymbol = true ∧ wide.1 = wide.2.1.name ∧ wide.2.2 = wide.1.utf8ByteSize := by
  decide

/-- Where no long symbol stands, the next character is read by itself. -/
lemma scanSymbol_of_find?_eq_none
    (h : wideSymbols.find? (·.1.toList.isPrefixOf (c :: cs)) = none) :
    scanSymbol c cs = (symbolKind (some c), 0) := by
  by_cases hinvalid : scanSymbol c cs = (.invalid, 0)
  · rw [hinvalid, symbolKind, scanSymbol_nil hinvalid]
  · revert hinvalid
    fun_cases scanSymbol c cs
    all_goals intro hvalid
    all_goals first
      | rfl
      | exact absurd rfl hvalid
      | cases h

/-- A symbol is passed, or else a character that begins no token. -/
lemma symbol (h : StandsBefore text position (c :: cs)) :
    symbol? text position = some ((scanSymbol c cs).1,
      position + (String.ofList (c :: cs.take (scanSymbol c cs).2)).utf8ByteSize) := by
  rw [symbol?, h.rest]
  simp only [Option.bind_eq_bind, Option.bind_some]
  split
  · next mark kind bytes hfind =>
    obtain ⟨hlong, hsymbol, hmark, hbytes⟩ :=
      wideSymbols_spelled _ (List.mem_of_find?_eq_some hfind)
    have hfound := List.find?_some hfind
    have hprefix := List.isPrefixOf_iff_prefix.1 hfound
    rw [hmark] at hprefix
    have hread : (scanSymbol c cs).1 = kind := by rw [scanSymbol_of_long hlong hprefix]
    have hspells := (scanSymbol_spells c cs).resolve_left (scanSymbol_ne_invalid hsymbol hprefix)
    rw [← hspells.2, hread, ← hmark, ← hbytes]
    rfl
  · next hfind =>
    rw [scanSymbol_of_find?_eq_none hfind, h.peek, h.advance, List.take_zero, Text.byteSize_cons]
    rfl

/-! ## Tokens -/

lemma isNameRest_of_isNameStart (h : isNameStart c = true) : isNameRest c = true := by
  rw [isNameStart, Bool.or_eq_true] at h
  rw [isNameRest, Bool.or_right_comm, Bool.or_eq_true, Bool.or_eq_true]
  exact .inl h

/-- The cursor passes a character and those of its class that follow. -/
lemma advanceRun (h : StandsBefore text position (c :: cs)) (hc : p c = true) :
    advanceWhile? text p position =
      some (position + (String.ofList (c :: cs.take (runLength p cs))).utf8ByteSize) := by
  rw [h.advanceWhile, List.takeWhile_cons_of_pos hc, take_runLength]

/-- **What begins at the cursor is passed.**

**Proof sketch.** One case for each kind of token, in the order in which they are tried. -/
lemma read (h : StandsBefore text position (c :: cs)) :
    read? text c position = some ((scan c cs).1,
      position + (String.ofList (c :: cs.take (scan c cs).2)).utf8ByteSize) := by
  have hone : (c :: cs)[1]? = cs.head? := by rw [List.getElem?_cons_succ, List.head?_eq_getElem?]
  have htwo : (c :: cs)[2]? = (cs.drop 1).head? := by simp
  unfold read? scan
  simp only [h.peek, hone, htwo, Option.bind_eq_bind, Option.bind_some]
  by_cases hblank : Text.isBlank c = true
  · rw [if_pos hblank, if_pos hblank, h.advanceRun hblank]
    rfl
  rw [if_neg hblank, if_neg hblank]
  by_cases hline : (c == '/' && cs.head? == some '/') = true
  · have hc : (c != '\n') = true := by
      rw [beq_iff_eq.1 (Bool.and_eq_true_iff.1 hline).1]
      rfl
    rw [if_pos hline, if_pos hline, h.advanceRun (p := fun d => d != '\n') hc]
    rfl
  rw [if_neg hline, if_neg hline]
  by_cases hblock : (c == '/' && cs.head? == some '*') = true
  · rw [if_pos hblock, if_pos hblock]
    obtain ⟨rest, hrest⟩ := startsComment_iff.1 hblock
    cases hrest
    exact h.blockComment
  rw [if_neg hblock, if_neg hblock]
  by_cases hquote : (c == '"') = true
  · obtain rfl := beq_iff_eq.1 hquote
    rw [if_pos hquote, if_pos hquote, h.string]
    rfl
  rw [if_neg hquote, if_neg hquote]
  by_cases hbytes : (c == '#') = true
  · obtain rfl := beq_iff_eq.1 hbytes
    rw [if_pos hbytes, if_pos hbytes, h.bytes]
  rw [if_neg hbytes, if_neg hbytes]
  by_cases hhex : (c == '0' && cs.head? == some 'x' && (cs.drop 1).head?.any isHexDigit) = true
  · rw [if_pos hhex, if_pos hhex]
    obtain ⟨d, rest, rfl, rfl, hd⟩ := startsHex_iff.1 hhex
    exact h.hexFamily
  rw [if_neg hhex, if_neg hhex]
  by_cases hdigit : c.isDigit = true
  · rw [if_pos hdigit, if_pos hdigit, h.advanceRun hdigit]
    rfl
  rw [if_neg hdigit, if_neg hdigit]
  by_cases hname : isNameStart c = true
  · rw [if_pos hname, if_pos hname, h.advanceRun (isNameRest_of_isNameStart hname)]
    have hcut := h.cut_take (runLength isNameRest cs + 1)
    rw [List.take_succ_cons] at hcut
    rw [Option.bind_some, hcut, Option.bind_some, String.toList_ofList]
    rfl
  · rw [if_neg hname, if_neg hname, h.symbol]

/-- The token that begins at the cursor is cut out, and the cursor is behind it. -/
lemma nextToken (h : StandsBefore text position (c :: cs)) :
    nextToken? text position =
      some (firstToken position c cs, (firstToken position c cs).span.stop) := by
  have hcut := h.cut_take ((scan c cs).2 + 1)
  rw [List.take_succ_cons] at hcut
  rw [nextToken?, h.peek]
  simp only [Option.bind_eq_bind, Option.bind_some, List.getElem?_cons_zero, h.read, hcut]
  rfl

/-- What begins behind the first token. -/
lemma behindToken (h : StandsBefore text position (c :: cs)) :
    StandsBefore text (firstToken position c cs).span.stop (cs.drop (scan c cs).2) :=
  h.moved_take ((scan c cs).2 + 1)

/-- The cursor reads the tokens of the characters that it stands before.

**Proof sketch.** Induction from token to token. The cursor is before the end as long as there is a
character, since each takes up some bytes, and so does each token. -/
lemma tokens (h : StandsBefore text position cs) (read : List Token) :
    tokensFrom? text position read = some (read ++ tokensFrom position cs) := by
  induction position, cs using tokens_induction generalizing read with
  | nil position =>
    have hend : text.utf8ByteSize ≤ position := h.add_size.ge
    rw [tokensFrom_nil, List.append_nil]
    exact loop?_of_done (if_pos hend)
  | cons position c cs ih =>
    have hbefore : ¬text.utf8ByteSize ≤ position := by
      have hpos := byteSize_cons_pos c cs
      have hsize := h.add_size
      omega
    have hlater := ih h.behindToken (read ++ [firstToken position c cs])
    rw [tokensFrom_cons, ← List.singleton_append, ← List.append_assoc, ← hlater]
    refine loop?_of_step ?_ (h.left_lt (lt_stop_firstToken position c cs))
    refine (if_neg hbefore).trans ?_
    rw [h.nextToken]
    rfl

end StandsBefore

end Standing

/-- **A cursor reads the tokens of a text**: it comes to an end, and no cut fails on the way. -/
theorem tokenize?_eq (text : String) : tokenize? text = some (tokenize text) :=
  (standsBefore_zero text).tokens []

/-- Between two characters a cursor stands before some of them. -/
lemma exists_standsBefore {text : String} {position : Nat}
    (h : (⟨position⟩ : String.Pos.Raw).IsValid text) : ∃ cs, StandsBefore text position cs := by
  obtain ⟨before, after, rfl, rfl⟩ := Text.mem_boundaries_iff.1 h
  refine ⟨after.toList, before.toList, String.toList_append .., ?_⟩
  rw [String.ofList_toList]

/-- **From wherever a cursor stands before a character, it reads a token** that lies in the text and
is not empty. -/
theorem exists_nextToken? {text : String} {position : Nat}
    (h : (⟨position⟩ : String.Pos.Raw).IsValid text) (hlt : position < text.utf8ByteSize) :
    ∃ t stop, nextToken? text position = some (t, stop) ∧ t.span = ⟨position, stop⟩ ∧
      position < stop ∧ t.LiesIn text := by
  obtain ⟨cs, hstands⟩ := exists_standsBefore h
  cases cs with
  | nil =>
    have hend : position = text.utf8ByteSize := hstands.add_size
    omega
  | cons c cs =>
    refine ⟨_, _, hstands.nextToken, rfl, lt_stop_firstToken position c cs, ?_⟩
    obtain ⟨before, htext, hposition⟩ := hstands
    have hmem : firstToken position c cs ∈ tokensFrom position (c :: cs) := by
      rw [tokensFrom_cons]
      exact List.mem_cons_self
    have hlies := (liesIn_of_mem_tokensFrom before hposition _ hmem).1
    rwa [← htext, String.ofList_toList] at hlies

end TxTree.Cursor

namespace TxTree

/-- **The tokens of a text tile it**, and a cursor over its bytes reads them. The cursor comes to an
end and never cuts inside a character or behind the end; from any boundary of characters before the
end it goes on to a later one, and the token that it reads is what stands in between. The first
token starts at the first byte, each starts where the one before it stops, and the last stops at the
end. None is empty; each starts and stops at a boundary of characters, and its text is what stands
in between. So the texts of the tokens spell the text. -/
theorem tokenize_tiles (text : String) :
    Cursor.tokenize? text = some (tokenize text) ∧
      (∀ position, (⟨position⟩ : String.Pos.Raw).IsValid text → position < text.utf8ByteSize →
        ∃ t stop, Cursor.nextToken? text position = some (t, stop) ∧
          t.span = ⟨position, stop⟩ ∧ position < stop ∧ t.LiesIn text) ∧
      Tiles 0 (tokenize text) text.utf8ByteSize ∧
      (∀ t ∈ tokenize text, t.LiesIn text ∧ t.text ≠ "") ∧
      String.join ((tokenize text).map (·.text)) = text :=
  ⟨Cursor.tokenize?_eq text, fun _ => Cursor.exists_nextToken?, tiles_tokenize text,
    liesIn_of_mem_tokenize text, join_text_tokenize text⟩

/-- The cursor goes back behind the digits before a string that is never closed, and passes both
bytes of the last character. -/
theorem tokenize_tiles_open_asset :
    Cursor.tokenize? "0xab.\"ö" = some (tokenize "0xab.\"ö") ∧
      (tokenize "0xab.\"ö").map (·.span) = [⟨0, 4⟩, ⟨4, 5⟩, ⟨5, 8⟩] ∧
      (∃ t stop, Cursor.nextToken? "0xab.\"ö" 5 = some (t, stop) ∧ t.span = ⟨5, stop⟩ ∧
        5 < stop ∧ t.LiesIn "0xab.\"ö") ∧
      Tiles 0 (tokenize "0xab.\"ö") 8 := by
  obtain ⟨hread, hnext, htiles, -, -⟩ := tokenize_tiles "0xab.\"ö"
  exact ⟨hread, by decide +kernel, hnext 5 (by decide +kernel) (by decide +kernel), htiles⟩

end TxTree
