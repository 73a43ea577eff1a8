import Mathlib.Data.List.DropRight
import Mathlib.Data.Prod.Lex
import Mathlib.Order.Monotone.Defs
import TxTree.Proofs.Tokens
import TxTree.Text.LineIndex

set_option relaxedAutoImplicit false
set_option autoImplicit false

/-!
# Lines and columns by counting

A line index holds the lines of a text with the bytes at which they begin. What it says of an offset
between two characters is what counting says: there are as many lines before it as line ends, and
as many columns as characters behind the last of them. Inside a character the columns are bytes, and
behind the text every offset is the end.

## Main definitions

* `TxTree.Text.sinceLineEnd`, `TxTree.Text.lineStart` — the characters behind the last line end, and
  the byte at which they begin.
* `TxTree.Text.boundaries` — the offsets between two characters of a text, or at one of its ends.
* `TxTree.Text.Position.lex` — a position in the lexicographic order.

## Main results

* `TxTree.Text.LineIndex.linesFrom_append` — the lines of characters behind others.
* `TxTree.Text.LineIndex.pairwise_linesFrom` — every line begins behind the ones before it.
* `TxTree.Text.LineIndex.position_ofText_add` — the line and the column of an offset before the end
  of the next character.
* `TxTree.Text.LineIndex.position_ofText_append` — the line and the column of an offset between two
  characters.
* `TxTree.Text.LineIndex.position_ofText` — the line and the column of every offset, and their
  order.
-/

namespace TxTree.Text

/-- The bytes of the first of some characters and of the further ones. -/
lemma byteSize_cons (c : Char) (cs : List Char) :
    (String.ofList (c :: cs)).utf8ByteSize = c.utf8Size + (String.ofList cs).utf8ByteSize := by
  rw [← List.singleton_append, byteSize_append, ← String.singleton_eq_ofList,
    String.utf8ByteSize_singleton]

/-- Characters are counted where their last byte ends. -/
lemma charsIn?_append (cs ds : List Char) :
    charsIn? (cs ++ ds) (String.ofList cs).utf8ByteSize = some cs.length := by
  induction cs with
  | nil => cases ds <;> rfl
  | cons c cs ih =>
    have hpos := c.utf8Size_pos
    obtain ⟨n, hn⟩ : ∃ n, (String.ofList (c :: cs)).utf8ByteSize = n + 1 :=
      Nat.exists_eq_add_one.2 (byteSize_cons_pos c cs)
    have hsize := byteSize_cons c cs
    have hrest : n + 1 - c.utf8Size = (String.ofList cs).utf8ByteSize := by omega
    rw [hn, List.cons_append, charsIn?, if_pos (by omega), hrest, ih]
    rfl

/-- No characters end inside the next one. -/
lemma charsIn?_inside (cs : List Char) {c : Char} (ds : List Char) {k : Nat} (hpos : 0 < k)
    (hk : k < c.utf8Size) :
    charsIn? (cs ++ c :: ds) ((String.ofList cs).utf8ByteSize + k) = none := by
  obtain ⟨j, rfl⟩ := Nat.exists_eq_add_one.2 hpos
  induction cs with
  | nil =>
    show charsIn? (c :: ds) (0 + (j + 1)) = none
    rw [Nat.zero_add, charsIn?, if_neg (by omega)]
  | cons d cs ih =>
    have hsize := byteSize_cons d cs
    have hrest : (String.ofList (d :: cs)).utf8ByteSize + j + 1 - d.utf8Size =
        (String.ofList cs).utf8ByteSize + (j + 1) := by omega
    rw [← Nat.add_assoc, List.cons_append, charsIn?, if_pos (by omega), hrest, ih]
    rfl

/-- The characters behind the last line end. -/
def sinceLineEnd (cs : List Char) : List Char := cs.rtakeWhile (· != '\n')

/-- The byte at which the characters behind the last line end begin. -/
def lineStart (cs : List Char) : Nat :=
  (String.ofList (cs.rdropWhile (· != '\n'))).utf8ByteSize

/-- What is behind the last line end takes up the bytes from the line start on. -/
lemma lineStart_add_byteSize (cs : List Char) :
    lineStart cs + (String.ofList (sinceLineEnd cs)).utf8ByteSize =
      (String.ofList cs).utf8ByteSize := by
  rw [lineStart, sinceLineEnd, ← byteSize_append, List.rdropWhile_append_rtakeWhile]

/-- Characters without a line end stay on the line. -/
lemma sinceLineEnd_append (cs : List Char) {ds : List Char} (h : '\n' ∉ ds) :
    sinceLineEnd (cs ++ ds) = sinceLineEnd cs ++ ds := by
  have hds : ∀ d ∈ ds.reverse, (d != '\n') = true := fun d hd =>
    bne_iff_ne.2 (ne_of_mem_of_not_mem (List.mem_reverse.1 hd) h)
  rw [sinceLineEnd, List.rtakeWhile, List.reverse_append, List.takeWhile_append_of_pos hds,
    List.reverse_append, List.reverse_reverse]
  rfl

/-- The offsets between two characters of a text, or at one of its ends. -/
def boundaries (text : String) : Set Nat := {offset | (⟨offset⟩ : String.Pos.Raw).IsValid text}

/-- A text is cut at its boundaries. -/
lemma mem_boundaries_iff {text : String} {offset : Nat} :
    offset ∈ boundaries text ↔
      ∃ before after, text = before ++ after ∧ before.utf8ByteSize = offset := by
  show (⟨offset⟩ : String.Pos.Raw).IsValid text ↔ _
  rw [String.Pos.Raw.isValid_iff_exists_append]
  refine exists_congr fun before => exists_congr fun after => and_congr_right fun _ => ?_
  rw [String.Pos.Raw.ext_iff, String.byteIdx_rawEndPos, eq_comm]

/-- Every offset of a text lies at the end of some of its characters, or inside the next one. -/
lemma exists_split_offset {cs : List Char} {offset : Nat}
    (h : offset ≤ (String.ofList cs).utf8ByteSize) :
    ∃ before after k, cs = before ++ after ∧ (String.ofList before).utf8ByteSize + k = offset ∧
      (k = 0 ∨ ∃ c rest, after = c :: rest ∧ k < c.utf8Size) := by
  induction cs generalizing offset with
  | nil => exact ⟨[], [], 0, rfl, (Nat.le_zero.1 h).symm, .inl rfl⟩
  | cons c cs ih =>
    rw [byteSize_cons] at h
    by_cases hc : offset < c.utf8Size
    · exact ⟨[], c :: cs, offset, rfl, Nat.zero_add _, .inr ⟨c, cs, rfl, hc⟩⟩
    · obtain ⟨before, after, k, rfl, hoffset, hk⟩ := @ih (offset - c.utf8Size) (by omega)
      refine ⟨c :: before, after, k, rfl, ?_, hk⟩
      rw [byteSize_cons, Nat.add_assoc, hoffset, Nat.add_sub_cancel' (Nat.le_of_not_lt hc)]

/-- A position in the lexicographic order of lines and columns. -/
def Position.lex (p : Position) : Lex (Nat × Nat) := toLex (p.line, p.column)

namespace LineIndex

/-- A line end closes a line. -/
lemma linesFrom_lineEnd (start : Nat) (cs : List Char) :
    linesFrom start ('\n' :: cs) = ⟨start, []⟩ :: linesFrom (start + ('\n' : Char).utf8Size) cs :=
  rfl

/-- Any other character is put before the first line of the further ones. -/
lemma linesFrom_of_ne {start : Nat} {c : Char} {cs : List Char} {line : Line} {lines : List Line}
    (hc : c ≠ '\n') (h : linesFrom (start + c.utf8Size) cs = line :: lines) :
    linesFrom start (c :: cs) = ⟨start, c :: line.chars⟩ :: lines := by
  rw [linesFrom, if_neg (by simpa using hc), h]

/-- The first line begins where the characters do, and the further ones behind the first
character. -/
lemma exists_linesFrom (start : Nat) (cs : List Char) :
    ∃ line lines, linesFrom start cs = line :: lines ∧ line.start = start ∧
      ∀ l ∈ lines, ∃ c ∈ cs.head?, start + c.utf8Size ≤ l.start := by
  induction cs generalizing start with
  | nil => exact ⟨_, _, rfl, rfl, nofun⟩
  | cons c cs ih =>
    obtain ⟨line, lines, hlines, hline, hbehind⟩ := ih (start + c.utf8Size)
    have hlater : ∀ l ∈ lines, ∃ d ∈ (c :: cs).head?, start + d.utf8Size ≤ l.start := fun l hl =>
      have ⟨_, _, hd⟩ := hbehind l hl
      ⟨c, rfl, (Nat.le_add_right ..).trans hd⟩
    by_cases hc : c = '\n'
    · subst hc
      refine ⟨_, _, linesFrom_lineEnd start cs, rfl, ?_⟩
      rw [hlines, List.forall_mem_cons]
      exact ⟨⟨_, rfl, hline.ge⟩, hlater⟩
    · exact ⟨_, _, linesFrom_of_ne hc hlines, rfl, hlater⟩

/-- **Every line begins behind the ones before it**, so that the lines which begin no later than an
offset are the first ones. -/
theorem pairwise_linesFrom (start : Nat) (cs : List Char) :
    (linesFrom start cs).Pairwise (·.start < ·.start) := by
  induction cs generalizing start with
  | nil => exact List.pairwise_singleton ..
  | cons c cs ih =>
    obtain ⟨line, lines, hlines, hline, hbehind⟩ := exists_linesFrom start (c :: cs)
    rw [hlines, List.pairwise_cons]
    refine ⟨fun l hl => ?_, ?_⟩
    · obtain ⟨d, -, hd⟩ := hbehind l hl
      have hpos := d.utf8Size_pos
      omega
    · have hrest := ih (start + c.utf8Size)
      by_cases hc : c = '\n'
      · subst hc
        rw [linesFrom_lineEnd] at hlines
        rwa [← (List.cons.inj hlines).2]
      · obtain ⟨next, further, hnext, -⟩ := exists_linesFrom (start + c.utf8Size) cs
        rw [linesFrom_of_ne hc hnext] at hlines
        rw [hnext] at hrest
        rw [← (List.cons.inj hlines).2]
        exact hrest.of_cons

/-- **The lines of characters behind others**: there are as many earlier lines as line ends; the
next line begins with what is behind the last of these, and goes on with the first line of the
characters that follow.

**Proof sketch.** Induction on the characters before, from the last one on. A line end closes the
line that it is in, and what follows it begins a new one. -/
lemma linesFrom_append (start : Nat) (before after : List Char) :
    ∃ earlier last line lines,
      linesFrom (start + (String.ofList before).utf8ByteSize) after = line :: lines ∧
      linesFrom start (before ++ after) = earlier ++ last :: lines ∧
      earlier.length = before.count '\n' ∧
      (∀ l ∈ earlier, l.start ≤ start + (String.ofList before).utf8ByteSize) ∧
      last.start + (String.ofList (sinceLineEnd before)).utf8ByteSize =
        start + (String.ofList before).utf8ByteSize ∧
      last.chars = sinceLineEnd before ++ line.chars := by
  induction before using List.reverseRecOn generalizing after with
  | nil =>
    obtain ⟨line, lines, hlines, hline, -⟩ := exists_linesFrom start after
    exact ⟨[], line, line, lines, hlines, hlines, rfl, nofun, by rw [hline]; rfl, rfl⟩
  | append_singleton before c ih =>
    obtain ⟨earlier, last, line, lines, hlines, hall, hcount, hbefore, hstart, hchars⟩ :=
      ih (c :: after)
    have hsize : ∀ cs, (String.ofList (cs ++ [c])).utf8ByteSize =
        (String.ofList cs).utf8ByteSize + c.utf8Size := fun cs => by
      rw [byteSize_append, byteSize_cons]
      rfl
    obtain ⟨next, further, hnext, hfirst, -⟩ :=
      exists_linesFrom (start + (String.ofList (before ++ [c])).utf8ByteSize) after
    rw [List.append_assoc, List.singleton_append, hall, List.count_append, List.count_singleton]
    rw [hsize, ← Nat.add_assoc] at hnext hfirst ⊢
    by_cases hc : c = '\n'
    · subst hc
      have hsince : sinceLineEnd (before ++ ['\n']) = [] :=
        List.rtakeWhile_concat_neg _ _ _ (by simp)
      rw [linesFrom_lineEnd, hnext] at hlines
      obtain ⟨rfl, rfl⟩ := List.cons.inj hlines
      refine ⟨earlier ++ [last], next, next, further, hnext, ?_, ?_, ?_, ?_, ?_⟩
      · rw [List.append_assoc, List.singleton_append]
      · rw [List.length_append, hcount]
        rfl
      · rw [List.forall_mem_append, List.forall_mem_singleton]
        exact ⟨fun l hl => (hbefore l hl).trans (Nat.le_add_right ..), by omega⟩
      · rw [hsince, hfirst]
        rfl
      · rw [hsince, List.nil_append]
    · have hsince : sinceLineEnd (before ++ [c]) = sinceLineEnd before ++ [c] :=
        List.rtakeWhile_concat_pos _ _ _ (by simpa using hc)
      rw [linesFrom_of_ne hc hnext] at hlines
      obtain ⟨rfl, rfl⟩ := List.cons.inj hlines
      refine ⟨earlier, last, next, further, hnext, rfl, ?_, ?_, ?_, ?_⟩
      · rw [hcount, if_neg (by simpa using hc), Nat.add_zero]
      · exact fun l hl => (hbefore l hl).trans (Nat.le_add_right ..)
      · rw [hsince, hsize, ← Nat.add_assoc, hstart]
      · rw [hsince, hchars, List.append_assoc]
        rfl

/-- The lines that begin no later than an offset before the end of the next character: the earlier
ones, and the one it is in. -/
lemma exists_takeWhile_lines (before after : String) {k : Nat} {line : Line} {lines : List Line}
    (hk : ∀ c ∈ after.toList.head?, k < c.utf8Size)
    (hlines : linesFrom before.utf8ByteSize after.toList = line :: lines) :
    ∃ earlier last,
      (ofText (before ++ after)).lines.takeWhile (·.start ≤ before.utf8ByteSize + k) =
        earlier ++ [last] ∧
      earlier.length = before.toList.count '\n' ∧
      last.start + (String.ofList (sinceLineEnd before.toList)).utf8ByteSize =
        before.utf8ByteSize ∧
      last.chars = sinceLineEnd before.toList ++ line.chars := by
  obtain ⟨earlier, last, line', lines', hsame, hall, hcount, hbefore, hstart, hchars⟩ :=
    linesFrom_append 0 before.toList after.toList
  obtain ⟨_, _, hsame', -, hbehind⟩ := exists_linesFrom before.utf8ByteSize after.toList
  rw [String.ofList_toList, Nat.zero_add] at hsame hbefore hstart
  obtain ⟨rfl, rfl⟩ := List.cons.inj (hlines.symm.trans hsame)
  obtain ⟨rfl, rfl⟩ := List.cons.inj (hlines.symm.trans hsame')
  refine ⟨earlier, last, ?_, hcount, hstart, hchars⟩
  have hupto : ∀ l ∈ earlier ++ [last], decide (l.start ≤ before.utf8ByteSize + k) = true := by
    rw [List.forall_mem_append, List.forall_mem_singleton]
    exact ⟨fun l hl => decide_eq_true ((hbefore l hl).trans (Nat.le_add_right ..)),
      decide_eq_true (by omega)⟩
  rw [ofText, String.toList_append, hall, ← List.singleton_append, ← List.append_assoc,
    List.takeWhile_append_of_pos hupto]
  cases lines with
  | nil => exact List.append_nil _
  | cons l lines =>
    obtain ⟨c, hc, hl⟩ := hbehind l (List.mem_cons_self ..)
    have hlt := hk c hc
    rw [List.takeWhile_cons_of_neg (by simp only [decide_eq_true_eq]; omega), List.append_nil]

/-- **The line and the column of an offset before the end of the next character**: the line ends
before it are counted, and the column is the number of characters behind the last of these, or of
bytes where no character ends at the offset. -/
theorem position_ofText_add (before after : String) {k : Nat} {line : Line} {lines : List Line}
    (hk : ∀ c ∈ after.toList.head?, k < c.utf8Size) (hle : k ≤ after.utf8ByteSize)
    (hlines : linesFrom before.utf8ByteSize after.toList = line :: lines) :
    (ofText (before ++ after)).position (before.utf8ByteSize + k) =
      let bytes := (String.ofList (sinceLineEnd before.toList)).utf8ByteSize + k
      ⟨before.toList.count '\n' + 1,
        (charsIn? (sinceLineEnd before.toList ++ line.chars) bytes).getD bytes + 1⟩ := by
  obtain ⟨earlier, last, htake, hcount, hstart, hchars⟩ :=
    exists_takeWhile_lines before after hk hlines
  have hmin : min (before.utf8ByteSize + k) (ofText (before ++ after)).size =
      before.utf8ByteSize + k :=
    Nat.min_eq_left (by rw [ofText, String.utf8ByteSize_append]; exact Nat.add_le_add_left hle _)
  have hbytes : before.utf8ByteSize + k - last.start =
      (String.ofList (sinceLineEnd before.toList)).utf8ByteSize + k := by omega
  rw [position]
  simp only [hmin, htake, List.getLast?_append, List.getLast?_singleton, Option.some_or]
  rw [hbytes, hchars, List.length_append, hcount]
  rfl

/-- **The line and the column of an offset between two characters** are found by counting the line
ends before it, and the characters behind the last of these. -/
theorem position_ofText_append (before after : String) :
    (ofText (before ++ after)).position before.utf8ByteSize =
      ⟨before.toList.count '\n' + 1, (sinceLineEnd before.toList).length + 1⟩ := by
  obtain ⟨line, lines, hlines, -⟩ := exists_linesFrom before.utf8ByteSize after.toList
  have h := position_ofText_add before after (fun c _ => c.utf8Size_pos) (Nat.zero_le _) hlines
  simp only [Nat.add_zero, charsIn?_append] at h
  exact h

/-- Inside a character the column counts the bytes since the line start. -/
lemma position_ofText_inside (before after : String) (c : Char) {k : Nat} (hpos : 0 < k)
    (hk : k < c.utf8Size) :
    (ofText (before ++ (String.singleton c ++ after))).position (before.utf8ByteSize + k) =
      ⟨before.toList.count '\n' + 1,
        before.utf8ByteSize + k - lineStart before.toList + 1⟩ := by
  have hlist : (String.singleton c ++ after).toList = c :: after.toList := by
    rw [String.toList_append, String.toList_singleton]
    rfl
  -- A line end is a single byte, and there is nothing inside it.
  have hc : c ≠ '\n' := by
    rintro rfl
    exact absurd hk (Nat.not_lt.2 hpos)
  obtain ⟨next, further, hnext, -⟩ :=
    exists_linesFrom (before.utf8ByteSize + c.utf8Size) after.toList
  have hlines := linesFrom_of_ne hc hnext
  rw [← hlist] at hlines
  have hfirst : ∀ d ∈ (String.singleton c ++ after).toList.head?, k < d.utf8Size := by
    rw [hlist]
    rintro d ⟨⟩
    exact hk
  have hle : k ≤ (String.singleton c ++ after).utf8ByteSize := by
    rw [String.utf8ByteSize_append, String.utf8ByteSize_singleton]
    omega
  have hsize := lineStart_add_byteSize before.toList
  rw [String.ofList_toList] at hsize
  rw [position_ofText_add before _ hfirst hle hlines]
  simp only [charsIn?_inside _ _ hpos hk, Option.getD_none]
  congr 2
  omega

/-- Behind a text every offset is its end. -/
lemma position_of_size_le {index : LineIndex} {offset : Nat} (h : index.size ≤ offset) :
    index.position offset = index.position index.size := by
  simp only [position, Nat.min_eq_right h, Nat.min_self]

/-- There is a line that begins no later than an offset: the first one begins at zero. -/
lemma exists_line_le (text : String) (offset : Nat) :
    ∃ line, ((ofText text).lines.takeWhile (·.start ≤ offset)).getLast? = some line ∧
      line.start ≤ offset := by
  obtain ⟨line, lines, hlines, hline, -⟩ := exists_linesFrom 0 text.toList
  have hne : (ofText text).lines.takeWhile (·.start ≤ offset) ≠ [] := by
    show (linesFrom 0 text.toList).takeWhile _ ≠ []
    rw [hlines, List.takeWhile_cons, if_pos (decide_eq_true (by omega))]
    exact List.cons_ne_nil _ _
  have hlast := List.mem_takeWhile_imp (List.getLast_mem hne)
  exact ⟨_, List.getLast?_eq_some_getLast hne, of_decide_eq_true hlast⟩

/-- **Positions between characters are in the order of their offsets**: the characters in between
hold a line end, and the line is a later one, or stay on the line, and the column is. -/
lemma strictMonoOn_position (text : String) :
    StrictMonoOn (fun offset => ((ofText text).position offset).lex) (boundaries text) := by
  intro i hi j hj hij
  obtain ⟨before, after, htext, rfl⟩ := mem_boundaries_iff.1 hi
  obtain ⟨further, rest, htext', rfl⟩ := mem_boundaries_iff.1 hj
  obtain ⟨mid, hmid⟩ : before.toList <+: further.toList := by
    have hbefore : before.toList <+: text.toList := by
      rw [htext, String.toList_append]
      exact List.prefix_append ..
    have hfurther : further.toList <+: text.toList := by
      rw [htext', String.toList_append]
      exact List.prefix_append ..
    obtain h | ⟨mid, hmid⟩ := List.prefix_or_prefix_of_prefix hbefore hfurther
    · exact h
    · have hsize := byteSize_append further.toList mid
      rw [hmid, String.ofList_toList, String.ofList_toList] at hsize
      omega
  have hne : mid ≠ [] := by
    rintro rfl
    rw [List.append_nil, String.toList_inj] at hmid
    rw [hmid] at hij
    exact Nat.lt_irrefl _ hij
  show ((ofText text).position before.utf8ByteSize).lex <
    ((ofText text).position further.utf8ByteSize).lex
  conv_lhs => rw [htext, position_ofText_append]
  conv_rhs => rw [htext', position_ofText_append, ← hmid]
  rw [Position.lex, Position.lex, Prod.Lex.toLex_lt_toLex, List.count_append]
  by_cases h : '\n' ∈ mid
  · have hcount := List.count_pos_iff.2 h
    exact .inl (Nat.add_lt_add_right (Nat.lt_add_of_pos_right hcount) 1)
  · have hlength := List.length_pos_iff.2 hne
    refine .inr ⟨by rw [List.count_eq_zero.2 h, Nat.add_zero], ?_⟩
    rw [sinceLineEnd_append _ h, List.length_append]
    exact Nat.add_lt_add_right (Nat.lt_add_of_pos_right hlength) 1

/-- **A line index agrees with counting.** An offset between two characters has as many lines before
it as line ends, and as many columns as characters behind the last of these; inside a character the
columns are the bytes since the line start; behind the text every offset is the end. There always is
a line that begins no later than the offset. Between characters, positions are in the lexicographic
order of their offsets, and no two are the same. -/
theorem position_ofText (text : String) :
    (∀ offset ∈ boundaries text, ∃ before after,
      text = before ++ after ∧ before.utf8ByteSize = offset ∧
      (ofText text).position offset =
        ⟨before.toList.count '\n' + 1, (sinceLineEnd before.toList).length + 1⟩) ∧
    (∀ offset ≤ text.utf8ByteSize, offset ∉ boundaries text → ∃ before c after,
      text = before ++ (String.singleton c ++ after) ∧
      before.utf8ByteSize < offset ∧ offset < before.utf8ByteSize + c.utf8Size ∧
      (ofText text).position offset =
        ⟨before.toList.count '\n' + 1, offset - lineStart before.toList + 1⟩) ∧
    (∀ offset, text.utf8ByteSize ≤ offset →
      (ofText text).position offset = (ofText text).position text.utf8ByteSize) ∧
    (∀ offset, ∃ line,
      ((ofText text).lines.takeWhile (·.start ≤ min offset (ofText text).size)).getLast? =
        some line ∧ line.start ≤ min offset (ofText text).size) ∧
    StrictMonoOn (fun offset => ((ofText text).position offset).lex) (boundaries text) ∧
    Set.InjOn (ofText text).position (boundaries text) := by
  have hmono := strictMonoOn_position text
  refine ⟨fun offset h => ?_, fun offset hle h => ?_, fun offset h => position_of_size_le h,
    fun offset => exists_line_le text _, hmono, fun i hi j hj hij => ?_⟩
  · obtain ⟨before, after, rfl, rfl⟩ := mem_boundaries_iff.1 h
    exact ⟨before, after, rfl, rfl, position_ofText_append before after⟩
  · rw [← String.ofList_toList (s := text)] at hle
    obtain ⟨before, after, k, htext, rfl, hk⟩ := exists_split_offset hle
    have htext' : text = String.ofList before ++ String.ofList after := by
      rw [← String.ofList_append, ← htext, String.ofList_toList]
    rcases hk with rfl | ⟨c, rest, rfl, hk⟩
    · exact absurd (mem_boundaries_iff.2 ⟨_, _, htext', rfl⟩) h
    · have hpos : 0 < k := Nat.pos_of_ne_zero fun h0 =>
        h (mem_boundaries_iff.2 ⟨_, _, htext', by rw [h0, Nat.add_zero]⟩)
      have hcut : String.ofList (c :: rest) = String.singleton c ++ String.ofList rest := by
        rw [String.singleton_eq_ofList, ← String.ofList_append, List.singleton_append]
      rw [hcut] at htext'
      refine ⟨_, c, _, htext', Nat.lt_add_of_pos_right hpos, Nat.add_lt_add_left hk _, ?_⟩
      conv_lhs => rw [htext']
      exact position_ofText_inside _ _ c hpos hk
  · apply hmono.injOn hi hj
    show Position.lex _ = Position.lex _
    rw [hij]

/-- Behind a line end the columns start anew, the second byte of a character has a column of its
own, and an offset behind the text is its end. -/
theorem position_ofText_euro :
    (∃ before after, "a\n€x" = before ++ after ∧ before.utf8ByteSize = 5 ∧
      (ofText "a\n€x").position 5 =
        ⟨before.toList.count '\n' + 1, (sinceLineEnd before.toList).length + 1⟩) ∧
    (ofText "a\n€x").position 5 = ⟨2, 2⟩ ∧
    (∃ before c after, "a\n€x" = before ++ (String.singleton c ++ after) ∧
      before.utf8ByteSize < 4 ∧ 4 < before.utf8ByteSize + c.utf8Size ∧
      (ofText "a\n€x").position 4 =
        ⟨before.toList.count '\n' + 1, 4 - lineStart before.toList + 1⟩) ∧
    (ofText "a\n€x").position 4 = ⟨2, 3⟩ ∧
    (ofText "a\n€x").position 100 = (ofText "a\n€x").position 6 ∧
    ((ofText "a\n€x").position 2).lex < ((ofText "a\n€x").position 5).lex ∧
    (ofText "a\n€x").position 2 ≠ (ofText "a\n€x").position 5 := by
  have h2 : 2 ∈ boundaries "a\n€x" := mem_boundaries_iff.2 ⟨"a\n", "€x", by decide, by decide⟩
  have h5 : 5 ∈ boundaries "a\n€x" := mem_boundaries_iff.2 ⟨"a\n€", "x", by decide, by decide⟩
  have h4 : 4 ∉ boundaries "a\n€x" := by
    show ¬ String.Pos.Raw.IsValid _ _
    decide
  obtain ⟨hbetween, hinside, hbehind, -, hmono, hinj⟩ := position_ofText "a\n€x"
  refine ⟨hbetween 5 h5, by decide, hinside 4 (by decide) h4, by decide, hbehind 100 (by decide),
    hmono h2 h5 (by decide), fun h => ?_⟩
  exact absurd (hinj h2 h5 h) (by decide)

end LineIndex

end TxTree.Text
