import Mathlib.Data.List.Basic
import TxTree.Json.Reader

set_option relaxedAutoImplicit false
set_option autoImplicit false

/-!
# What is written is read back

A value of texts, unsigned integers and words is read from each of its texts. A character is read
from what is written of it, be it itself or an escape; the digits of a number are followed by
nothing that continues it. So the text of a value is cut into the lexemes of the value, whatever
white space stands between them, and the machine puts them together again, above any containers
that are still open.

## Main definitions

* `TxTree.Json.Layout` — the white space of a text, and `Layout.text`, the text of a value with it.
* `TxTree.Json.isPlain` — the values that can be written.
* `TxTree.Json.lexemes` — the lexemes of a value.

## Main results

* `TxTree.Json.lex_text` — a text of a value is cut into its lexemes.
* `TxTree.Json.foldlM_lexemes` — the lexemes of a value are put together to it.
* `TxTree.Json.read?_compact`, `TxTree.Json.read?_pretty` — a value is read from its texts.
-/

namespace TxTree.Json

/-! ## Strings -/

section Strings

variable {c : Char} {rest : List Char}

/-- The characters that are written as a backslash and one character. -/
def escapedByName : List Char := ['"', '\\', '\x08', '\x0c', '\n', '\r', '\t']

/-- The part of a string as which a character is read from what is written of it. -/
def Piece.ofChar (c : Char) : Piece :=
  if c ∉ escapedByName ∧ c.toNat < 0x20 then .unit c.toNat else .char c

lemma writeChar_of_notMem (hc : c ∉ escapedByName) :
    writeChar c = if c.toNat < 0x20 then controlEscape c else [c] := by
  unfold writeChar
  split
  all_goals first | exact absurd (by decide) hc | rfl

/-- A backslash and the name of a character are read as this character. -/
lemma pieces?_escape {e : Char} (he : escaped? e = some c) :
    pieces? ('\\' :: e :: rest) = (pieces? rest).map fun (ps, k) => (.char c :: ps, k + 2) := by
  have hu : e ≠ 'u' := by
    rintro rfl
    exact nomatch he
  rw [pieces?, he]
  · cases pieces? rest <;> rfl
  · exact fun _ _ _ _ _ h _ => hu h

/-- A character that is escaped by its name is read as itself. -/
lemma pieces?_writeChar_of_mem (hc : c ∈ escapedByName) :
    pieces? (writeChar c ++ rest) =
      (pieces? rest).map fun (ps, k) => (Piece.ofChar c :: ps, k + (writeChar c).length) := by
  rw [Piece.ofChar, if_neg fun h => h.1 hc]
  simp only [escapedByName, List.mem_cons, List.not_mem_nil, or_false] at hc
  rcases hc with rfl | rfl | rfl | rfl | rfl | rfl | rfl
  all_goals exact pieces?_escape rfl

/-- A control character is read from the escape of its number. -/
lemma pieces?_controlEscape (hc : c.toNat < 0x20) :
    pieces? (controlEscape c ++ rest) =
      (pieces? rest).map fun (ps, k) => (.unit c.toNat :: ps, k + (controlEscape c).length) := by
  have hall : ∀ n < 0x20,
      controlEscape (Char.ofNat n) =
        ['\\', 'u', '0', '0', (n / 16).digitChar, (n % 16).digitChar] ∧
      unit? '0' '0' (n / 16).digitChar (n % 16).digitChar = some n := by
    decide
  obtain ⟨hdigits, hn⟩ := hall _ hc
  rw [Char.ofNat_toNat] at hdigits
  rw [hdigits]
  simp only [List.cons_append, List.nil_append, pieces?, hn]
  cases pieces? rest <;> rfl

/-- A character that needs no escape is read as it stands. -/
lemma pieces?_cons_of_notMem (hc : c ∉ escapedByName) (hn : ¬ c.toNat < 0x20) :
    pieces? (c :: rest) = (pieces? rest).map fun (ps, k) => (.char c :: ps, k + 1) := by
  simp only [escapedByName, List.mem_cons, not_or] at hc
  rw [pieces?]
  · rw [if_neg hn]
    cases pieces? rest <;> rfl
  all_goals simp [hc]

/-- What is written of a character is read as one part. -/
lemma pieces?_writeChar :
    pieces? (writeChar c ++ rest) =
      (pieces? rest).map fun (ps, k) => (Piece.ofChar c :: ps, k + (writeChar c).length) := by
  by_cases hc : c ∈ escapedByName
  · exact pieces?_writeChar_of_mem hc
  · rw [writeChar_of_notMem hc]
    by_cases hn : c.toNat < 0x20
    · rw [if_pos hn, Piece.ofChar, if_pos ⟨hc, hn⟩, pieces?_controlEscape hn]
    · rw [if_neg hn, Piece.ofChar, if_neg fun h => hn h.2, List.singleton_append,
        pieces?_cons_of_notMem hc hn, List.length_singleton]

/-- A string is read up to the first quote that is not escaped. -/
lemma pieces?_flatMap_writeChar (cs : List Char) :
    pieces? (cs.flatMap writeChar ++ '"' :: rest) =
      some (cs.map Piece.ofChar, (cs.flatMap writeChar).length + 1) := by
  induction cs with
  | nil => rfl
  | cons c cs ih =>
    rw [List.flatMap_cons, List.append_assoc, pieces?_writeChar, ih]
    simp [Nat.add_comm, Nat.add_left_comm]

/-- A unit that is no half of a pair stands for a character by itself. -/
lemma textOf?_unit_cons {n : Nat} (hn : n < 0xd800) (ps : List Piece) :
    textOf? (.unit n :: ps) = (textOf? ps).map (Char.ofNat n :: ·) := by
  have hhigh : isHighSurrogate n = false := by simp [isHighSurrogate]; omega
  have hlow : isLowSurrogate n = false := by simp [isLowSurrogate]; omega
  rcases ps with _ | ⟨c | m, ps⟩ <;> simp [textOf?, hhigh, hlow]

/-- The parts of characters stand for these characters. -/
lemma textOf?_map_ofChar (cs : List Char) : textOf? (cs.map Piece.ofChar) = some cs := by
  induction cs with
  | nil => rfl
  | cons c cs ih =>
    rw [List.map_cons, Piece.ofChar]
    split
    · next h =>
      -- A control character is far below the halves of pairs.
      rw [textOf?_unit_cons (Nat.lt_trans h.2 (by decide)), ih, Option.map_some, Char.ofNat_toNat]
    · rw [textOf?, ih, Option.map_some]

end Strings

/-! ## Numbers -/

section Numbers

/-- Whether the rest of a text leaves a number before it as it is. -/
def EndsNumber (rest : List Char) : Prop :=
  ∀ c ∈ rest.head?, c.isDigit = false ∧ c ≠ '.' ∧ c ≠ 'e' ∧ c ≠ 'E'

variable {rest : List Char}

lemma valueOf_toDigits (n : Nat) : valueOf (Nat.toDigits 10 n) = n := by
  have h := Nat.ofDigitChars_ten_toDigits (n := n)
  rw [Nat.ofDigitChars_eq_foldl] at h
  simpa only [valueOf, Nat.mul_comm] using h

/-- Only zero is written with a zero in front. -/
lemma eq_zero_of_head?_toDigits {n : Nat} (h : (Nat.toDigits 10 n).head? = some '0') : n = 0 := by
  induction n using Nat.strongRecOn with
  | ind n ih =>
    rcases Nat.lt_or_ge n 10 with hn | hn
    · have hall : ∀ n < 10, n.digitChar = '0' → n = 0 := by decide
      rw [Nat.toDigits_of_lt_base hn, List.head?_cons, Option.some_inj] at h
      exact hall n hn h
    · rw [Nat.toDigits_of_base_le (by omega) hn,
        List.head?_append_of_ne_nil _ Nat.toDigits_ne_nil] at h
      have := ih (n / 10) (by omega) h
      omega

lemma digitCount_toDigits_append (n : Nat) (h : EndsNumber rest) :
    digitCount (Nat.toDigits 10 n ++ rest) = (Nat.toDigits 10 n).length := by
  have hrest : rest.takeWhile Char.isDigit = [] := by
    cases rest with
    | nil => rfl
    | cons c rest => exact List.takeWhile_cons_of_neg (by simp [(h c rfl).1])
  rw [digitCount, List.takeWhile_append_of_pos fun c hc =>
    Nat.isDigit_of_mem_toDigits (by omega) (by omega) hc, hrest, List.append_nil]

lemma integerLength?_toDigits_append (n : Nat) (h : EndsNumber rest) :
    integerLength? (Nat.toDigits 10 n ++ rest) = some (Nat.toDigits 10 n).length := by
  rw [integerLength?, digitCount_toDigits_append n h]
  split
  · next h => exact absurd (List.length_eq_zero_iff.1 h) Nat.toDigits_ne_nil
  · next h => rw [h]
  · next h =>
    refine if_neg fun hzero => h ?_
    rw [List.head?_append_of_ne_nil _ Nat.toDigits_ne_nil, beq_iff_eq] at hzero
    rw [eq_zero_of_head?_toDigits hzero]
    rfl

lemma fractionLength?_of_endsNumber (h : EndsNumber rest) : fractionLength? rest = some 0 := by
  unfold fractionLength?
  split
  · exact absurd rfl (h _ rfl).2.1
  · rfl

lemma exponentLength?_of_endsNumber (h : EndsNumber rest) : exponentLength? rest = some 0 := by
  cases rest with
  | nil => rfl
  | cons c rest =>
    obtain ⟨-, -, he, hE⟩ := h c rfl
    simp [exponentLength?, he, hE]

/-- The digits of a number are read as the number. -/
lemma number?_toDigits_append (n : Nat) (h : EndsNumber rest) :
    number? (Nat.toDigits 10 n ++ rest) = some (.number n, (Nat.toDigits 10 n).length) := by
  have hsign : ((Nat.toDigits 10 n ++ rest).head? == some '-') = false := by
    rw [List.head?_append_of_ne_nil _ Nat.toDigits_ne_nil, beq_eq_false_iff_ne]
    intro hminus
    have hdigit : '-'.isDigit = true :=
      Nat.isDigit_of_mem_toDigits (by omega) (by omega) (List.mem_of_head? hminus)
    exact nomatch hdigit
  simp only [number?, hsign, Bool.false_eq_true, if_false, List.drop_zero, Nat.zero_add,
    integerLength?_toDigits_append n h, List.drop_left, fractionLength?_of_endsNumber h,
    exponentLength?_of_endsNumber h, List.take_left, valueOf_toDigits, Option.bind_eq_bind,
    Option.bind_some, Nat.add_zero, if_true]
  rfl

end Numbers

/-! ## Lexemes -/

section Lexemes

variable {c : Char} {cs rest : List Char}

lemma lex_cons_of_isSpace (hc : isSpace c = true) : lex (c :: rest) = lex rest := by
  rw [lex, if_pos hc]

/-- White space before a lexeme says nothing. -/
lemma lex_append_of_isSpace (hcs : ∀ c ∈ cs, isSpace c = true) : lex (cs ++ rest) = lex rest := by
  induction cs with
  | nil => rfl
  | cons c cs ih =>
    rw [List.forall_mem_cons] at hcs
    rw [List.cons_append, lex_cons_of_isSpace hcs.1, ih hcs.2]

lemma lex_cons_append {l : Lexeme} (cs : List Char) (hc : isSpace c = false)
    (hl : lexeme? c (cs ++ rest) = some (l, cs.length)) :
    lex (c :: (cs ++ rest)) = (lex rest).map (l :: ·) := by
  rw [lex, if_neg (Bool.not_eq_true _ ▸ hc), hl]
  exact congrArg (fun cs => (lex cs).map (l :: ·)) List.drop_left

/-- The marks that are a lexeme each. -/
def marks : List (Char × Lexeme) :=
  [('{', .openBrace), ('}', .closeBrace), ('[', .openBracket), (']', .closeBracket),
    (',', .comma), (':', .colon)]

lemma lex_mark {l : Lexeme} (h : (c, l) ∈ marks) : lex (c :: rest) = (lex rest).map (l :: ·) := by
  refine lex_cons_append [] ?_ ?_
  all_goals
    simp only [marks, List.mem_cons, Prod.mk.injEq, List.not_mem_nil, or_false] at h
    rcases h with h | h | h | h | h | h
    all_goals
      obtain ⟨rfl, rfl⟩ := h
      rfl

/-- A written string is the lexeme of its text. -/
lemma lex_writeString (s : String) :
    lex ((writeString s).toList ++ rest) = (lex rest).map (.string (some s) :: ·) := by
  have hbody : lexeme? '"' (s.toList.flatMap writeChar ++ '"' :: rest) =
      some (.string (some s), (s.toList.flatMap writeChar ++ ['"']).length) := by
    simp only [lexeme?, pieces?_flatMap_writeChar, Option.map_some, textOf?_map_ofChar,
      String.ofList_toList, List.length_append, List.length_singleton]
  rw [writeString, String.toList_ofList, List.cons_append, List.cons_append]
  refine lex_cons_append _ rfl ?_
  rw [List.append_assoc, List.singleton_append, hbody]

lemma lexeme?_of_isDigit (hc : c.isDigit = true) :
    lexeme? c cs = (number? (c :: cs)).map fun (v, n) => (.scalar v, n - 1) := by
  unfold lexeme?
  split
  all_goals first | exact absurd hc (by decide) | rfl

/-- A written number is the lexeme of its value. -/
lemma lex_writeNat (n : Nat) (h : EndsNumber rest) :
    lex ((writeNat n).toList ++ rest) = (lex rest).map (.scalar (.number n) :: ·) := by
  have hnumber := number?_toDigits_append n h
  rw [writeNat, String.toList_ofList]
  obtain ⟨c, cs, hcs⟩ := List.exists_cons_of_ne_nil (Nat.toDigits_ne_nil (n := n) (b := 10))
  have hdigit : c.isDigit = true :=
    Nat.isDigit_of_mem_toDigits (by omega) (by omega) (hcs ▸ List.mem_cons_self)
  have hspace : isSpace c = false := by
    by_contra hspace
    simp only [isSpace, Bool.not_eq_false, Bool.or_eq_true, beq_iff_eq] at hspace
    rcases hspace with ((rfl | rfl) | rfl) | rfl
    all_goals exact nomatch hdigit
  rw [hcs, List.cons_append] at hnumber ⊢
  refine lex_cons_append _ hspace ?_
  rw [lexeme?_of_isDigit hdigit, hnumber]
  rfl

end Lexemes

/-! ## Layouts -/

/-- The white space of a text: before items and members and behind the last of them, by the depth
of what stands there, and behind colons. -/
structure Layout where
  gap : Nat → List Char
  behindColon : List Char
  isSpace_of_mem_gap : ∀ depth, ∀ c ∈ gap depth, isSpace c = true
  isSpace_of_mem_behindColon : ∀ c ∈ behindColon, isSpace c = true

namespace Layout

/-- No white space. -/
def compact : Layout where
  gap _ := []
  behindColon := []
  isSpace_of_mem_gap := by simp
  isSpace_of_mem_behindColon := by simp

/-- A line for each item and member. -/
def pretty : Layout where
  gap depth := (newline depth).toList
  behindColon := [' ']
  isSpace_of_mem_gap depth c hc := by
    rw [newline, String.toList_ofList, List.mem_cons, List.mem_replicate] at hc
    obtain rfl | ⟨-, rfl⟩ := hc
    all_goals rfl
  isSpace_of_mem_behindColon := by simp [isSpace]

variable (L : Layout)

mutual

/-- The text of a value at a depth. -/
def text (depth : Nat) : Json → List Char
  | .array items => '[' :: textOfItems depth items ++ [']']
  | .object members => '{' :: textOfMembers depth members ++ ['}']
  | v => (writeScalar v).toList

/-- The text of the items of an array at a depth. -/
def textOfItems (depth : Nat) : List Json → List Char
  | [] => []
  | [v] => L.gap (depth + 1) ++ text (depth + 1) v ++ L.gap depth
  | v :: rest => L.gap (depth + 1) ++ text (depth + 1) v ++ ',' :: textOfItems depth rest

/-- The text of the members of an object at a depth. -/
def textOfMembers (depth : Nat) : List (String × Json) → List Char
  | [] => []
  | [(k, v)] =>
    L.gap (depth + 1) ++ (writeString k).toList ++ ':' :: L.behindColon ++ text (depth + 1) v ++
      L.gap depth
  | (k, v) :: rest =>
    L.gap (depth + 1) ++ (writeString k).toList ++ ':' :: L.behindColon ++ text (depth + 1) v ++
      ',' :: textOfMembers depth rest

end

end Layout

/-! ### The two layouts that are written -/

mutual

lemma toList_write (depth : Nat) : ∀ (out : String) (v : Json),
    (write out v).toList = out.toList ++ Layout.compact.text depth v
  | out, .array items => by
    simp only [write, Layout.text, String.toList_append, toList_writeItems depth]
    simp
  | out, .object members => by
    simp only [write, Layout.text, String.toList_append, toList_writeMembers depth]
    simp
  | _, .null | _, .bool _ | _, .number _ | _, .numeral _ | _, .string _ | _, .broken =>
    String.toList_append

lemma toList_writeItems (depth : Nat) : ∀ (out : String) (items : List Json),
    (writeItems out items).toList = out.toList ++ Layout.compact.textOfItems depth items
  | out, [] => by simp [writeItems, Layout.textOfItems]
  | out, [v] => by
    rw [writeItems, toList_write (depth + 1)]
    simp [Layout.textOfItems, Layout.compact]
  | out, v :: w :: rest => by
    simp only [writeItems, Layout.textOfItems, toList_writeItems depth, String.toList_append,
      toList_write (depth + 1)]
    simp [Layout.compact]

lemma toList_writeMembers (depth : Nat) : ∀ (out : String) (members : List (String × Json)),
    (writeMembers out members).toList = out.toList ++ Layout.compact.textOfMembers depth members
  | out, [] => by simp [writeMembers, Layout.textOfMembers]
  | out, [(k, v)] => by
    rw [writeMembers, toList_write (depth + 1)]
    simp [Layout.textOfMembers, Layout.compact]
  | out, (k, v) :: m :: rest => by
    simp only [writeMembers, Layout.textOfMembers, toList_writeMembers depth,
      String.toList_append, toList_write (depth + 1)]
    simp [Layout.compact]

end

mutual

lemma toList_writePretty (depth : Nat) : ∀ (out : String) (v : Json),
    (writePretty depth out v).toList = out.toList ++ Layout.pretty.text depth v
  | out, .array [] => by simp [writePretty, Layout.text, Layout.textOfItems]
  | out, .array (v :: rest) => by
    have := toList_writePrettyItems depth (out ++ "[") (v :: rest) (List.cons_ne_nil _ _)
    simp only [writePretty, Layout.text, String.toList_append, this]
    simp
  | out, .object [] => by simp [writePretty, Layout.text, Layout.textOfMembers]
  | out, .object (m :: rest) => by
    have := toList_writePrettyMembers depth (out ++ "\x7b") (m :: rest) (List.cons_ne_nil _ _)
    simp only [writePretty, Layout.text, String.toList_append, this]
    simp
  | _, .null | _, .bool _ | _, .number _ | _, .numeral _ | _, .string _ | _, .broken =>
    String.toList_append

lemma toList_writePrettyItems (depth : Nat) : ∀ (out : String) (items : List Json), items ≠ [] →
    (writePrettyItems (depth + 1) out items).toList ++ (newline depth).toList =
      out.toList ++ Layout.pretty.textOfItems depth items
  | _, [], h => absurd rfl h
  | out, [v], _ => by
    rw [writePrettyItems, toList_writePretty (depth + 1)]
    simp [Layout.textOfItems, Layout.pretty]
  | out, v :: w :: rest, _ => by
    simp only [writePrettyItems, Layout.textOfItems,
      toList_writePrettyItems depth _ (w :: rest) (List.cons_ne_nil _ _), String.toList_append,
      toList_writePretty (depth + 1)]
    simp [Layout.pretty]

lemma toList_writePrettyMembers (depth : Nat) :
    ∀ (out : String) (members : List (String × Json)), members ≠ [] →
      (writePrettyMembers (depth + 1) out members).toList ++ (newline depth).toList =
        out.toList ++ Layout.pretty.textOfMembers depth members
  | _, [], h => absurd rfl h
  | out, [(k, v)], _ => by
    rw [writePrettyMembers, toList_writePretty (depth + 1)]
    simp [Layout.textOfMembers, Layout.pretty]
  | out, (k, v) :: m :: rest, _ => by
    simp only [writePrettyMembers, Layout.textOfMembers,
      toList_writePrettyMembers depth _ (m :: rest) (List.cons_ne_nil _ _), String.toList_append,
      toList_writePretty (depth + 1)]
    simp [Layout.pretty]

end

/-! ## What is written is read back -/

mutual

/-- Whether a value holds texts, unsigned integers and words only. -/
def isPlain : Json → Bool
  | .numeral _ | .broken => false
  | .array items => itemsArePlain items
  | .object members => membersArePlain members
  | _ => true

/-- Whether all items are plain. -/
def itemsArePlain : List Json → Bool
  | [] => true
  | v :: rest => v.isPlain && itemsArePlain rest

/-- Whether the values of all members are plain. -/
def membersArePlain : List (String × Json) → Bool
  | [] => true
  | (_, v) :: rest => v.isPlain && membersArePlain rest

end

lemma itemsArePlain_eq_all (items : List Json) : itemsArePlain items = items.all isPlain := by
  induction items with
  | nil => rfl
  | cons v rest ih => rw [itemsArePlain, ih, List.all_cons]

lemma membersArePlain_eq_all (members : List (String × Json)) :
    membersArePlain members = members.all (·.2.isPlain) := by
  induction members with
  | nil => rfl
  | cons m rest ih => rw [membersArePlain, ih, List.all_cons]

mutual

/-- A value is as plain as before when its members are put in order. -/
lemma isPlain_sortKeys : ∀ v : Json, v.sortKeys.isPlain = v.isPlain
  | .null | .bool _ | .number _ | .numeral _ | .string _ | .broken => rfl
  | .array items => itemsArePlain_sortKeys items
  | .object members => by
    have hperm := List.mergeSort_perm (sortKeysOfMembers members) fun a b => a.1 ≤ b.1
    rw [sortKeys, isPlain, isPlain, membersArePlain_eq_all, hperm.all_eq,
      ← membersArePlain_eq_all, membersArePlain_sortKeys]

lemma itemsArePlain_sortKeys : ∀ items : List Json,
    itemsArePlain (sortKeysOfItems items) = itemsArePlain items
  | [] => rfl
  | v :: rest => by
    rw [sortKeysOfItems, itemsArePlain, itemsArePlain, isPlain_sortKeys, itemsArePlain_sortKeys]

lemma membersArePlain_sortKeys : ∀ members : List (String × Json),
    membersArePlain (sortKeysOfMembers members) = membersArePlain members
  | [] => rfl
  | (k, v) :: rest => by
    rw [sortKeysOfMembers, membersArePlain, membersArePlain, isPlain_sortKeys,
      membersArePlain_sortKeys]

end

mutual

/-- The lexemes of a value. -/
def lexemes : Json → List Lexeme
  | .array items => .openBracket :: lexemesOfItems items ++ [.closeBracket]
  | .object members => .openBrace :: lexemesOfMembers members ++ [.closeBrace]
  | .string s => [.string (some s)]
  | v => [.scalar v]

/-- The lexemes of the items of an array. -/
def lexemesOfItems : List Json → List Lexeme
  | [] => []
  | [v] => lexemes v
  | v :: rest => lexemes v ++ .comma :: lexemesOfItems rest

/-- The lexemes of the members of an object. -/
def lexemesOfMembers : List (String × Json) → List Lexeme
  | [] => []
  | [(k, v)] => .string (some k) :: .colon :: lexemes v
  | (k, v) :: rest => .string (some k) :: .colon :: lexemes v ++ .comma :: lexemesOfMembers rest

end

section Lexemes

variable {c : Char} {cs rest : List Char} {l : Lexeme}

lemma EndsNumber.of_mem_marks (h : (c, l) ∈ marks) : EndsNumber (c :: rest) := by
  intro d hd
  obtain rfl : c = d := Option.some_inj.1 hd
  simp only [marks, List.mem_cons, Prod.mk.injEq, List.not_mem_nil, or_false] at h
  rcases h with h | h | h | h | h | h
  all_goals
    obtain ⟨rfl, -⟩ := h
    decide

lemma EndsNumber.of_isSpace (hc : isSpace c = true) : EndsNumber (c :: rest) := by
  intro d hd
  obtain rfl : c = d := Option.some_inj.1 hd
  simp only [isSpace, Bool.or_eq_true, beq_iff_eq] at hc
  rcases hc with ((rfl | rfl) | rfl) | rfl
  all_goals decide

variable (L : Layout)

lemma EndsNumber.gap_append (depth : Nat) (h : EndsNumber rest) :
    EndsNumber (L.gap depth ++ rest) := by
  have hspace := L.isSpace_of_mem_gap depth
  cases hgap : L.gap depth with
  | nil => exact h
  | cons c cs => exact .of_isSpace (hspace c (hgap ▸ List.mem_cons_self))

lemma lex_gap (depth : Nat) : lex (L.gap depth ++ rest) = lex rest :=
  lex_append_of_isSpace (L.isSpace_of_mem_gap depth)

/-- A written key is the lexemes of its text and of the colon. -/
lemma lex_key (depth : Nat) (k : String) :
    lex (L.gap depth ++ ((writeString k).toList ++ ':' :: (L.behindColon ++ rest))) =
      (lex rest).map (.string (some k) :: .colon :: ·) := by
  rw [lex_gap, lex_writeString, lex_mark (l := .colon) (by simp [marks]),
    lex_append_of_isSpace L.isSpace_of_mem_behindColon]
  simp [Function.comp_def]

mutual

/-- **The text of a value is read as its lexemes**, whatever the layout.

**Proof sketch.** Induction on the value, with the text behind it left open but for the end of a
number: behind an item or a member stands a comma, a bracket or white space. -/
lemma lex_text (depth : Nat) : ∀ (v : Json) (rest : List Char), v.isPlain = true →
    EndsNumber rest → lex (L.text depth v ++ rest) = (lex rest).map (v.lexemes ++ ·)
  | .null, _, _, _ => lex_cons_append "ull".toList rfl rfl
  | .bool true, _, _, _ => lex_cons_append "rue".toList rfl rfl
  | .bool false, _, _, _ => lex_cons_append "alse".toList rfl rfl
  | .number n, _, _, h => lex_writeNat n h
  | .string s, _, _, _ => lex_writeString s
  | .array items, rest, hv, _ => by
    rw [Layout.text, List.append_assoc, List.cons_append, List.singleton_append,
      lex_mark (l := .openBracket) (by simp [marks]), lex_textOfItems depth items rest hv]
    simp [lexemes, Function.comp_def]
  | .object members, rest, hv, _ => by
    rw [Layout.text, List.append_assoc, List.cons_append, List.singleton_append,
      lex_mark (l := .openBrace) (by simp [marks]), lex_textOfMembers depth members rest hv]
    simp [lexemes, Function.comp_def]

lemma lex_textOfItems (depth : Nat) : ∀ (items : List Json) (rest : List Char),
    itemsArePlain items = true →
      lex (L.textOfItems depth items ++ ']' :: rest) =
        (lex rest).map (lexemesOfItems items ++ .closeBracket :: ·)
  | [], _, _ => lex_mark (l := .closeBracket) (by simp [marks])
  | [v], rest, hv => by
    simp only [itemsArePlain, Bool.and_true] at hv
    have hclose : (']', Lexeme.closeBracket) ∈ marks := by simp [marks]
    simp only [Layout.textOfItems, List.append_assoc]
    rw [lex_gap, lex_text (depth + 1) v _ hv (.gap_append L depth (.of_mem_marks hclose)), lex_gap,
      lex_mark hclose]
    simp [lexemesOfItems, Function.comp_def]
  | v :: w :: items, rest, hv => by
    rw [itemsArePlain, Bool.and_eq_true] at hv
    have hcomma : (',', Lexeme.comma) ∈ marks := by simp [marks]
    simp only [Layout.textOfItems, List.append_assoc, List.cons_append]
    rw [lex_gap, lex_text (depth + 1) v _ hv.1 (.of_mem_marks hcomma),
      lex_mark hcomma, lex_textOfItems depth (w :: items) rest hv.2]
    simp [lexemesOfItems, Function.comp_def]

lemma lex_textOfMembers (depth : Nat) : ∀ (members : List (String × Json)) (rest : List Char),
    membersArePlain members = true →
      lex (L.textOfMembers depth members ++ '}' :: rest) =
        (lex rest).map (lexemesOfMembers members ++ .closeBrace :: ·)
  | [], _, _ => lex_mark (l := .closeBrace) (by simp [marks])
  | [(k, v)], rest, hv => by
    simp only [membersArePlain, Bool.and_true] at hv
    have hclose : ('}', Lexeme.closeBrace) ∈ marks := by simp [marks]
    simp only [Layout.textOfMembers, List.append_assoc, List.cons_append]
    rw [lex_key, lex_text (depth + 1) v _ hv (.gap_append L depth (.of_mem_marks hclose)), lex_gap,
      lex_mark hclose]
    simp [lexemesOfMembers, Function.comp_def]
  | (k, v) :: m :: members, rest, hv => by
    rw [membersArePlain, Bool.and_eq_true] at hv
    have hcomma : (',', Lexeme.comma) ∈ marks := by simp [marks]
    simp only [Layout.textOfMembers, List.append_assoc, List.cons_append]
    rw [lex_key, lex_text (depth + 1) v _ hv.1 (.of_mem_marks hcomma),
      lex_mark hcomma, lex_textOfMembers depth (m :: members) rest hv.2]
    simp [lexemesOfMembers, Function.comp_def]

end

end Lexemes

/-! ### Lexemes are put together -/

section Machine

variable {stack : List Container} {ls : List Lexeme}

open Machine

/-- No item begins with the end of an array. -/
lemma foldlM_firstItem (v : Json) (items : List Json) :
    (lexemesOfItems (v :: items) ++ ls).foldlM step (.firstItem stack) =
      (lexemesOfItems (v :: items) ++ ls).foldlM step (.value stack) := by
  have hfirst (ls : List Lexeme) : (v.lexemes ++ ls).foldlM step (.firstItem stack) =
      (v.lexemes ++ ls).foldlM step (.value stack) := by
    cases v <;> simp [lexemes, step]
  cases items with
  | nil => exact hfirst ls
  | cons w items =>
    simpa [lexemesOfItems] using hfirst (.comma :: lexemesOfItems (w :: items) ++ ls)

/-- A key is a key, whether it is the first or not. -/
lemma foldlM_firstKey (m : String × Json) (members : List (String × Json)) :
    (lexemesOfMembers (m :: members) ++ ls).foldlM step (.firstKey [] false stack) =
      (lexemesOfMembers (m :: members) ++ ls).foldlM step (.key [] false stack) := by
  cases members <;> simp [lexemesOfMembers, step]

mutual

/-- **The lexemes of a value are put together to the value**, and it reaches the innermost
container that is open.

**Proof sketch.** Induction on the value, for all containers and all lexemes behind it. The items
that an array has so far are in reverse, and the next one is put in front of them. -/
lemma foldlM_lexemes (stack : List Container) (ls : List Lexeme) : ∀ v : Json,
    (v.lexemes ++ ls).foldlM step (.value stack) = ls.foldlM step (deliver v stack)
  | .null | .bool _ | .number _ | .numeral _ | .string _ | .broken => by
    simp [lexemes, step, begin]
  | .array [] => by
    simp [lexemes, lexemesOfItems, step, begin, close]
  | .array (v :: items) => by
    have hitems := foldlM_lexemesOfItems stack ls (v :: items) [] (List.cons_ne_nil _ _)
    rw [← foldlM_firstItem] at hitems
    simpa [lexemes, step, begin] using hitems
  | .object [] => by
    simp [lexemes, lexemesOfMembers, step, begin, close]
  | .object (m :: members) => by
    have hmembers := foldlM_lexemesOfMembers stack ls (m :: members) [] (List.cons_ne_nil _ _)
    rw [← foldlM_firstKey] at hmembers
    simpa [lexemes, step, begin] using hmembers

lemma foldlM_lexemesOfItems (stack : List Container) (ls : List Lexeme) :
    ∀ (items done : List Json), items ≠ [] →
      (lexemesOfItems items ++ .closeBracket :: ls).foldlM step (.value (.array done :: stack)) =
        ls.foldlM step (deliver (.array (done.reverse ++ items)) stack)
  | [], _, h => absurd rfl h
  | [v], done, _ => by
    rw [lexemesOfItems, foldlM_lexemes]
    simp [deliver, step, close]
  | v :: w :: items, done, _ => by
    have hitems := foldlM_lexemesOfItems stack ls (w :: items) (v :: done) (List.cons_ne_nil _ _)
    simp only [lexemesOfItems, List.append_assoc, List.cons_append, foldlM_lexemes,
      List.foldlM_cons, deliver, step, Option.bind_eq_bind, Option.bind_some] at hitems ⊢
    simp [hitems]

lemma foldlM_lexemesOfMembers (stack : List Container) (ls : List Lexeme) :
    ∀ members done : List (String × Json), members ≠ [] →
      (lexemesOfMembers members ++ .closeBrace :: ls).foldlM step (.key done false stack) =
        ls.foldlM step (deliver (.object (done.reverse ++ members)) stack)
  | [], _, h => absurd rfl h
  | [(k, v)], done, _ => by
    have hv := foldlM_lexemes (.object done false k :: stack) (.closeBrace :: ls) v
    simpa [lexemesOfMembers, deliver, step, readKey, close] using hv
  | (k, v) :: m :: members, done, _ => by
    have hmembers :=
      foldlM_lexemesOfMembers stack ls (m :: members) ((k, v) :: done) (List.cons_ne_nil _ _)
    simp only [lexemesOfMembers, List.append_assoc, List.cons_append, foldlM_lexemes,
      List.foldlM_cons, deliver, step, readKey, Option.bind_eq_bind, Option.bind_some]
      at hmembers ⊢
    simp [hmembers]

end

end Machine

/-! ### Reading what is written -/

/-- **A plain value is read from its text in any layout**, with white space behind it or not. -/
theorem read?_text_append (L : Layout) (depth : Nat) {v : Json} (hv : v.isPlain = true)
    {cs : List Char} (hcs : ∀ c ∈ cs, isSpace c = true) :
    read? (String.ofList (L.text depth v ++ cs)) = some v := by
  have hends : EndsNumber cs := by
    cases cs with
    | nil => exact nofun
    | cons c cs => exact .of_isSpace (hcs c List.mem_cons_self)
  have hspace : lex cs = some [] := by
    rw [← List.append_nil cs, lex_append_of_isSpace hcs, lex]
  have hlex : lex (L.text depth v ++ cs) = some v.lexemes := by
    rw [lex_text L depth v cs hv hends, hspace, Option.map_some, List.append_nil]
  have hfold : v.lexemes.foldlM Machine.step (.value []) = some (.finished v) := by
    have := foldlM_lexemes [] [] v
    rwa [List.append_nil] at this
  rw [read?, String.toList_ofList, hlex]
  simp [hfold, Machine.result?]

lemma read?_text (L : Layout) (depth : Nat) {v : Json} (hv : v.isPlain = true) :
    read? (String.ofList (L.text depth v)) = some v := by
  have hnone : ∀ c ∈ ([] : List Char), isSpace c = true := nofun
  simpa using read?_text_append L depth hv hnone

lemma toList_pretty (v : Json) : v.pretty.toList = Layout.pretty.text 0 v := by
  rw [pretty, toList_writePretty]
  rfl

/-- A plain value is read from its compact text. -/
theorem read?_compact {v : Json} (hv : v.isPlain = true) : read? v.compact = some v := by
  have htext : v.compact.toList = Layout.compact.text 0 v := by
    rw [compact, toList_write 0]
    rfl
  rw [← String.ofList_toList (s := v.compact), htext, read?_text _ _ hv]

/-- A plain value is read from its pretty text. -/
theorem read?_pretty {v : Json} (hv : v.isPlain = true) : read? v.pretty = some v := by
  rw [← String.ofList_toList (s := v.pretty), toList_pretty, read?_text _ _ hv]

/-- A line end behind the text is no matter. -/
lemma read?_pretty_line {v : Json} (hv : v.isPlain = true) :
    read? (v.pretty ++ "\n") = some v := by
  rw [← String.ofList_toList (s := v.pretty ++ "\n"), String.toList_append, toList_pretty]
  exact read?_text_append _ _ hv (by simp [isSpace])

end TxTree.Json
