import TxTree.Proofs.Cut

set_option relaxedAutoImplicit false
set_option autoImplicit false

/-!
# The forms of tokens

What a token of each kind looks like, and what does not stand behind it: a token takes in all that
belongs to it. The forms are stated of the characters of a token and of those that follow, without
a word about the order in which a text is read.

## Main definitions

* `TxTree.Run` — a run of characters of a class, as long as it can be.
* `TxTree.StringBody` — what stands between the quotes of a string.
* `TxTree.LexicalForm` — the form of the tokens of a kind.

## Main results

* `TxTree.lexicalForm_scan` — what is read at a character has the form of its kind.
* `TxTree.tokenize_lexicalForm` — every token of a text has the form of its kind.
-/

namespace TxTree

open Scan

/-! ## Forms -/

/-- **A run of characters** of a class, one at least, and as many as there are before `after`. -/
structure Run (p : Char → Bool) (word after : List Char) : Prop where
  /-- There is a character. -/
  ne_nil : word ≠ []
  /-- All of them are of the class. -/
  all : ∀ c ∈ word, p c = true
  /-- The one that follows is not. -/
  stops : ∀ c ∈ after.head?, p c = false

/-- **A word**: what begins a name, and then what continues one, as long as it can be. -/
structure Word (word after : List Char) : Prop where
  /-- The first character begins a name, … -/
  starts : ∃ c rest, word = c :: rest ∧ isNameStart c = true ∧ ∀ d ∈ rest, isNameRest d = true
  /-- … and the one that follows does not continue it. -/
  stops : ∀ c ∈ after.head?, isNameRest c = false

/-- **What stands between the quotes of a string**: characters other than quotes, backslashes and
line ends, and pairs of a backslash and any character that is no line end. -/
inductive StringBody : List Char → Prop where
  | nil : StringBody []
  | plain {c : Char} {cs : List Char} : c ≠ '"' → c ≠ '\\' → c ≠ '\n' → StringBody cs →
    StringBody (c :: cs)
  | escape {c : Char} {cs : List Char} : c ≠ '\n' → StringBody cs → StringBody ('\\' :: c :: cs)

/-- The marks that close a block comment. -/
def closingMark : List Char := ['*', '/']

/-- The operators, brackets and separators: tokens with one text for each kind. -/
def TokenKind.isSymbol (k : TokenKind) : Bool := k.isOperator || k.isPunctuation

/-- **The form of the tokens of a kind**, where `after` follows. -/
inductive LexicalForm : TokenKind → (word after : List Char) → Prop where
  | whitespace {word after : List Char} : Run Text.isBlank word after →
    LexicalForm .whitespace word after
  /-- A line comment goes on to the end of its line. -/
  | lineComment {rest after : List Char} : '\n' ∉ rest → (∀ c ∈ after.head?, c = '\n') →
    LexicalForm .lineComment ('/' :: '/' :: rest) after
  /-- A block comment ends with the first closing mark, … -/
  | blockComment {inner after : List Char} : ¬closingMark <:+: inner ++ ['*'] →
    LexicalForm .blockComment ('/' :: '*' :: (inner ++ closingMark)) after
  /-- … or at the end of the text if there is none. -/
  | openComment {inner : List Char} : ¬closingMark <:+: inner →
    LexicalForm .blockComment ('/' :: '*' :: inner) []
  /-- A name is not reserved. -/
  | ident {word after : List Char} : Word word after →
    (∀ k : TokenKind, k.isKeyword = true → k.name ≠ String.ofList word) →
    LexicalForm .ident word after
  /-- A reserved word is the text of its kind. -/
  | keyword {k : TokenKind} {word after : List Char} : k.isKeyword = true → Word word after →
    k.name = String.ofList word → LexicalForm k word after
  /-- A number is not the first character of a literal in base sixteen. -/
  | intLiteral {word after : List Char} : Run Char.isDigit word after →
    (word = ['0'] → ∀ d rest, after = 'x' :: d :: rest → isHexDigit d = false) →
    LexicalForm .intLiteral word after
  /-- A literal in base sixteen is neither a reference to an output nor an asset. -/
  | hexLiteral {digits after : List Char} : Run isHexDigit digits after →
    (∀ d rest, after = '#' :: d :: rest → d.isDigit = false) →
    (∀ body rest, StringBody body → after ≠ '.' :: '"' :: (body ++ '"' :: rest)) →
    LexicalForm .hexLiteral ('0' :: 'x' :: digits) after
  | utxoRefLiteral {digits number after : List Char} : Run isHexDigit digits ('#' :: number) →
    Run Char.isDigit number after →
    LexicalForm .utxoRefLiteral ('0' :: 'x' :: (digits ++ '#' :: number)) after
  | assetLiteral {digits body after : List Char} : Run isHexDigit digits ['.'] → StringBody body →
    LexicalForm .assetLiteral ('0' :: 'x' :: (digits ++ '.' :: '"' :: (body ++ ['"']))) after
  | bytesLiteral {digits after : List Char} : Run isHexDigit digits after →
    LexicalForm .bytesLiteral ('#' :: digits) after
  /-- A string ends with the first quote that no backslash takes with it, … -/
  | stringLiteral {body after : List Char} : StringBody body →
    LexicalForm .stringLiteral ('"' :: (body ++ ['"'])) after
  /-- … or at the end of the line if there is none; the last backslash there takes nothing. -/
  | openString {body slash after : List Char} : StringBody body → slash = [] ∨ slash = ['\\'] →
    (∀ c ∈ after.head?, c = '\n') → LexicalForm .stringLiteral ('"' :: (body ++ slash)) after
  /-- A symbol is the longest one that begins there, and no comment does. -/
  | symbol {k : TokenKind} {word after : List Char} : k.isSymbol = true →
    k.name = String.ofList word →
    (∀ k' : TokenKind, k'.isSymbol = true → k'.name.toList <+: word ++ after →
      k'.name.length ≤ word.length) →
    ¬['/', '/'] <+: word ++ after → ¬['/', '*'] <+: word ++ after → LexicalForm k word after
  /-- A character that begins no token is one by itself. -/
  | invalid {c : Char} {after : List Char} : Text.isBlank c = false → c.isDigit = false →
    isNameStart c = false → c ≠ '"' → (c = '#' → ∀ d ∈ after.head?, isHexDigit d = false) →
    (∀ k : TokenKind, k.isSymbol = true → ¬k.name.toList <+: c :: after) →
    LexicalForm .invalid [c] after

/-! ## Runs -/

section Runs

variable {p : Char → Bool} {c : Char} {cs : List Char}

lemma take_runLength : cs.take (runLength p cs) = cs.takeWhile p :=
  (List.prefix_iff_eq_take.1 (List.takeWhile_prefix p)).symm

lemma drop_runLength : cs.drop (runLength p cs) = cs.dropWhile p := by
  have h := List.take_append_drop (runLength p cs) cs
  rw [take_runLength] at h
  exact List.append_cancel_left (h.trans List.takeWhile_append_dropWhile.symm)

lemma length_take_runLength : (cs.take (runLength p cs)).length = runLength p cs := by
  rw [take_runLength]
  rfl

/-- Behind the characters of a class comes none of the class. -/
lemma head?_drop_runLength : ∀ d ∈ (cs.drop (runLength p cs)).head?, p d = false := by
  intro d hd
  rw [drop_runLength] at hd
  have h := List.head?_dropWhile_not p cs
  rw [Option.mem_def.1 hd] at h
  exact h

/-- All characters of a run are of the class. -/
lemma of_mem_take_runLength : ∀ d ∈ cs.take (runLength p cs), p d = true := by
  intro d hd
  rw [take_runLength] at hd
  exact List.mem_takeWhile_imp hd

/-- A character of a class and those that follow make a run. -/
lemma run_cons (hc : p c = true) :
    Run p (c :: cs.take (runLength p cs)) (cs.drop (runLength p cs)) :=
  ⟨List.cons_ne_nil _ _, List.forall_mem_cons.2 ⟨hc, of_mem_take_runLength⟩, head?_drop_runLength⟩

/-- So do all the next characters of a class, if there is any. -/
lemma run_take (h : runLength p cs ≠ 0) :
    Run p (cs.take (runLength p cs)) (cs.drop (runLength p cs)) := by
  refine ⟨fun hnil => h ?_, of_mem_take_runLength, head?_drop_runLength⟩
  rw [take_runLength] at hnil
  rw [runLength, hnil]
  rfl

/-- Where there is none, the next character is not of the class. -/
lemma head?_of_runLength_eq_zero (h : runLength p cs = 0) : ∀ d ∈ cs.head?, p d = false := by
  have hstops := @head?_drop_runLength p cs
  rwa [h, List.drop_zero] at hstops

end Runs

/-! ## Comments -/

/-- Where a closing mark begins. -/
lemma closingMark_prefix_cons_iff {c : Char} {cs : List Char} :
    closingMark <+: c :: cs ↔ c = '*' ∧ cs.head? = some '/' := by
  rw [closingMark, List.cons_prefix_cons]
  cases cs with
  | nil => simp
  | cons d cs => simp [eq_comm]

/-- A comment goes on through the first closing mark, or to the end if there is none.

**Proof sketch.** Induction on the characters. A mark that begins at the first of them would have
ended the comment there, so that there is none before the one that ends it further on. -/
lemma commentLength_closes (cs : List Char) :
    (∃ inner, cs.take (commentLength cs) = inner ++ closingMark ∧
        ¬closingMark <:+: inner ++ ['*']) ∨
      cs.take (commentLength cs) = cs ∧ cs.drop (commentLength cs) = [] ∧
        ¬closingMark <:+: cs := by
  fun_induction commentLength cs with
  | case1 => exact .inr ⟨rfl, rfl, by simp [closingMark]⟩
  | case2 rest => exact .inl ⟨[], rfl, by decide⟩
  | case3 c rest hne ih =>
    have hopen (ds : List Char) (hds : ds.head? = rest.head?) : ¬closingMark <+: c :: ds := by
      rw [closingMark_prefix_cons_iff, hds]
      rintro ⟨hc, hhead⟩
      obtain ⟨tail, hrest⟩ := List.head?_eq_some_iff.1 hhead
      exact hne tail hc hrest
    rw [List.take_succ_cons, List.drop_succ_cons]
    rcases ih with ⟨inner, htake, hinner⟩ | ⟨htake, hdrop, hnone⟩
    · refine .inl ⟨c :: inner, by rw [htake, List.cons_append], ?_⟩
      have hhead : (inner ++ ['*']).head? = rest.head? := by
        have hlong : (inner ++ closingMark).head? = (inner ++ ['*']).head? := by
          cases inner <;> rfl
        rw [← hlong, ← htake]
        cases hn : commentLength rest with
        | zero =>
          rw [hn] at htake
          simp [closingMark] at htake
        | succ n => cases rest <;> rfl
      rw [List.cons_append, List.infix_cons_iff, not_or]
      exact ⟨hopen _ hhead, hinner⟩
    · refine .inr ⟨by rw [htake], hdrop, ?_⟩
      rw [List.infix_cons_iff, not_or]
      exact ⟨hopen _ rfl, hnone⟩

/-- A line comment goes on to the end of its line. -/
lemma lexicalForm_lineComment (rest : List Char) :
    LexicalForm .lineComment ('/' :: ('/' :: rest).take (runLength (· != '\n') ('/' :: rest)))
      (('/' :: rest).drop (runLength (· != '\n') ('/' :: rest))) := by
  have hrun : runLength (· != '\n') ('/' :: rest) = runLength (· != '\n') rest + 1 := rfl
  rw [hrun, List.take_succ_cons, List.drop_succ_cons]
  refine .lineComment (fun hmem => ?_) fun c hc => ?_
  · have hline := of_mem_take_runLength '\n' hmem
    cases hline
  · simpa using head?_drop_runLength c hc

/-- A block comment is closed or open. -/
lemma lexicalForm_blockComment (rest : List Char) :
    LexicalForm .blockComment ('/' :: ('*' :: rest).take (commentLength rest + 1))
      (('*' :: rest).drop (commentLength rest + 1)) := by
  rw [List.take_succ_cons, List.drop_succ_cons]
  rcases commentLength_closes rest with ⟨inner, htake, hinner⟩ | ⟨htake, hdrop, hnone⟩
  · rw [htake]
    exact .blockComment hinner
  · rw [htake, hdrop]
    exact .openComment hnone

/-! ## Strings -/

/-- What a string is made of: its body, and either the quote that closes it, or nothing but perhaps
a last backslash before the end of the line.

**Proof sketch.** Induction on the characters, along the cases of the definition. -/
lemma stringLength_spells (cs : List Char) :
    ∃ body, StringBody body ∧
      ((stringLength cs).1 = true ∧ cs.take (stringLength cs).2 = body ++ ['"'] ∨
        (stringLength cs).1 = false ∧
          (∀ c ∈ (cs.drop (stringLength cs).2).head?, c = '\n') ∧
          ∃ slash, (slash = [] ∨ slash = ['\\']) ∧
            cs.take (stringLength cs).2 = body ++ slash) := by
  fun_induction stringLength cs with
  | case1 => exact ⟨[], .nil, .inr ⟨rfl, by simp, [], .inl rfl, rfl⟩⟩
  | case2 rest => exact ⟨[], .nil, .inl ⟨rfl, rfl⟩⟩
  | case3 rest => exact ⟨[], .nil, .inr ⟨rfl, by simp, [], .inl rfl, rfl⟩⟩
  | case4 => exact ⟨[], .nil, .inr ⟨rfl, by simp, ['\\'], .inr rfl, rfl⟩⟩
  | case5 rest => exact ⟨[], .nil, .inr ⟨rfl, by simp, ['\\'], .inr rfl, rfl⟩⟩
  | case6 c rest hc closed n heq ih =>
    obtain ⟨body, hbody, hspells⟩ := ih
    rw [heq] at hspells
    refine ⟨'\\' :: c :: body, .escape hc hbody, ?_⟩
    rw [List.take_succ_cons, List.take_succ_cons, List.drop_succ_cons, List.drop_succ_cons]
    rcases hspells with ⟨hclosed, htake⟩ | ⟨hopen, hline, slash, hslash, htake⟩
    · exact .inl ⟨hclosed, by rw [htake]; rfl⟩
    · exact .inr ⟨hopen, hline, slash, hslash, by rw [htake]; rfl⟩
  | case7 c rest hquote hline hend _ hnext closed n heq ih =>
    obtain ⟨body, hbody, hspells⟩ := ih
    rw [heq] at hspells
    refine ⟨c :: body, .plain hquote (ne_backslash hend hnext) hline hbody, ?_⟩
    rw [List.take_succ_cons, List.drop_succ_cons]
    rcases hspells with ⟨hclosed, htake⟩ | ⟨hopen, hline, slash, hslash, htake⟩
    · exact .inl ⟨hclosed, by rw [htake]; rfl⟩
    · exact .inr ⟨hopen, hline, slash, hslash, by rw [htake]; rfl⟩

/-- A string is closed or open. -/
lemma lexicalForm_string (cs : List Char) :
    LexicalForm .stringLiteral ('"' :: cs.take (stringLength cs).2)
      (cs.drop (stringLength cs).2) := by
  obtain ⟨body, hbody, ⟨-, htake⟩ | ⟨-, hline, slash, hslash, htake⟩⟩ := stringLength_spells cs
  · rw [htake]
    exact .stringLiteral hbody
  · rw [htake]
    exact .openString hbody hslash hline

/-- What stands between quotes does not close the string: whether it is closed is a matter of what
comes behind. -/
lemma closed_append {body : List Char} (h : StringBody body) (rest : List Char) :
    (stringLength (body ++ rest)).1 = (stringLength rest).1 := by
  induction h with
  | nil => rfl
  | plain hquote hslash hline _ ih =>
    rw [List.cons_append, stringLength_cons hquote hline hslash]
    exact ih
  | escape hc _ ih =>
    rw [List.cons_append, List.cons_append, stringLength_escape hc]
    exact ih

/-! ## Symbols -/

/-- The symbols of more than one character. -/
def longSymbols : List TokenKind := [.spread, .colonColon, .eqEq, .notEq, .le, .ge, .andAnd, .orOr]

/-- A symbol is a long one, or a character that is read as one if nothing follows it. -/
lemma isSymbol_cases {k : TokenKind} (h : k.isSymbol = true) :
    k ∈ longSymbols ∨ ∃ d, k.name.toList = [d] ∧ scanSymbol d [] = (k, 0) := by
  cases k
  all_goals first
    | exact .inl (by decide)
    | exact .inr ⟨_, rfl, rfl⟩
    | cases h

/-- What is read as a symbol is the text of its kind. -/
lemma scanSymbol_spells (c : Char) (cs : List Char) :
    scanSymbol c cs = (.invalid, 0) ∨ (scanSymbol c cs).1.isSymbol = true ∧
      (scanSymbol c cs).1.name = String.ofList (c :: cs.take (scanSymbol c cs).2) := by
  unfold scanSymbol
  split
  all_goals first
    | exact .inr ⟨rfl, rfl⟩
    | exact .inl rfl

/-- A long symbol is read wherever it stands. -/
lemma scanSymbol_of_long {k : TokenKind} {c : Char} {cs : List Char} (hk : k ∈ longSymbols)
    (h : k.name.toList <+: c :: cs) : scanSymbol c cs = (k, k.name.toList.length - 1) := by
  obtain ⟨rest, h⟩ := h
  simp only [longSymbols, List.mem_cons, List.not_mem_nil, or_false] at hk
  rcases hk with rfl | rfl | rfl | rfl | rfl | rfl | rfl | rfl
  all_goals
    cases h
    rfl

/-- A character that begins no symbol is none by itself. -/
lemma scanSymbol_nil {c : Char} {cs : List Char} (h : scanSymbol c cs = (.invalid, 0)) :
    scanSymbol c [] = (.invalid, 0) := by
  unfold scanSymbol at h
  split at h
  -- Where a symbol is read it is not invalid, and otherwise no symbol begins with the character.
  all_goals first
    | cases h
      done
    | rw [scanSymbol]
      all_goals first
        | assumption
        | nofun

/-- Some symbol is read wherever one stands. -/
lemma scanSymbol_ne_invalid {k : TokenKind} {c : Char} {cs : List Char} (hk : k.isSymbol = true)
    (h : k.name.toList <+: c :: cs) : scanSymbol c cs ≠ (.invalid, 0) := by
  intro hinvalid
  have hne : k ≠ .invalid := by
    rintro rfl
    cases hk
  rcases isSymbol_cases hk with hlong | ⟨d, hname, hd⟩
  · rw [scanSymbol_of_long hlong h] at hinvalid
    exact hne (congrArg Prod.fst hinvalid)
  · rw [hname] at h
    obtain ⟨rfl, -⟩ := List.cons_prefix_cons.1 h
    rw [scanSymbol_nil hinvalid] at hd
    exact hne (congrArg Prod.fst hd).symm

/-- No longer symbol stands there than the one that is read. -/
lemma length_le_scanSymbol {k : TokenKind} {c : Char} {cs : List Char} (hk : k.isSymbol = true)
    (h : k.name.toList <+: c :: cs) : k.name.toList.length ≤ (scanSymbol c cs).2 + 1 := by
  rcases isSymbol_cases hk with hlong | ⟨d, hname, -⟩
  · rw [scanSymbol_of_long hlong h]
    simp only
    omega
  · rw [hname, List.length_singleton]
    exact Nat.le_add_left 1 _

/-! ## Literals in base sixteen -/

/-- What the mark `#` begins. -/
lemma lexicalForm_scanBytes (cs : List Char) :
    LexicalForm (scanBytes cs).1 ('#' :: cs.take (scanBytes cs).2) (cs.drop (scanBytes cs).2) := by
  unfold scanBytes
  cases hn : runLength isHexDigit cs with
  | zero =>
    refine .invalid (by decide) (by decide) (by decide) (by decide) ?_ ?_
    · exact fun _ => head?_of_runLength_eq_zero hn
    · exact fun k hk hprefix => scanSymbol_ne_invalid hk hprefix rfl
  | succ n =>
    have hrun := run_take (hn.trans_ne (Nat.succ_ne_zero n))
    rw [hn] at hrun
    exact .bytesLiteral hrun

section Hex

variable {digits tail : List Char}

/-- The characters of a literal in base sixteen, of which `n` are behind its digits, … -/
lemma take_behind (n : Nat) :
    ('x' :: (digits ++ tail)).take (digits.length + 1 + n) = 'x' :: (digits ++ tail.take n) := by
  rw [Nat.add_right_comm, List.take_succ_cons, List.take_length_add_append]

/-- … and those that follow. -/
lemma drop_behind (n : Nat) :
    ('x' :: (digits ++ tail)).drop (digits.length + 1 + n) = tail.drop n := by
  rw [Nat.add_right_comm, List.drop_succ_cons, List.drop_length_add_append]

/-- A literal that ends with its digits. -/
lemma lexicalForm_digits (h : Run isHexDigit digits tail)
    (hmark : ∀ d rest, tail = '#' :: d :: rest → d.isDigit = false)
    (hquote : ∀ body rest, StringBody body → tail ≠ '.' :: '"' :: (body ++ '"' :: rest)) :
    LexicalForm .hexLiteral ('0' :: ('x' :: (digits ++ tail)).take (digits.length + 1))
      (('x' :: (digits ++ tail)).drop (digits.length + 1)) := by
  have htake := @take_behind digits tail 0
  have hdrop := @drop_behind digits tail 0
  rw [Nat.add_zero, List.take_zero, List.append_nil] at htake
  rw [Nat.add_zero, List.drop_zero] at hdrop
  rw [htake, hdrop]
  exact .hexLiteral h hmark hquote

/-- What begins with `0x` and some digits.

**Proof sketch.** The cases are those of the definition. Where the literal ends with its digits,
that no number follows the mark, or that the string is open, is why it is no longer one. -/
lemma lexicalForm_behindDigits (h : Run isHexDigit digits tail) :
    LexicalForm (behindDigits digits.length tail).1
      ('0' :: ('x' :: (digits ++ tail)).take (behindDigits digits.length tail).2)
      (('x' :: (digits ++ tail)).drop (behindDigits digits.length tail).2) := by
  unfold behindDigits
  split
  · next rest =>
    split
    · next hrun =>
      refine lexicalForm_digits h (fun d rest' heq => ?_) nofun
      cases heq
      exact head?_of_runLength_eq_zero hrun d rfl
    · next m hrun =>
      have hlength : digits.length + 2 + runLength Char.isDigit rest =
          digits.length + 1 + (runLength Char.isDigit rest + 1) := by omega
      rw [hlength, take_behind, drop_behind, List.take_succ_cons, List.drop_succ_cons]
      exact .utxoRefLiteral ⟨h.ne_nil, h.all, h.stops⟩ (run_take hrun)
  · next rest =>
    obtain ⟨body, hbody, hspells⟩ := stringLength_spells rest
    split
    · next m heq =>
      rw [heq] at hspells
      obtain ⟨-, htake⟩ := hspells.resolve_right (by simp)
      have hlength : digits.length + 3 + m = digits.length + 1 + (m + 1 + 1) := by omega
      rw [hlength, take_behind, drop_behind, List.take_succ_cons, List.take_succ_cons,
        List.drop_succ_cons, List.drop_succ_cons, htake]
      exact .assetLiteral ⟨h.ne_nil, h.all, h.stops⟩ hbody
    · next m heq =>
      refine lexicalForm_digits h nofun (fun body' rest' hbody' htail => ?_)
      cases htail
      have hclosed : _ = true := closed_append hbody' ('"' :: rest')
      rw [heq] at hclosed
      cases hclosed
  · next hmark hquote =>
    refine lexicalForm_digits h (fun d rest htail => ?_) (fun body rest _ htail => ?_)
    · exact absurd htail (hmark (d :: rest))
    · exact absurd htail (hquote (body ++ '"' :: rest))

end Hex

/-- What begins with `0x` and a digit. -/
lemma lexicalForm_scanHex {cs : List Char} (h : runLength isHexDigit cs ≠ 0) :
    LexicalForm (scanHex cs).1 ('0' :: ('x' :: cs).take (scanHex cs).2)
      (('x' :: cs).drop (scanHex cs).2) := by
  have hform := lexicalForm_behindDigits (run_take h)
  rwa [List.take_append_drop, length_take_runLength, ← scanHex_eq] at hform

/-! ## Words -/

/-- A reserved word is the text of its kind, and no other word is. -/
lemma lexicalForm_wordKind {word after : List Char} (h : Word word after) :
    LexicalForm (wordKind word) word after := by
  unfold wordKind
  cases hkeyword : TokenKind.keyword? (String.ofList word) with
  | none =>
    refine .ident h fun k hk hname => ?_
    have hnone := List.find?_eq_none.1 hkeyword k (List.mem_filter.2 ⟨k.mem_all, hk⟩)
    exact hnone (beq_iff_eq.2 hname)
  | some k =>
    have hmem := List.mem_of_find?_eq_some hkeyword
    have hname := List.find?_some hkeyword
    exact .keyword (List.mem_filter.1 hmem).2 h (beq_iff_eq.1 hname)

/-! ## All tokens -/

lemma startsComment_iff {mark c : Char} {cs : List Char} :
    startsComment mark c cs = true ↔ ['/', mark] <+: c :: cs := by
  rw [startsComment, Bool.and_eq_true, beq_iff_eq, beq_iff_eq, List.cons_prefix_cons]
  cases cs with
  | nil => simp
  | cons d cs =>
    rw [List.head?_cons, Option.some_inj, List.cons_prefix_cons]
    exact and_congr eq_comm (eq_comm.trans (and_iff_left List.nil_prefix).symm)

lemma startsHex_iff {c : Char} {cs : List Char} :
    startsHex c cs = true ↔
      ∃ d rest, c = '0' ∧ cs = 'x' :: d :: rest ∧ isHexDigit d = true := by
  constructor
  · intro h
    match cs with
    | [] | [x] => simp [startsHex] at h
    | x :: d :: rest =>
      simp only [startsHex, Bool.and_eq_true, beq_iff_eq, List.head?_cons, Option.some_inj] at h
      exact ⟨d, rest, h.1.1, by rw [h.1.2], h.2⟩
  · rintro ⟨d, rest, rfl, rfl, hd⟩
    exact hd

/-- A symbol, or a character that begins no token, where no comment begins. -/
lemma lexicalForm_scanSymbol {c : Char} {cs : List Char} (hline : ¬['/', '/'] <+: c :: cs)
    (hblock : ¬['/', '*'] <+: c :: cs) (hblank : Text.isBlank c = false)
    (hdigit : c.isDigit = false) (hname : isNameStart c = false) (hquote : c ≠ '"')
    (hbytes : c ≠ '#') :
    LexicalForm (scanSymbol c cs).1 (c :: cs.take (scanSymbol c cs).2)
      (cs.drop (scanSymbol c cs).2) := by
  rcases scanSymbol_spells c cs with hinvalid | ⟨hsymbol, hspells⟩
  · rw [hinvalid]
    exact .invalid hblank hdigit hname hquote (fun h => absurd h hbytes)
      fun k hk hprefix => scanSymbol_ne_invalid hk hprefix hinvalid
  · have hwhole : c :: cs.take (scanSymbol c cs).2 ++ cs.drop (scanSymbol c cs).2 = c :: cs := by
      rw [List.cons_append, List.take_append_drop]
    refine .symbol hsymbol hspells (fun k hk hprefix => ?_) (hwhole ▸ hline) (hwhole ▸ hblock)
    rw [hwhole] at hprefix
    have hread := length_le_scanSymbol hk hprefix
    have hthere := hprefix.length_le
    rw [String.length_toList] at hread hthere
    rw [List.length_cons] at hthere ⊢
    rw [List.length_take]
    omega

/-- What is read where neither white space nor a comment begins has the form of its kind.

**Proof sketch.** One case for each kind of token, in the order in which they are tried. A number
is read only where no literal in base sixteen begins, and a symbol only where nothing else does. -/
lemma lexicalForm_scanPlain {c : Char} {cs : List Char} (hblank : Text.isBlank c = false)
    (hline : ¬['/', '/'] <+: c :: cs) (hblock : ¬['/', '*'] <+: c :: cs) :
    LexicalForm (scanPlain c cs).1 (c :: cs.take (scanPlain c cs).2)
      (cs.drop (scanPlain c cs).2) := by
  unfold scanPlain
  by_cases hquote : (c == '"') = true
  · rw [if_pos hquote]
    obtain rfl := beq_iff_eq.1 hquote
    exact lexicalForm_string cs
  rw [if_neg hquote]
  by_cases hbytes : (c == '#') = true
  · rw [if_pos hbytes]
    obtain rfl := beq_iff_eq.1 hbytes
    exact lexicalForm_scanBytes cs
  rw [if_neg hbytes]
  by_cases hhex : startsHex c cs = true
  · rw [if_pos hhex]
    obtain ⟨d, rest, rfl, rfl, hd⟩ := startsHex_iff.1 hhex
    exact lexicalForm_scanHex (by simp [runLength, hd])
  rw [if_neg hhex]
  by_cases hdigit : c.isDigit = true
  · rw [if_pos hdigit]
    refine .intLiteral (run_cons hdigit) fun hword d rest hafter => ?_
    rw [List.cons.injEq] at hword
    have hcs := List.take_append_drop (runLength Char.isDigit cs) cs
    rw [hword.2, hafter, List.nil_append] at hcs
    by_contra hd
    exact hhex (startsHex_iff.2 ⟨d, rest, hword.1, hcs.symm, Bool.of_not_eq_false hd⟩)
  rw [if_neg hdigit]
  by_cases hname : isNameStart c = true
  · rw [if_pos hname]
    exact lexicalForm_wordKind ⟨⟨c, _, rfl, hname, of_mem_take_runLength⟩, head?_drop_runLength⟩
  rw [if_neg hname]
  exact lexicalForm_scanSymbol hline hblock hblank (Bool.of_not_eq_true hdigit)
    (Bool.of_not_eq_true hname) (fun h => hquote (beq_iff_eq.2 h)) fun h => hbytes (beq_iff_eq.2 h)

/-- **What is read at a character has the form of its kind**, whatever follows. -/
theorem lexicalForm_scan (c : Char) (cs : List Char) :
    LexicalForm (scan c cs).1 (c :: cs.take (scan c cs).2) (cs.drop (scan c cs).2) := by
  rw [scan_eq]
  by_cases hblank : Text.isBlank c = true
  · rw [if_pos hblank]
    exact .whitespace (run_cons hblank)
  rw [if_neg hblank]
  by_cases hline : startsComment '/' c cs = true
  · rw [if_pos hline]
    obtain ⟨rest, hrest⟩ := startsComment_iff.1 hline
    cases hrest
    exact lexicalForm_lineComment rest
  rw [if_neg hline]
  by_cases hblock : startsComment '*' c cs = true
  · rw [if_pos hblock]
    obtain ⟨rest, hrest⟩ := startsComment_iff.1 hblock
    cases hrest
    exact lexicalForm_blockComment rest
  rw [if_neg hblock]
  exact lexicalForm_scanPlain (Bool.of_not_eq_true hblank) (startsComment_iff.not.1 hline)
    (startsComment_iff.not.1 hblock)

/-- The tokens of the characters behind others have the forms of their kinds, as pieces of the
whole.

**Proof sketch.** Induction from token to token: what is behind a token is also behind what the
token and the characters before it make up. -/
lemma lexicalForm_of_mem_tokensFrom {start : Nat} {cs : List Char} (past : List Char)
    (hstart : start = (String.ofList past).utf8ByteSize) :
    ∀ t ∈ tokensFrom start cs, ∃ before after : List Char,
      past ++ cs = before ++ t.text.toList ++ after ∧
        t.span.start = (String.ofList before).utf8ByteSize ∧
        LexicalForm t.kind t.text.toList after := by
  induction start, cs using tokens_induction generalizing past with
  | nil start => simp
  | cons start c cs ih =>
    subst hstart
    have hsplit : past ++ c :: cs =
        (past ++ c :: cs.take (scan c cs).2) ++ cs.drop (scan c cs).2 := by
      rw [List.append_assoc, List.cons_append, List.take_append_drop]
    rw [tokensFrom_cons, List.forall_mem_cons]
    constructor
    · refine ⟨past, cs.drop (scan c cs).2, ?_, rfl, ?_⟩
      · rw [hsplit, firstToken, Token.ofText, String.toList_ofList]
      · rw [firstToken, Token.ofText, String.toList_ofList]
        exact lexicalForm_scan c cs
    · rw [hsplit]
      exact ih _ (byteSize_append ..).symm

/-- **Every token of a text has the form of its kind**, with regard to what follows it in the text:
it is of the shape that the kind says, and it takes in all that belongs to it. -/
theorem tokenize_lexicalForm (text : String) :
    ∀ t ∈ tokenize text, ∃ before after : List Char,
      text.toList = before ++ t.text.toList ++ after ∧
        t.span.start = (String.ofList before).utf8ByteSize ∧
        LexicalForm t.kind t.text.toList after :=
  lexicalForm_of_mem_tokensFrom [] rfl

/-- The digits before a point and a string that is never closed are a literal by themselves: no
asset begins there. -/
theorem tokenize_lexicalForm_open_asset :
    .ofText .hexLiteral "0xab" 0 ∈ tokenize "0xab.\"open" ∧ ∃ before after : List Char,
      "0xab.\"open".toList = before ++ "0xab".toList ++ after ∧
        0 = (String.ofList before).utf8ByteSize ∧
        LexicalForm .hexLiteral "0xab".toList after := by
  have hmem : Token.ofText .hexLiteral "0xab" 0 ∈ tokenize "0xab.\"open" := by decide +kernel
  exact ⟨hmem, tokenize_lexicalForm _ _ hmem⟩

end TxTree
