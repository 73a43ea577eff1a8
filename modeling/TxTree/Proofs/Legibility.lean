import Mathlib.Data.List.Basic
import Mathlib.Data.List.TakeWhile
import TxTree.Tree.Dump
import TxTree.Tree.Traversal

set_option relaxedAutoImplicit false
set_option autoImplicit false

/-!
# Dumps are legible

Nothing but white space is lost in a dump. A line tells its depth by the spaces before it; the kind
of a token stands before the first quote of the line and its text before the last, since names hold
no quotes and a quote in the text is escaped; the line of a node has no quotes at all. The escapes
can be told apart and hold no line ends, so that the text falls into the lines that were written.
And the entries below a node are those that are deeper, up to the next that is not.

## Main definitions

* `TxTree.Text.EscapeOf` — the escapes of a character.
* `TxTree.DumpEntry` — what a line of a dump shows.
* `TxTree.Node.entriesAt` — the entries of a tree with their depths.
* `TxTree.Node.unspaced` — a tree without its white space.

## Main results

* `TxTree.Text.escape_injective` — texts are told by their escaped forms.
* `TxTree.DumpEntry.line_injective` — entries are told by their lines.
* `TxTree.Node.unspaced_eq_of_entriesAt` — trees are told by their entries.
* `TxTree.Node.dump_legible` — trees are told by their dumps, and a dump has one line for each node
  and each token.
-/

namespace TxTree

/-! ## Marks in lists -/

section Marks

variable {α : Type} {a : α} {l₁ l₂ r₁ r₂ : List α}

/-- There is one place only where a mark first stands. -/
lemma append_cons_inj_of_notMem (h₁ : a ∉ l₁) (h₂ : a ∉ l₂) (h : l₁ ++ a :: r₁ = l₂ ++ a :: r₂) :
    l₁ = l₂ ∧ r₁ = r₂ := by
  classical
  have htake {l r : List α} (hl : a ∉ l) : (l ++ a :: r).takeWhile (· ≠ a) = l := by
    rw [List.takeWhile_append_of_pos fun x hx => decide_eq_true (ne_of_mem_of_not_mem hx hl)]
    simp
  obtain rfl : l₁ = l₂ := by rw [← htake h₁, h, htake h₂]
  exact ⟨rfl, (List.cons.inj (List.append_cancel_left h)).2⟩

/-- There is one place only where a mark last stands. -/
lemma append_cons_inj_of_notMem_right (h₁ : a ∉ r₁) (h₂ : a ∉ r₂)
    (h : l₁ ++ a :: r₁ = l₂ ++ a :: r₂) : l₁ = l₂ ∧ r₁ = r₂ := by
  have hrev := congrArg List.reverse h
  simp only [List.reverse_append, List.reverse_cons, List.append_assoc, List.singleton_append]
    at hrev
  obtain ⟨hr, hl⟩ := append_cons_inj_of_notMem (by simpa using h₁) (by simpa using h₂) hrev
  exact ⟨List.reverse_inj.1 hl, List.reverse_inj.1 hr⟩

/-- Lists that are ended by a mark they do not hold are told by what they make up together. -/
lemma flatMap_ended_injective {ls ms : List (List α)} (hls : ∀ l ∈ ls, a ∉ l)
    (hms : ∀ m ∈ ms, a ∉ m) (h : ls.flatMap (· ++ [a]) = ms.flatMap (· ++ [a])) : ls = ms := by
  induction ls generalizing ms with
  | nil =>
    cases ms with
    | nil => rfl
    | cons m ms => simp at h
  | cons l ls ih =>
    cases ms with
    | nil => simp at h
    | cons m ms =>
      rw [List.forall_mem_cons] at hls hms
      simp only [List.flatMap_cons, List.append_assoc, List.singleton_append] at h
      obtain ⟨rfl, hrest⟩ := append_cons_inj_of_notMem hls.1 hms.1 h
      rw [ih hls.2 hms.2 hrest]

end Marks

/-! ## Escapes -/

namespace Text

/-- The digits of a number are digits. -/
lemma exists_digitChar_of_mem_toDigits {b n : Nat} (hb : 1 < b) {c : Char}
    (h : c ∈ Nat.toDigits b n) : ∃ d : Nat, c = d.digitChar := by
  induction n using Nat.strong_induction_on with
  | _ n ih =>
    rw [Nat.toDigits_eq_if hb] at h
    split at h
    · exact ⟨n, List.mem_singleton.1 h⟩
    · next hn =>
      rcases List.mem_append.1 h with h | h
      · exact ih _ (Nat.div_lt_self (by omega) hb) h
      · exact ⟨n % b, List.mem_singleton.1 h⟩

/-- A digit below sixteen is told by its character. -/
lemma digitChar_inj {m n : Nat} (hm : m < 16) (hn : n < 16) (h : m.digitChar = n.digitChar) :
    m = n := by
  have hall : ∀ m < 16, ∀ n < 16, m.digitChar = n.digitChar → m = n := by decide
  exact hall m hm n hn h

/-- A number is told by its digits. -/
lemma toDigits_injective {b : Nat} (hb : 1 < b) (hb' : b ≤ 16) :
    Function.Injective (Nat.toDigits b) := by
  intro m
  induction m using Nat.strong_induction_on with
  | _ m ih =>
    intro n h
    rcases Nat.lt_or_ge m b with hm | hm <;> rcases Nat.lt_or_ge n b with hn | hn
    · rw [Nat.toDigits_of_lt_base hm, Nat.toDigits_of_lt_base hn] at h
      exact digitChar_inj (hm.trans_le hb') (hn.trans_le hb') (List.singleton_inj.1 h)
    · rw [Nat.toDigits_of_lt_base hm, Nat.toDigits_of_base_le hb hn] at h
      simp [List.singleton_eq_append_iff, Nat.toDigits_ne_nil] at h
    · rw [Nat.toDigits_of_base_le hb hm, Nat.toDigits_of_lt_base hn] at h
      simp [List.append_eq_singleton_iff, Nat.toDigits_ne_nil] at h
    · rw [Nat.toDigits_of_base_le hb hm, Nat.toDigits_of_base_le hb hn] at h
      obtain ⟨hdiv, hmod⟩ := List.append_inj' h rfl
      have hlast : m % b = n % b :=
        digitChar_inj ((Nat.mod_lt _ (by omega)).trans_le hb')
          ((Nat.mod_lt _ (by omega)).trans_le hb') (List.singleton_inj.1 hmod)
      have hrest : m / b = n / b := ih _ (Nat.div_lt_self (by omega) hb) hdiv
      rw [← Nat.div_add_mod m b, ← Nat.div_add_mod n b, hrest, hlast]

/-- The characters that have an escape by a letter, with the letter. -/
def namedEscapes : List (Char × Char) :=
  [('\x00', '0'), ('\t', 't'), ('\r', 'r'), ('\n', 'n'), ('\'', '\''), ('"', '"'), ('\\', '\\')]

/-- **The escapes of a character**: itself, a letter behind a backslash, or its number. -/
inductive EscapeOf : Char → List Char → Prop where
  | self {c : Char} : c ≠ '\\' → c ≠ '\n' → EscapeOf c [c]
  | named {c letter : Char} : (c, letter) ∈ namedEscapes → EscapeOf c ['\\', letter]
  | code {c : Char} : EscapeOf c (codeEscape c)

lemma codeEscape_append (c : Char) (r : List Char) :
    codeEscape c ++ r = '\\' :: 'u' :: '\x7b' :: (hex c.toNat ++ '\x7d' :: r) := by
  rw [codeEscape, show "\\u\x7b".toList = ['\\', 'u', '\x7b'] from rfl]
  simp

lemma digitChar_ne_of_mem_hex {n : Nat} {c mark : Char} (h : c ∈ hex n)
    (hmark : ∀ d : Nat, d.digitChar ≠ mark) : c ≠ mark := by
  obtain ⟨d, rfl⟩ := exists_digitChar_of_mem_toDigits (by decide) h
  exact hmark d

namespace EscapeOf

variable {c d : Char} {l m r r' : List Char}

/-- A character is escaped by one of its escapes, … -/
lemma escapeChar (c : Char) : EscapeOf c (escapeChar c) := by
  unfold Text.escapeChar
  split
  all_goals try exact .named (by decide)
  split
  · exact .self ‹_› ‹_›
  · exact .code

/-- … also in the first place. -/
lemma escapeFirst (c : Char) : EscapeOf c (escapeFirst c) := by
  unfold Text.escapeFirst
  split
  · exact .code
  · exact escapeChar c

/-- An escape holds no line end, … -/
lemma lineEnd_notMem (h : EscapeOf c l) : '\n' ∉ l := by
  cases h with
  | self _ hn => simpa using hn.symm
  | named h =>
    have hletters : ∀ e ∈ namedEscapes, '\n' ≠ e.2 := by decide
    simpa using hletters _ h
  | code =>
    intro hmem
    rw [← List.append_nil (codeEscape c), codeEscape_append] at hmem
    simp at hmem
    exact digitChar_ne_of_mem_hex hmem (fun d => Nat.digitChar_ne _ (by decide)) rfl

/-- … and it tells its character, whatever stands behind it. -/
lemma inj (hl : EscapeOf c l) (hm : EscapeOf d m) (h : l ++ r = m ++ r') : c = d ∧ r = r' := by
  have hletters : ∀ e ∈ namedEscapes, e.2 ≠ 'u' := by decide
  have hnamed : ∀ e ∈ namedEscapes, ∀ f ∈ namedEscapes, e.2 = f.2 → e.1 = f.1 := by decide
  cases hl with
  | self hc _ =>
    cases hm with
    | self =>
      obtain ⟨rfl, rfl⟩ := List.cons.inj h
      exact ⟨rfl, rfl⟩
    | named => exact absurd (List.cons.inj h).1 hc
    | code =>
      rw [codeEscape_append] at h
      exact absurd (List.cons.inj h).1 hc
  | named hc =>
    cases hm with
    | self hd _ => exact absurd (List.cons.inj h).1.symm hd
    | named hd =>
      obtain ⟨hletter, rfl⟩ := List.cons.inj (List.cons.inj h).2
      exact ⟨hnamed _ hc _ hd hletter, rfl⟩
    | code =>
      rw [codeEscape_append] at h
      exact absurd (List.cons.inj (List.cons.inj h).2).1 (hletters _ hc)
  | code =>
    rw [codeEscape_append] at h
    cases hm with
    | self hd _ => exact absurd (List.cons.inj h).1.symm hd
    | named hd => exact absurd (List.cons.inj (List.cons.inj h).2).1.symm (hletters _ hd)
    | code =>
      rw [codeEscape_append] at h
      have hclose (n : Nat) : '\x7d' ∉ hex n := fun hmem =>
        digitChar_ne_of_mem_hex hmem (fun d => Nat.digitChar_ne _ (by decide)) rfl
      simp only [List.cons.injEq, true_and] at h
      obtain ⟨hdigits, rfl⟩ := append_cons_inj_of_notMem (hclose _) (hclose _) h
      exact ⟨Char.toNat_inj.1 (toDigits_injective (by decide) (by decide) hdigits), rfl⟩

/-- An escape is not empty. -/
lemma ne_nil (h : EscapeOf c l) : l ≠ [] := by
  cases h <;> simp [codeEscape]

end EscapeOf

/-- The characters behind the first are told by their escapes, … -/
lemma flatMap_escapeChar_injective {cs ds : List Char}
    (h : cs.flatMap escapeChar = ds.flatMap escapeChar) : cs = ds := by
  induction cs generalizing ds with
  | nil =>
    cases ds with
    | nil => rfl
    | cons d ds => exact absurd h.symm (by simp [(EscapeOf.escapeChar d).ne_nil])
  | cons c cs ih =>
    cases ds with
    | nil => exact absurd h (by simp [(EscapeOf.escapeChar c).ne_nil])
    | cons d ds =>
      rw [List.flatMap_cons, List.flatMap_cons] at h
      obtain ⟨rfl, hrest⟩ := (EscapeOf.escapeChar c).inj (EscapeOf.escapeChar d) h
      rw [ih hrest]

lemma toList_escape (text : String) :
    (escape text).toList = match text.toList with
      | [] => []
      | c :: rest => escapeFirst c ++ rest.flatMap escapeChar := by
  unfold escape
  split <;> simp_all

/-- … so that **texts are told by their escaped forms.** -/
lemma escape_injective : Function.Injective escape := by
  intro s t h
  have hlist := congrArg String.toList h
  rw [toList_escape, toList_escape] at hlist
  refine String.toList_inj.1 ?_
  cases hs : s.toList with
  | nil =>
    cases ht : t.toList with
    | nil => rfl
    | cons d ds =>
      rw [hs, ht] at hlist
      exact absurd hlist.symm (by simp [(EscapeOf.escapeFirst d).ne_nil])
  | cons c cs =>
    cases ht : t.toList with
    | nil =>
      rw [hs, ht] at hlist
      exact absurd hlist (by simp [(EscapeOf.escapeFirst c).ne_nil])
    | cons d ds =>
      rw [hs, ht] at hlist
      obtain ⟨rfl, hrest⟩ := (EscapeOf.escapeFirst c).inj (EscapeOf.escapeFirst d) hlist
      rw [flatMap_escapeChar_injective hrest]

/-- An escaped text holds no line end. -/
lemma lineEnd_notMem_escape (text : String) : '\n' ∉ (escape text).toList := by
  rw [toList_escape]
  split
  · exact List.not_mem_nil
  · next c rest _ =>
    rw [List.mem_append, List.mem_flatMap]
    rintro (h | ⟨d, -, h⟩)
    · exact (EscapeOf.escapeFirst c).lineEnd_notMem h
    · exact (EscapeOf.escapeChar d).lineEnd_notMem h

end Text

/-! ## Spans in parentheses -/

/-- A number holds nothing but digits. -/
lemma notMem_toDigits {n : Nat} {c : Char} (hc : c.isDigit = false) : c ∉ Nat.toDigits 10 n := by
  intro h
  rw [Nat.isDigit_of_mem_toDigits (by decide) (by decide) h] at hc
  cases hc

lemma toList_parenthesized (s : Span) :
    (parenthesized s).toList =
      '(' :: (Nat.toDigits 10 s.start ++ ',' :: (Nat.toDigits 10 s.stop ++ [')'])) := by
  simp [parenthesized]

/-- A span in parentheses holds nothing but digits and its marks. -/
lemma notMem_parenthesized {s : Span} {c : Char} (hc : c.isDigit = false)
    (hmark : c ∉ ['(', ',', ')']) : c ∉ (parenthesized s).toList := by
  simp only [List.mem_cons, List.not_mem_nil, or_false, not_or] at hmark
  simp [toList_parenthesized, notMem_toDigits hc, hmark]

/-- A span is told by its two numbers. -/
lemma parenthesized_injective : Function.Injective parenthesized := by
  intro s t h
  have hlist := congrArg String.toList h
  rw [toList_parenthesized, toList_parenthesized] at hlist
  obtain ⟨hstart, hrest⟩ := append_cons_inj_of_notMem (notMem_toDigits (by decide))
    (notMem_toDigits (by decide)) (List.cons.inj hlist).2
  obtain ⟨hstop, -⟩ := append_cons_inj_of_notMem (notMem_toDigits (by decide))
    (notMem_toDigits (by decide)) hrest
  have hdigits := Text.toDigits_injective (b := 10) (by decide) (by decide)
  obtain ⟨start, stop⟩ := s
  obtain ⟨start', stop'⟩ := t
  obtain rfl : start = start' := hdigits hstart
  obtain rfl : stop = stop' := hdigits hstop
  rfl

/-! ## Entries -/

/-- A kind of token is told by its name, … -/
lemma TokenKind.name_injective : Function.Injective name := fun k l h =>
  Option.some_inj.1 (by rw [← ofName?_name k, h, ofName?_name l])

/-- … and so is a kind of node. -/
lemma NodeKind.name_injective : Function.Injective name := fun k l h =>
  Option.some_inj.1 (by rw [← ofName?_name k, h, ofName?_name l])

/-- **What a line of a dump shows**: a node without its children, or a token. -/
inductive DumpEntry where
  | node (kind : NodeKind) (span : Span)
  | token (token : Token)

namespace DumpEntry

/-- The line of an entry, without the spaces before it. -/
def line : DumpEntry → String
  | node kind span => kind.name ++ parenthesized span
  | token t => t.dumpLine

lemma toList_line_node (kind : NodeKind) (span : Span) :
    (node kind span).line.toList = kind.name.toList ++ (parenthesized span).toList := by
  simp [line]

/-- The line of a token has a quote before its text and one behind it. -/
lemma toList_line_token (t : Token) :
    (token t).line.toList = (t.kind.name.toList ++ ['(']) ++
      '\'' :: ((Text.escape t.text).toList ++ '\'' :: (')' :: (parenthesized t.span).toList)) := by
  simp [line, Token.dumpLine]

/-- Whether a name is a word: it is not empty, and has none of the marks in it that part a line. -/
def isWord (name : String) : Bool :=
  !name.toList.isEmpty && name.toList.all fun c => c != ' ' && c != '\'' && c != '\n'

lemma isWord_name_nodeKind (k : NodeKind) :
    isWord k.name = true ∧ '(' ∉ k.name.toList := by
  have hall : ∀ k ∈ NodeKind.all, isWord k.name = true ∧ '(' ∉ k.name.toList := by decide +kernel
  exact hall k k.mem_all

lemma isWord_name_tokenKind (k : TokenKind) : isWord k.name = true := by
  have hall : ∀ k ∈ TokenKind.all, isWord k.name = true := by decide +kernel
  exact hall k k.mem_all

/-- What a word is made of. -/
lemma marks_of_isWord {name : String} (h : isWord name = true) :
    (∃ c cs, name.toList = c :: cs ∧ c ≠ ' ') ∧ '\'' ∉ name.toList ∧ '\n' ∉ name.toList := by
  simp only [isWord, Bool.and_eq_true, Bool.not_eq_true', List.isEmpty_eq_false_iff,
    List.all_eq_true, bne_iff_ne] at h
  obtain ⟨hne, hall⟩ := h
  obtain ⟨c, cs, hname⟩ := List.exists_cons_of_ne_nil hne
  refine ⟨⟨c, cs, hname, (hall c (hname ▸ List.mem_cons_self)).1.1⟩, ?_, ?_⟩
  · exact fun hmem => (hall _ hmem).1.2 rfl
  · exact fun hmem => (hall _ hmem).2 rfl

/-- A line begins with a name, … -/
lemma exists_line_eq (e : DumpEntry) : ∃ c cs, e.line.toList = c :: cs ∧ c ≠ ' ' := by
  cases e with
  | node kind span =>
    obtain ⟨⟨c, cs, hname, hc⟩, -⟩ := marks_of_isWord (isWord_name_nodeKind kind).1
    exact ⟨c, _, by rw [toList_line_node, hname, List.cons_append], hc⟩
  | token t =>
    obtain ⟨⟨c, cs, hname, hc⟩, -⟩ := marks_of_isWord (isWord_name_tokenKind t.kind)
    exact ⟨c, _, by rw [toList_line_token, hname]; rfl, hc⟩

/-- … it holds no line end, … -/
lemma lineEnd_notMem_line (e : DumpEntry) : '\n' ∉ e.line.toList := by
  cases e with
  | node kind span =>
    obtain ⟨-, -, hname⟩ := marks_of_isWord (isWord_name_nodeKind kind).1
    rw [toList_line_node, List.mem_append, not_or]
    exact ⟨hname, notMem_parenthesized (by decide) (by decide)⟩
  | token t =>
    obtain ⟨-, -, hname⟩ := marks_of_isWord (isWord_name_tokenKind t.kind)
    have hspan : '\n' ∉ (parenthesized t.span).toList :=
      notMem_parenthesized (by decide) (by decide)
    simp [toList_line_token, hname, hspan, Text.lineEnd_notMem_escape]

/-- … and **entries are told by their lines.** -/
lemma line_injective : Function.Injective line := by
  have hquote (k : NodeKind) (s : Span) : '\'' ∉ (node k s).line.toList := by
    obtain ⟨-, hname, -⟩ := marks_of_isWord (isWord_name_nodeKind k).1
    rw [toList_line_node, List.mem_append, not_or]
    exact ⟨hname, notMem_parenthesized (by decide) (by decide)⟩
  have hmark (t : Token) : '\'' ∉ t.kind.name.toList ++ ['('] := by
    obtain ⟨-, hname, -⟩ := marks_of_isWord (isWord_name_tokenKind t.kind)
    simpa using hname
  have hbehind (t : Token) : '\'' ∉ ')' :: (parenthesized t.span).toList := by
    have hspan : '\'' ∉ (parenthesized t.span).toList :=
      notMem_parenthesized (by decide) (by decide)
    simpa using hspan
  have htoken (t : Token) : '\'' ∈ (token t).line.toList := by simp [toList_line_token]
  intro d e h
  have hlist := congrArg String.toList h
  cases d with
  | node k s =>
    cases e with
    | node k' s' =>
      rw [toList_line_node, toList_line_node, toList_parenthesized, toList_parenthesized] at hlist
      obtain ⟨hname, hspan⟩ := append_cons_inj_of_notMem (isWord_name_nodeKind k).2
        (isWord_name_nodeKind k').2 hlist
      obtain rfl := NodeKind.name_injective (String.toList_inj.1 hname)
      rw [← List.cons_inj_right '(', ← toList_parenthesized, ← toList_parenthesized] at hspan
      rw [parenthesized_injective (String.toList_inj.1 hspan)]
    | token t => exact absurd (hlist ▸ htoken t) (hquote k s)
  | token t =>
    cases e with
    | node k s => exact absurd (hlist ▸ htoken t) (hquote k s)
    | token u =>
      rw [toList_line_token, toList_line_token] at hlist
      obtain ⟨hname, hrest⟩ := append_cons_inj_of_notMem (hmark t) (hmark u) hlist
      obtain ⟨htext, hspan⟩ := append_cons_inj_of_notMem_right (hbehind t) (hbehind u) hrest
      obtain ⟨kind, text, span⟩ := t
      obtain ⟨kind', text', span'⟩ := u
      obtain rfl : kind = kind' :=
        TokenKind.name_injective (String.toList_inj.1 (List.append_cancel_right hname))
      obtain rfl : text = text' := Text.escape_injective (String.toList_inj.1 htext)
      obtain rfl : span = span' :=
        parenthesized_injective (String.toList_inj.1 (List.cons.inj hspan).2)
      rfl

/-- The spaces before a line tell its depth. -/
lemma indented_injective {d d' : Nat} {e e' : DumpEntry}
    (h : indentation d ++ e.line = indentation d' ++ e'.line) : d = d' ∧ e = e' := by
  have hspaces {n : Nat} {e : DumpEntry} :
      ((indentation n ++ e.line).toList.takeWhile (· == ' ')).length = 2 * n := by
    obtain ⟨c, cs, hline, hc⟩ := e.exists_line_eq
    rw [indentation, String.toList_append, String.toList_ofList, hline,
      List.takeWhile_append_of_pos (by simp), List.takeWhile_cons_of_neg (by simpa using hc)]
    simp
  have hdepth : 2 * d = 2 * d' := by rw [← hspaces, h, hspaces]
  obtain rfl : d = d' := by omega
  have hline := congrArg String.toList h
  rw [String.toList_append, String.toList_append] at hline
  exact ⟨rfl, line_injective (String.toList_inj.1 (List.append_cancel_left hline))⟩

end DumpEntry

/-! ## The entries of a tree -/

mutual

/-- **The entries of a tree** at a depth, each with its own. -/
def Node.entriesAt (depth : Nat) : Node → List (Nat × DumpEntry)
  | ⟨k, s, cs⟩ => (depth, .node k s) :: Element.entriesOfList (depth + 1) cs

/-- The entries of a list of children at a depth. -/
def Element.entriesOfList (depth : Nat) : List Element → List (Nat × DumpEntry)
  | [] => []
  | .token t :: cs =>
    if t.kind == .whitespace then Element.entriesOfList depth cs
    else (depth, .token t) :: Element.entriesOfList depth cs
  | .node n :: cs => Node.entriesAt depth n ++ Element.entriesOfList depth cs

end

mutual

/-- **A tree without its white space.** -/
def Node.unspaced : Node → Node
  | ⟨k, s, cs⟩ => ⟨k, s, Element.unspacedList cs⟩

/-- A list of children without the white space among and below them. -/
def Element.unspacedList : List Element → List Element
  | [] => []
  | .token t :: cs =>
    if t.kind == .whitespace then Element.unspacedList cs
    else .token t :: Element.unspacedList cs
  | .node n :: cs => .node n.unspaced :: Element.unspacedList cs

end

mutual

/-- The lines of a dump are those of its entries. -/
lemma Node.dumpLinesAt_eq (depth : Nat) :
    (n : Node) → n.dumpLinesAt depth =
      (n.entriesAt depth).map fun e => indentation e.1 ++ e.2.line
  | ⟨k, s, cs⟩ => by
    rw [Node.dumpLinesAt, Node.entriesAt, List.map_cons, Element.dumpLinesOfList_eq, DumpEntry.line,
      String.append_assoc]

lemma Element.dumpLinesOfList_eq (depth : Nat) :
    (cs : List Element) → Element.dumpLinesOfList depth cs =
      (Element.entriesOfList depth cs).map fun e => indentation e.1 ++ e.2.line
  | [] => rfl
  | .token t :: cs => by
    rw [Element.dumpLinesOfList, Element.entriesOfList, Element.dumpLinesOfList_eq depth cs]
    split <;> rfl
  | .node n :: cs => by
    rw [Element.dumpLinesOfList, Element.entriesOfList, List.map_append,
      Node.dumpLinesAt_eq depth n, Element.dumpLinesOfList_eq depth cs]

end

mutual

/-- There is an entry for each node and for each token that is no white space. -/
lemma Node.length_entriesAt (depth : Nat) :
    (n : Node) → (n.entriesAt depth).length =
      n.count + (n.leaves.filter (·.kind != .whitespace)).length
  | ⟨k, s, cs⟩ => by
    rw [Node.entriesAt, Node.count, Node.leaves, List.length_cons, Element.length_entriesOfList]
    omega

lemma Element.length_entriesOfList (depth : Nat) :
    (cs : List Element) → (Element.entriesOfList depth cs).length =
      Element.countOfList cs + ((Element.leavesOfList cs).filter (·.kind != .whitespace)).length
  | [] => rfl
  | .token t :: cs => by
    rw [Element.entriesOfList, Element.countOfList, Element.leavesOfList]
    split
    · next h =>
      rw [List.filter_cons_of_neg (by simpa using h), Element.length_entriesOfList depth cs]
    · next h =>
      rw [List.filter_cons_of_pos (by simpa using h), List.length_cons, List.length_cons,
        Element.length_entriesOfList depth cs]
      omega
  | .node n :: cs => by
    rw [Element.entriesOfList, Element.countOfList, Element.leavesOfList, List.filter_append,
      List.length_append, List.length_append, n.length_entriesAt depth,
      Element.length_entriesOfList depth cs]
    omega

end

/-! ### Where the entries below a node end -/

/-- What comes next, if anything does, is less deep. -/
def EndsBelow (depth : Nat) (rest : List (Nat × DumpEntry)) : Prop := ∀ e ∈ rest.head?, e.1 < depth

lemma not_endsBelow_cons (depth : Nat) (e : DumpEntry) (rest : List (Nat × DumpEntry)) :
    ¬EndsBelow depth ((depth, e) :: rest) := fun h => Nat.lt_irrefl depth (h (depth, e) rfl)

/-- The entries of a tree begin with its root. -/
lemma Node.exists_entriesAt_eq (n : Node) (depth : Nat) :
    ∃ es, n.entriesAt depth = (depth, .node n.kind n.span) :: es := by
  obtain ⟨k, s, cs⟩ := n
  exact ⟨_, rfl⟩

/-- **What a list of children begins with**, white space aside: nothing, a token, or a node. -/
lemma Element.begins_cases (cs : List Element) :
    (unspacedList cs = [] ∧ ∀ depth, entriesOfList depth cs = []) ∨
      (∃ t cs', unspacedList cs = .token t :: unspacedList cs' ∧
        ∀ depth, entriesOfList depth cs = (depth, .token t) :: entriesOfList depth cs') ∨
      ∃ n cs', unspacedList cs = .node (Node.unspaced n) :: unspacedList cs' ∧
        ∀ depth, entriesOfList depth cs = n.entriesAt depth ++ entriesOfList depth cs' := by
  induction cs with
  | nil => exact .inl ⟨rfl, fun _ => rfl⟩
  | cons c cs ih =>
    cases c with
    | token t =>
      by_cases h : t.kind == .whitespace
      · simpa only [unspacedList, entriesOfList, if_pos h] using ih
      · refine .inr (.inl ⟨t, cs, ?_, fun depth => ?_⟩)
        · rw [unspacedList, if_neg h]
        · rw [entriesOfList, if_neg h]
    | node n => exact .inr (.inr ⟨n, cs, rfl, fun _ => rfl⟩)

/-- The entries behind a node are no deeper than it is. -/
lemma Element.endsBelow_entriesOfList {depth : Nat} {rest : List (Nat × DumpEntry)}
    (h : EndsBelow depth rest) (cs : List Element) :
    EndsBelow (depth + 1) (entriesOfList depth cs ++ rest) := by
  obtain ⟨-, hcs⟩ | ⟨t, cs', -, hcs⟩ | ⟨n, cs', -, hcs⟩ := begins_cases cs
  · rw [hcs]
    exact fun e he => Nat.lt_succ_of_lt (h e he)
  · rw [hcs]
    rintro e ⟨⟩
    exact Nat.lt_succ_self depth
  · obtain ⟨es, hn⟩ := n.exists_entriesAt_eq depth
    rw [hcs, hn]
    rintro e ⟨⟩
    exact Nat.lt_succ_self depth

/-- Children behind which nothing is less deep, and before which nothing is as deep, are none. -/
lemma Element.eq_nil_of_endsBelow {cs : List Element} {depth : Nat} {rest : List (Nat × DumpEntry)}
    (h : EndsBelow depth (entriesOfList depth cs ++ rest)) :
    unspacedList cs = [] ∧ entriesOfList depth cs = [] := by
  obtain ⟨hnone, hcs⟩ | ⟨t, cs', -, hcs⟩ | ⟨n, cs', -, hcs⟩ := begins_cases cs
  · exact ⟨hnone, hcs depth⟩
  · rw [hcs] at h
    exact (not_endsBelow_cons _ _ _ h).elim
  · obtain ⟨es, hn⟩ := n.exists_entriesAt_eq depth
    rw [hcs, hn] at h
    exact (not_endsBelow_cons _ _ _ h).elim

mutual

/-- **Trees are told by their entries**, up to where what comes next is not below them.

**Proof sketch.** Induction on the first tree. The entries of both begin alike; those of the
children of the one end where those of the other do, for what comes next is less deep than they
are. -/
lemma Node.unspaced_eq_of_entriesAt :
    (m n : Node) → (depth : Nat) → (rest rest' : List (Nat × DumpEntry)) →
      m.entriesAt depth ++ rest = n.entriesAt depth ++ rest' →
      EndsBelow (depth + 1) rest → EndsBelow (depth + 1) rest' →
      m.unspaced = n.unspaced ∧ rest = rest'
  | ⟨k, s, cs⟩, ⟨l, t, ds⟩, depth, rest, rest', h, hrest, hrest' => by
    obtain ⟨hroot, hbelow⟩ := List.cons.inj h
    obtain ⟨rfl, rfl⟩ := DumpEntry.node.inj (Prod.mk.inj hroot).2
    obtain ⟨hcs, rfl⟩ :=
      Element.unspacedList_eq_of_entriesOfList cs ds (depth + 1) rest rest' hbelow hrest hrest'
    exact ⟨by rw [Node.unspaced, Node.unspaced, hcs], rfl⟩

lemma Element.unspacedList_eq_of_entriesOfList :
    (cs ds : List Element) → (depth : Nat) → (rest rest' : List (Nat × DumpEntry)) →
      Element.entriesOfList depth cs ++ rest = Element.entriesOfList depth ds ++ rest' →
      EndsBelow depth rest → EndsBelow depth rest' →
      Element.unspacedList cs = Element.unspacedList ds ∧ rest = rest'
  | [], ds, depth, rest, rest', h, hrest, _ => by
    change rest = _ at h
    obtain ⟨hds, hnone⟩ := Element.eq_nil_of_endsBelow (h ▸ hrest)
    rw [hnone] at h
    exact ⟨hds.symm, h⟩
  | .token t :: cs, ds, depth, rest, rest', h, hrest, hrest' => by
    by_cases ht : t.kind == .whitespace
    · rw [Element.entriesOfList, if_pos ht] at h
      rw [Element.unspacedList, if_pos ht]
      exact Element.unspacedList_eq_of_entriesOfList cs ds depth rest rest' h hrest hrest'
    rw [Element.entriesOfList, if_neg ht, List.cons_append] at h
    rw [Element.unspacedList, if_neg ht]
    obtain ⟨-, hds⟩ | ⟨u, ds', hunspaced, hds⟩ | ⟨n, ds', -, hds⟩ := Element.begins_cases ds
    · rw [hds, List.nil_append] at h
      exact (not_endsBelow_cons _ _ _ (h ▸ hrest')).elim
    · rw [hds, List.cons_append] at h
      obtain ⟨hfirst, hnext⟩ := List.cons.inj h
      obtain rfl := DumpEntry.token.inj (Prod.mk.inj hfirst).2
      obtain ⟨hcs, rfl⟩ :=
        Element.unspacedList_eq_of_entriesOfList cs ds' depth rest rest' hnext hrest hrest'
      exact ⟨by rw [hunspaced, hcs], rfl⟩
    · obtain ⟨es, hn⟩ := n.exists_entriesAt_eq depth
      rw [hds, hn] at h
      exact absurd (Prod.mk.inj (List.cons.inj h).1).2 nofun
  | .node m :: cs, ds, depth, rest, rest', h, hrest, hrest' => by
    obtain ⟨es, hm⟩ := m.exists_entriesAt_eq depth
    rw [Element.entriesOfList, List.append_assoc] at h
    rw [Element.unspacedList]
    obtain ⟨-, hds⟩ | ⟨u, ds', -, hds⟩ | ⟨n, ds', hunspaced, hds⟩ := Element.begins_cases ds
    · rw [hds, List.nil_append, hm] at h
      exact (not_endsBelow_cons _ _ _ (h ▸ hrest')).elim
    · rw [hds, hm] at h
      exact absurd (Prod.mk.inj (List.cons.inj h).1).2 nofun
    · rw [hds, List.append_assoc] at h
      obtain ⟨hnode, hnext⟩ := Node.unspaced_eq_of_entriesAt m n depth _ _ h
        (Element.endsBelow_entriesOfList hrest cs) (Element.endsBelow_entriesOfList hrest' ds')
      obtain ⟨hcs, rfl⟩ :=
        Element.unspacedList_eq_of_entriesOfList cs ds' depth rest rest' hnext hrest hrest'
      exact ⟨by rw [hunspaced, hnode, hcs], rfl⟩

end

mutual

/-- White space has no entries. -/
lemma Node.entriesAt_unspaced (depth : Nat) :
    (n : Node) → n.unspaced.entriesAt depth = n.entriesAt depth
  | ⟨k, s, cs⟩ => by
    rw [Node.unspaced, Node.entriesAt, Node.entriesAt, Element.entriesOfList_unspacedList]

lemma Element.entriesOfList_unspacedList (depth : Nat) :
    (cs : List Element) →
      Element.entriesOfList depth (Element.unspacedList cs) = Element.entriesOfList depth cs
  | [] => rfl
  | .token t :: cs => by
    rw [Element.unspacedList, Element.entriesOfList]
    split
    · exact Element.entriesOfList_unspacedList depth cs
    · next ht =>
      rw [Element.entriesOfList, if_neg ht, Element.entriesOfList_unspacedList depth cs]
  | .node n :: cs => by
    rw [Element.unspacedList, Element.entriesOfList, Element.entriesOfList,
      Node.entriesAt_unspaced depth n, Element.entriesOfList_unspacedList depth cs]

end

/-! ## Dumps -/

lemma Node.toList_dump (n : Node) :
    n.dump.toList = (n.dumpLines.map String.toList).flatMap (· ++ ['\n']) := by
  simp [dump, String.toList_join, List.flatMap_map]

/-- No line of a dump holds a line end. -/
lemma Node.lineEnd_notMem_dumpLines (n : Node) :
    ∀ l ∈ n.dumpLines.map String.toList, '\n' ∉ l := by
  rw [dumpLines, dumpLinesAt_eq, List.map_map]
  intro l hl
  obtain ⟨e, -, rfl⟩ := List.mem_map.1 hl
  simp [indentation, DumpEntry.lineEnd_notMem_line]

/-- Lines that hold no line end are as many as the line ends behind them. -/
lemma count_lineEnd_flatMap {ls : List (List Char)} (h : ∀ l ∈ ls, '\n' ∉ l) :
    (ls.flatMap (· ++ ['\n'])).count '\n' = ls.length := by
  induction ls with
  | nil => rfl
  | cons l ls ih =>
    rw [List.forall_mem_cons] at h
    rw [List.flatMap_cons, List.count_append, ih h.2, List.count_append,
      List.count_eq_zero_of_not_mem h.1, List.length_cons]
    simp [Nat.add_comm]

/-- The lines of a dump tell the entries. -/
lemma Node.entriesAt_eq_of_dump {m n : Node} (h : m.dump = n.dump) :
    m.entriesAt 0 = n.entriesAt 0 := by
  have hlist := congrArg String.toList h
  rw [toList_dump, toList_dump] at hlist
  have hlines : m.dumpLines = n.dumpLines :=
    List.map_injective_iff.2 (fun _ _ => String.toList_inj.1)
      (flatMap_ended_injective m.lineEnd_notMem_dumpLines n.lineEnd_notMem_dumpLines hlist)
  rw [dumpLines, dumpLines, dumpLinesAt_eq, dumpLinesAt_eq] at hlines
  refine List.map_injective_iff.2 (fun d e hde => ?_) hlines
  obtain ⟨hdepth, hentry⟩ := DumpEntry.indented_injective hde
  exact Prod.ext hdepth hentry

/-- **Dumps are legible.** Two trees have one dump if and only if they are the same but for white
space, down to the spans of nodes and the texts and spans of tokens; and a dump is made up of lines,
one for each node and one for each token that is no white space, the last one ended as well.

**Proof sketch.** No line holds a line end, so that the lines can be told; each line tells its entry
and its depth, and the entries with their depths tell the tree. -/
theorem Node.dump_legible :
    (∀ m n : Node, m.dump = n.dump ↔ m.unspaced = n.unspaced) ∧
      ∀ n : Node,
        n.dump.toList.count '\n' =
          n.count + (n.leaves.filter (·.kind != .whitespace)).length ∧
        n.dump.toList.getLast? = some '\n' := by
  refine ⟨fun m n => ⟨fun h => ?_, fun h => ?_⟩, fun n => ⟨?_, ?_⟩⟩
  · have hentries := congrArg (· ++ []) (entriesAt_eq_of_dump h)
    exact (unspaced_eq_of_entriesAt m n 0 [] [] hentries nofun nofun).1
  · rw [dump, dump, dumpLines, dumpLines, dumpLinesAt_eq, dumpLinesAt_eq, ← entriesAt_unspaced 0 m,
      ← entriesAt_unspaced 0 n, h]
  · rw [toList_dump, count_lineEnd_flatMap n.lineEnd_notMem_dumpLines, List.length_map, dumpLines,
      dumpLinesAt_eq, List.length_map, length_entriesAt]
  · obtain ⟨es, hn⟩ := n.exists_entriesAt_eq 0
    have hne : n.dumpLines ≠ [] := by
      rw [dumpLines, dumpLinesAt_eq, hn]
      exact List.cons_ne_nil _ _
    obtain ⟨ls, l, hl⟩ := (List.eq_nil_or_concat n.dumpLines).resolve_left hne
    rw [toList_dump, hl]
    simp

end TxTree
