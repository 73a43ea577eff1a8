import TxTree.Proofs.Forms
import TxTree.Proofs.Placement

set_option relaxedAutoImplicit false
set_option autoImplicit false

/-!
# Strings and comments without their closing mark

A token is looked at twice for its closing mark: when it is cut out of its text, and again when it
reaches the tree. Both find the same. The second time only its own characters are seen, but a
comment that is cut off at the end of the text has no mark, and of the quotes in a string the only
one that no backslash takes with it is the last character.

Every token reaches the tree once, and nothing but a token without its mark is reported in the
words that are used for these; so there is just one such report for each.

## Main definitions

* `TxTree.Escapes` — whether the character behind some others is escaped.
* `TxTree.HasClosingQuote` — whether there is a quote that is not.
* `TxTree.Diagnostic.isAboutMark` — whether a finding is about a missing mark, by what it says.
* `TxTree.Grammar.Rule.reportsOnly` — what a rule reports.
* `TxTree.Grammar.Gathering.marks` — the findings about missing marks, made and to come.

## Main results

* `TxTree.isUnterminated_string`, `TxTree.isUnterminated_comment` — a string and a comment tell
  whether their marks are missing.
* `TxTree.Grammar.Derives.marks` — the findings about missing marks, made and to come, stay the
  same.
* `TxTree.parse_unterminated` — the tokens of a text without their marks, and what is reported of
  them.
-/

namespace TxTree

open Scan

/-! ## Quotes and backslashes -/

/-- **Whether the character behind some others is escaped**: an odd number of backslashes stands
right before it. -/
def Escapes (before : List Char) : Prop := (before.rtakeWhile (· == '\\')).length % 2 = 1

/-- **Whether there is a quote that is not escaped.** -/
def HasClosingQuote (cs : List Char) : Prop :=
  ∃ before after, cs = before ++ '"' :: after ∧ ¬Escapes before

lemma not_escapes_nil : ¬Escapes [] := by
  simp [Escapes]

/-- A backslash that is not escaped itself escapes the next character. -/
lemma escapes_snoc_iff {cs : List Char} {c : Char} :
    Escapes (cs ++ [c]) ↔ c = '\\' ∧ ¬Escapes cs := by
  by_cases hc : c = '\\'
  · subst hc
    have hrun : (cs ++ ['\\']).rtakeWhile (· == '\\') = cs.rtakeWhile (· == '\\') ++ ['\\'] :=
      List.rtakeWhile_concat_pos _ _ _ (by simp)
    rw [Escapes, Escapes, hrun, List.length_append, List.length_singleton, eq_self, true_and]
    omega
  · have hrun : (cs ++ [c]).rtakeWhile (· == '\\') = [] :=
      List.rtakeWhile_concat_neg _ _ _ (by simpa using hc)
    simp [Escapes, hrun, hc]

/-- Characters that escape nothing behind them make no difference. -/
lemma escapes_append_iff {before cs : List Char} (h : ¬Escapes before) :
    Escapes (before ++ cs) ↔ Escapes cs := by
  induction cs using List.reverseRecOn with
  | nil => simp [h, not_escapes_nil]
  | append_singleton cs c ih => rw [← List.append_assoc, escapes_snoc_iff, escapes_snoc_iff, ih]

/-- Neither does a character that is no quote and escapes nothing, … -/
lemma hasClosingQuote_cons_iff {c : Char} {cs : List Char} (hquote : c ≠ '"') (hslash : c ≠ '\\') :
    HasClosingQuote (c :: cs) ↔ HasClosingQuote cs := by
  have hc : ¬Escapes [c] := fun h => hslash ((@escapes_snoc_iff [] c).1 h).1
  constructor
  · rintro ⟨before, after, heq, hbefore⟩
    cases before with
    | nil => exact absurd (List.cons.inj heq).1 hquote
    | cons d before =>
      obtain ⟨rfl, rfl⟩ := List.cons.inj heq
      exact ⟨before, after, rfl, fun h => hbefore ((escapes_append_iff hc).2 h)⟩
  · rintro ⟨before, after, rfl, hbefore⟩
    exact ⟨c :: before, after, rfl, fun h => hbefore ((escapes_append_iff hc).1 h)⟩

/-- … and neither do a backslash and the character that it takes with it. -/
lemma hasClosingQuote_escape_iff {c : Char} {cs : List Char} :
    HasClosingQuote ('\\' :: c :: cs) ↔ HasClosingQuote cs := by
  have hslash : Escapes ['\\'] := (@escapes_snoc_iff [] '\\').2 ⟨rfl, not_escapes_nil⟩
  have hc : ¬Escapes ['\\', c] := fun h => ((@escapes_snoc_iff ['\\'] c).1 h).2 hslash
  constructor
  · rintro ⟨before, after, heq, hbefore⟩
    match before with
    | [] => cases heq
    | [d] =>
      obtain ⟨rfl, -⟩ := List.cons.inj heq
      exact absurd hslash hbefore
    | d :: e :: before =>
      obtain ⟨rfl, htail⟩ := List.cons.inj heq
      obtain ⟨rfl, rfl⟩ := List.cons.inj htail
      exact ⟨before, after, rfl, fun h => hbefore ((escapes_append_iff hc).2 h)⟩
  · rintro ⟨before, after, rfl, hbefore⟩
    exact ⟨'\\' :: c :: before, after, rfl, fun h => hbefore ((escapes_append_iff hc).1 h)⟩

namespace StringBody

variable {body : List Char}

/-- What stands between quotes holds none that is not escaped. -/
lemma hasClosingQuote_append_iff (h : StringBody body) (rest : List Char) :
    HasClosingQuote (body ++ rest) ↔ HasClosingQuote rest := by
  induction h with
  | nil => exact Iff.rfl
  | plain hquote hslash _ _ ih => exact (hasClosingQuote_cons_iff hquote hslash).trans ih
  | escape _ _ ih => exact hasClosingQuote_escape_iff.trans ih

/-- What stands between quotes is passed over in the search for the one that closes them. -/
lemma closesQuote_append (h : StringBody body) (rest : List Char) :
    Token.closesQuote (body ++ rest) = Token.closesQuote rest := by
  induction h with
  | nil => rfl
  | @plain c cs hquote hslash _ _ ih =>
    rw [List.cons_append, Token.closesQuote]
    · exact ih
    · exact fun h => absurd h hslash
    · exact fun _ _ h => absurd h hslash
    · exact hquote
  | escape _ _ ih =>
    rw [List.cons_append, List.cons_append, Token.closesQuote]
    exact ih

end StringBody

/-! ## Tokens -/

/-- Nothing, and a backslash alone, hold no quote. -/
lemma not_hasClosingQuote {slash : List Char} (h : slash = [] ∨ slash = ['\\']) :
    ¬HasClosingQuote slash := by
  rintro ⟨before, after, heq, -⟩
  have hmem : '"' ∈ slash := by rw [heq]; simp
  rcases h with rfl | rfl <;> simp at hmem

/-- A string that ends with its body, but for a backslash before the end of the line, is open. -/
lemma stringLength_of_slash {slash after : List Char} (hslash : slash = [] ∨ slash = ['\\'])
    (hline : ∀ c ∈ after.head?, c = '\n') : (stringLength (slash ++ after)).1 = false := by
  cases after with
  | nil => rcases hslash with rfl | rfl <;> rfl
  | cons c after =>
    obtain rfl : c = '\n' := hline c rfl
    rcases hslash with rfl | rfl <;> rfl

/-- **A string tells whether its closing quote is missing**: it is, just if no quote in it but the
first is free of a backslash, and just if it was read up to the end of the line.

**Proof sketch.** The body of a string holds no such quote and closes nothing, whoever reads it.
What follows the body is the closing quote, or nothing but perhaps a last backslash. -/
lemma isUnterminated_string {t : Token} {after : List Char} (hkind : t.kind = .stringLiteral)
    (h : LexicalForm t.kind t.text.toList after) :
    (t.isUnterminated = true ↔ ¬HasClosingQuote (t.text.toList.drop 1)) ∧
      (t.isUnterminated = true ↔ (stringLength ((t.text.toList ++ after).drop 1)).1 = false) ∧
      (t.isUnterminated = true → ∀ c ∈ after.head?, c = '\n') := by
  have hmark : t.isUnterminated = !Token.closesQuote (t.text.toList.drop 1) := by
    rw [Token.isUnterminated, hkind]
  rw [hmark]
  rw [hkind] at h
  generalize t.text.toList = word at h
  cases h with
  | keyword hkeyword => cases hkeyword
  | symbol hsymbol => cases hsymbol
  | @stringLiteral body _ hbody =>
    have hquote : HasClosingQuote ['"'] := ⟨[], [], rfl, not_escapes_nil⟩
    simp only [List.drop_one, List.tail_cons, List.cons_append, List.append_assoc,
      hbody.closesQuote_append, hbody.hasClosingQuote_append_iff, closed_append hbody]
    simp [Token.closesQuote, stringLength, hquote]
  | @openString body slash _ hbody hslash hline =>
    have hread : Token.closesQuote slash = false := by rcases hslash with rfl | rfl <;> rfl
    simp only [List.drop_one, List.tail_cons, List.cons_append, List.append_assoc,
      hbody.closesQuote_append, hbody.hasClosingQuote_append_iff, closed_append hbody, hread,
      not_hasClosingQuote hslash, stringLength_of_slash hslash hline]
    exact ⟨by simp, by simp, fun _ => hline⟩

/-- **A comment tells whether its closing mark is missing**: it is, just if there is none behind its
opening mark in all the rest of the text.

**Proof sketch.** A comment without the mark goes on to the end of the text. It could end with the
characters of the mark only if these were, in part, those of its opening mark; and then it is too
short. -/
lemma isUnterminated_comment {t : Token} {after : List Char} (hkind : t.kind = .blockComment)
    (h : LexicalForm t.kind t.text.toList after) :
    t.isUnterminated = true ↔ ¬closingMark <:+: (t.text.toList ++ after).drop 2 := by
  have hmark : t.isUnterminated = true ↔
      t.text.utf8ByteSize < 4 ∨ ¬closingMark <:+ t.text.toList := by
    simp [Token.isUnterminated, hkind, closingMark, ← List.isSuffixOf_iff_suffix]
  rw [hmark]
  rw [hkind] at h
  have htext : t.text = String.ofList t.text.toList := String.ofList_toList.symm
  generalize t.text.toList = word at h htext
  rw [htext]
  cases h with
  | keyword hkeyword => cases hkeyword
  | symbol hsymbol => cases hsymbol
  | @blockComment inner _ hinner =>
    have hsize : (String.ofList ('/' :: '*' :: (inner ++ closingMark))).utf8ByteSize =
        2 + ((String.ofList inner).utf8ByteSize + 2) := by
      have hmarks := byteSize_append ['/', '*'] (inner ++ closingMark)
      rwa [byteSize_append inner] at hmarks
    have hends : closingMark <:+ '/' :: '*' :: (inner ++ closingMark) := ⟨'/' :: '*' :: inner, rfl⟩
    have hbehind : closingMark <:+: inner ++ closingMark ++ after := ⟨inner, after, rfl⟩
    refine iff_of_false ?_ (not_not_intro hbehind)
    rintro (hshort | hopen)
    · omega
    · exact hopen hends
  | @openComment inner hinner =>
    have hnone : ¬closingMark <:+: inner ++ [] := by rwa [List.append_nil]
    refine iff_of_true ?_ hnone
    by_contra! hclosed
    obtain ⟨hsize, hends⟩ := hclosed
    rcases List.suffix_cons_iff.1 hends with hall | hends
    · cases hall
    rcases List.suffix_cons_iff.1 hends with hall | hends
    · -- The star is that of the opening mark.
      cases hall
      exact absurd hsize (by decide)
    · exact hinner hends.isInfix

/-! ## Findings about missing marks -/

/-- Whether a message is the one about a string or a comment without its closing mark. -/
def isMarkMessage (message : String) : Bool :=
  message == "Unterminated string literal" || message == "Unterminated block comment"

/-- **Whether a finding is about a missing mark**, by what it says. -/
def Diagnostic.isAboutMark (d : Diagnostic) : Bool := isMarkMessage d.message

namespace Grammar

/-- **Whether a rule reports only** what passes a test, nesting levels apart. -/
def Rule.reportsOnly (p : String → Bool) : Rule → Bool
  | .done | .bump | .skip => true
  | .report message => p message
  | .seq first second => first.reportsOnly p && second.reportsOnly p
  | .node _ body | .mark body | .wrap _ body | .loop _ body => body.reportsOnly p
  | .branch _ yes no => yes.reportsOnly p && no.reportsOnly p
  | .nest _ otherwise => otherwise.reportsOnly p

/-- No rule of a nesting level reports a missing mark. -/
lemma reportsOnly_nested (level : Nesting) :
    (nested level).reportsOnly (!isMarkMessage ·) = true := by
  cases level <;> decide +kernel

/-- Neither does the rule of a file. -/
lemma reportsOnly_file : file.reportsOnly (!isMarkMessage ·) = true := by
  decide +kernel

/-- What is amiss with a token is that its mark is missing. -/
lemma isAboutMark_of_mem_complaints {t : Token} :
    ∀ d ∈ complaints t, d.isAboutMark = true := by
  intro d hd
  unfold complaints at hd
  split at hd
  · rw [List.mem_singleton.1 hd]
    obtain ⟨kind, text, span⟩ := t
    cases kind <;> rfl
  · cases hd

/-- All that is amiss with some tokens is about missing marks. -/
lemma filter_complaints (ts : List Token) :
    (ts.flatMap complaints).filter (·.isAboutMark) = ts.flatMap complaints := by
  refine List.filter_eq_self.2 fun d hd => ?_
  obtain ⟨t, -, hd⟩ := List.mem_flatMap.1 hd
  exact isAboutMark_of_mem_complaints d hd

namespace Gathering

/-- **The findings about missing marks**: those made, and those that the tokens to come bring. -/
def marks (g : Gathering) : List Diagnostic :=
  g.diagnostics.filter (·.isAboutMark) ++ g.ahead.flatMap complaints

variable (g : Gathering)

@[simp] lemma marks_flush : g.flush.marks = g.marks := by
  rw [marks, marks, flush_diagnostics, flush_ahead, List.filter_append, filter_complaints,
    List.append_assoc, ← List.flatMap_append, takeWhile_append_significant]

@[simp] lemma marks_bump : g.bump.marks = g.marks := by
  cases h : significant g.ahead with
  | nil => rw [bump_of_nil h]
  | cons t rest =>
    have hnext : (complaints t).filter (·.isAboutMark) = complaints t :=
      List.filter_eq_self.2 isAboutMark_of_mem_complaints
    rw [bump_of_cons h, ← marks_flush g, marks, marks, flush_ahead, h]
    simp only [attach, List.filter_append, hnext, List.flatMap_cons, List.append_assoc]

/-- A report of something else is no finding about a missing mark. -/
lemma marks_report {message : String} (h : (!isMarkMessage message) = true) :
    (g.report message).marks = g.marks := by
  have hother : isMarkMessage message = false := by simpa using h
  simp [marks, report, Diagnostic.isAboutMark, Diagnostic.error, hother]

@[simp] lemma marks_skip : g.skip.marks = g.marks := by
  rw [skip]
  cases g.lookahead.first with
  | none => rfl
  | some k => exact (marks_bump g.flush.fresh).trans (marks_flush g)

@[simp] lemma marks_progress (cursor : Nat) : (g.progress cursor).marks = g.marks := by
  rw [progress]
  split
  · exact marks_skip g
  · rfl

end Gathering

/-- **The findings about missing marks, made and to come, stay the same**, if no rule reports one.

**Proof sketch.** Induction on the derivation. Only the moves that take tokens matter, and what is
amiss with a token is found when it is taken. -/
theorem Derives.marks {rules : Nesting → Rule} {room : Nat} {r : Rule} {g g' : Gathering}
    (hrules : ∀ level, (rules level).reportsOnly (!isMarkMessage ·) = true)
    (h : Derives rules room r g g') (hr : r.reportsOnly (!isMarkMessage ·) = true) :
    g'.marks = g.marks := by
  induction h with
  | done => rfl
  | seq _ _ ih₁ ih₂ =>
    obtain ⟨hfirst, hsecond⟩ := Bool.and_eq_true_iff.1 hr
    exact (ih₂ hsecond).trans (ih₁ hfirst)
  | bump => exact Gathering.marks_bump _
  | skip => exact Gathering.marks_skip _
  | report => exact Gathering.marks_report _ hr
  | node _ ih => exact (ih hr).trans (Gathering.marks_flush _)
  | mark _ ih => exact (ih hr).trans (Gathering.marks_flush _)
  | wrap _ ih => exact ih hr
  | yes _ _ ih => exact ih (Bool.and_eq_true_iff.1 hr).1
  | no _ _ ih => exact ih (Bool.and_eq_true_iff.1 hr).2
  | stop => rfl
  | step _ _ _ ih₁ ih₂ => exact (ih₂ hr).trans ((Gathering.marks_progress _ _).trans (ih₁ hr))
  | nest _ ih => exact ih (hrules _)
  | full _ ih => exact (ih hr).trans (Gathering.marks_report _ (by decide))

/-- In the end all of them are made. -/
lemma Gathering.filter_finish (g : Gathering) :
    g.finish.diagnostics.filter (·.isAboutMark) = g.marks := by
  rw [finish, attachAll_diagnostics, List.filter_append, filter_complaints, marks]

end Grammar

open Grammar

/-- The finding about a token without its closing mark. -/
def Token.markFinding (t : Token) : Diagnostic :=
  .error t.span (State.unterminatedMessage t.kind)

/-- What is amiss with some tokens is that some of them lack their closing marks. -/
lemma flatMap_complaints (ts : List Token) :
    ts.flatMap complaints = (ts.filter (·.isUnterminated)).map (·.markFinding) := by
  induction ts with
  | nil => rfl
  | cons t ts ih =>
    rw [List.flatMap_cons, ih, complaints]
    by_cases h : t.isUnterminated = true
    · rw [if_pos h, List.filter_cons_of_pos h]
      rfl
    · rw [if_neg h, List.filter_cons_of_neg h]
      rfl

/-- **Missing closing marks are recognised and reported once each.** A string literal lacks its mark
just if it has no quote behind the opening one that is not escaped, that is, if it was read up to
the end of its line; a block comment lacks it just if no closing mark follows its opening one in the
text; and no other token has one to lack. The diagnostics that speak of missing marks are those of
these tokens, in order, each at its own token. -/
theorem parse_unterminated (text : String) :
    (∀ t ∈ tokenize text, ∃ before after : List Char,
      text.toList = before ++ t.text.toList ++ after ∧
        t.span.start = (String.ofList before).utf8ByteSize ∧
        (t.kind = .stringLiteral →
          (t.isUnterminated = true ↔ ¬HasClosingQuote (t.text.toList.drop 1)) ∧
            (t.isUnterminated = true ↔
              (stringLength ((t.text.toList ++ after).drop 1)).1 = false) ∧
            (t.isUnterminated = true → ∀ c ∈ after.head?, c = '\n')) ∧
        (t.kind = .blockComment →
          (t.isUnterminated = true ↔ ¬closingMark <:+: (t.text.toList ++ after).drop 2)) ∧
        (t.kind ≠ .stringLiteral → t.kind ≠ .blockComment → t.isUnterminated = false)) ∧
      (parse text).diagnostics.filter (·.isAboutMark) =
        ((tokenize text).filter (·.isUnterminated)).map (·.markFinding) ∧
      ((tokenize text).filter (·.isUnterminated)).Pairwise fun t u =>
        t.span.start < u.span.start := by
  have hascending : ((tokenize text).filter (·.isUnterminated)).Pairwise fun t u =>
      t.span.start < u.span.start :=
    (tiles_tokenize text).pairwise_start_lt.filter _
  refine ⟨fun t ht => ?_, ?_, hascending⟩
  · obtain ⟨before, after, htext, hstart, hform⟩ := lexicalForm_of_mem_tokensFrom [] rfl t ht
    exact ⟨before, after, htext, hstart, fun hkind => isUnterminated_string hkind hform,
      fun hkind => isUnterminated_comment hkind hform, Token.isUnterminated_eq_false⟩
  · obtain ⟨g, hg, -, -⟩ := exists_derives_file (tokenize text)
    have hmade : g.finish.diagnostics.filter (·.isAboutMark) =
        ((tokenize text).filter (·.isUnterminated)).map (·.markFinding) := by
      rw [Gathering.filter_finish, hg.marks reportsOnly_nested reportsOnly_file,
        ← flatMap_complaints]
      rfl
    have hsorted : Diagnostic.sort (((tokenize text).filter (·.isUnterminated)).map
        (·.markFinding)) = ((tokenize text).filter (·.isUnterminated)).map (·.markFinding) := by
      refine List.mergeSort_of_pairwise (List.pairwise_map.2 (hascending.imp fun hlt => ?_))
      exact decide_eq_true hlt.le
    change ((parseTokens (tokenize text)).2).filter _ = _
    rw [parseTokens_eq hg, Diagnostic.filter_sort, hmade, hsorted]

/-- The last quote of a string is escaped, and the star of a comment is that of its opening mark:
both lack their closing marks, and this is all that is reported of marks. -/
theorem parse_unterminated_escaped_quote :
    .ofText .stringLiteral "\"a\\\"" 0 ∈ tokenize "\"a\\\"\n/*/" ∧
      ¬HasClosingQuote ['a', '\\', '"'] ∧
      .ofText .blockComment "/*/" 5 ∈ tokenize "\"a\\\"\n/*/" ∧
      (parse "\"a\\\"\n/*/").diagnostics.filter (·.isAboutMark) =
        [.error ⟨0, 4⟩ "Unterminated string literal",
          .error ⟨5, 8⟩ "Unterminated block comment"] := by
  have hstring : Token.ofText .stringLiteral "\"a\\\"" 0 ∈ tokenize "\"a\\\"\n/*/" := by
    decide +kernel
  have hcomment : Token.ofText .blockComment "/*/" 5 ∈ tokenize "\"a\\\"\n/*/" := by
    decide +kernel
  obtain ⟨htokens, hfound, -⟩ := parse_unterminated "\"a\\\"\n/*/"
  obtain ⟨_, _, -, -, hopen, -, -⟩ := htokens _ hstring
  refine ⟨hstring, (hopen rfl).1.1 (by decide), hcomment, ?_⟩
  rw [hfound]
  decide +kernel

end TxTree
