import TxTree.Proofs.Derivation

set_option relaxedAutoImplicit false
set_option autoImplicit false

/-!
# Sparing the words that open declarations

A rule is sparing if it takes tokens of given kinds only, and if it sees no difference between the
end of the stream and a word that opens a declaration, nor between a token that ends a declaration
at the end of the stream and elsewhere. Both are read off the rule: what may come next is followed
from token to token, and at every place where a token is taken, a choice is made or a loop goes
round, the condition is on what may come next there.

## Main definitions

* `TxTree.Grammar.Lookahead.Continued` — what comes next if a declaration follows the stream.
* `TxTree.Grammar.Rule.after` — what may come next after a rule.
* `TxTree.Grammar.Rule.Spares` — whether a rule is sparing.
* `TxTree.Grammar.Nesting.Entry` — what comes next where a nesting level is entered.

## Main results

* `TxTree.Grammar.Rule.Spares.mono` — a sparing rule stays so where more is known of what comes
  next.
* `TxTree.Grammar.Derives.after` — what comes next after a rule is among what may.
-/

namespace TxTree.Grammar

/-! ## What may come next -/

/-- The tokens that a declaration without errors ends with. -/
def closers : List TokenKind := [.semicolon, .rBrace]

/-- What comes next if a stream goes on behind its end. If it goes on with a declaration, the word
that opens it stands where nothing stood, unless that is more than one token further on; and
anything may follow a token that ends a declaration. -/
inductive Lookahead.Continued : Lookahead → Lookahead → Prop where
  | same (l : Lookahead) : Continued l l
  | last {first word : TokenKind} : word.isHardDeclarationKeyword = true →
    Continued ⟨some first, none⟩ ⟨some first, some word⟩
  | beyond {word : TokenKind} {second : Option TokenKind} : word.isHardDeclarationKeyword = true →
    Continued ⟨none, none⟩ ⟨some word, second⟩
  | closed {first second : TokenKind} : first ∈ closers →
    Continued ⟨some first, none⟩ ⟨some first, some second⟩

/-- The rule that a choice comes to, by what comes next. -/
def Rule.resolve (l : Lookahead) : Rule → Rule
  | .branch test yes no => if test l then yes.resolve l else no.resolve l
  | r => r

/-- What may come next after a rule, if `P` holds of what comes next before it. -/
def Rule.after : Rule → (P : Lookahead → Prop) → Lookahead → Prop
  | .done, P | .report _, P => P
  | .bump, P | .skip, P => fun l => ∃ l₀, P l₀ ∧ l.first = l₀.second
  | .seq first second, P => second.after (first.after P)
  | .node _ body, P | .mark body, P | .wrap _ body, P => body.after P
  | .branch test yes no, P => fun l =>
    yes.after (fun l => P l ∧ test l = true) l ∨ no.after (fun l => P l ∧ test l = false) l
  | .loop stop _, _ => fun l => stop l = true
  | .nest _ _, _ => fun _ => True

/-- What comes next where a nesting level is entered. -/
def Nesting.Entry : Nesting → Lookahead → Prop
  | .expression, _ | .type, _ => True
  | .signed, l => l.first = some .bang ∨ l.first = some .minus
  | .suffixed, l => l.first = some .dot ∨ l.first = some .lBracket
  | .array, l => l.first = some .lBracket ∧ l.second = some .rBracket

/-- The next token is there, and of a kind that may be taken. -/
def Lookahead.Allows (ok : TokenKind → Prop) (l : Lookahead) : Prop :=
  ∃ kind, l.first = some kind ∧ ok kind

/-- **Sparing rules**: where `P` holds of what comes next, the rule takes only tokens of the kinds
`ok`, and every choice and every loop in it goes the same way at the end of the stream and before
what may follow there. -/
def Rule.Spares (ok : TokenKind → Prop) : Rule → (P : Lookahead → Prop) → Prop
  | .done, _ | .report _, _ => True
  | .bump, P | .skip, P => ∀ l, P l → l.Allows ok
  | .seq first second, P => first.Spares ok P ∧ second.Spares ok (first.after P)
  | .node _ body, P | .mark body, P | .wrap _ body, P => body.Spares ok P
  | .branch test yes no, P =>
    (∀ l m, P l → l.Continued m →
      (Rule.branch test yes no).resolve l = (Rule.branch test yes no).resolve m) ∧
      yes.Spares ok (fun l => P l ∧ test l = true) ∧ no.Spares ok (fun l => P l ∧ test l = false)
  | .loop stop body, _ =>
    (∀ l m : Lookahead, l.Continued m → stop l = stop m) ∧
      (∀ l : Lookahead, stop l = false → l.Allows ok) ∧ body.Spares ok (fun l => stop l = false)
  | .nest level otherwise, P => (∀ l, P l → level.Entry l) ∧ otherwise.Spares ok P

/-- The kinds that are no words that open a declaration. -/
def Soft (kind : TokenKind) : Prop := kind.isHardDeclarationKeyword = false

/-- Rules that spare the words that open declarations, whatever comes next. -/
def Rule.Sparing (r : Rule) : Prop := r.Spares Soft fun _ => True

/-! ## General laws -/

/-- If less may come next before a rule, less may come next after it. -/
lemma Rule.after_mono {r : Rule} {P Q : Lookahead → Prop} (h : ∀ l, P l → Q l) {l : Lookahead}
    (hl : r.after P l) : r.after Q l := by
  induction r generalizing P Q l with
  | done | report => exact h l hl
  | bump | skip =>
    obtain ⟨l₀, hP, he⟩ := hl
    exact ⟨l₀, h l₀ hP, he⟩
  | seq first second ih₁ ih₂ => exact ih₂ (fun _ => ih₁ h) hl
  | node kind body ih | wrap kind body ih => exact ih h hl
  | mark body ih => exact ih h hl
  | branch test yes no ih₁ ih₂ =>
    rcases hl with hl | hl
    · exact .inl (ih₁ (fun l hP => ⟨h l hP.1, hP.2⟩) hl)
    · exact .inr (ih₂ (fun l hP => ⟨h l hP.1, hP.2⟩) hl)
  | loop | nest => exact hl

/-- A rule that is sparing where more may come next, and takes less, is sparing. -/
lemma Rule.Spares.mono {ok ok' : TokenKind → Prop} {r : Rule} {P Q : Lookahead → Prop}
    (hr : r.Spares ok Q) (hok : ∀ kind, ok kind → ok' kind) (h : ∀ l, P l → Q l) :
    r.Spares ok' P := by
  have hallows (l : Lookahead) : l.Allows ok → l.Allows ok' := by
    rintro ⟨kind, hfirst, hkind⟩
    exact ⟨kind, hfirst, hok kind hkind⟩
  induction r generalizing P Q with
  | done | report => trivial
  | bump | skip => exact fun l hP => hallows l (hr l (h l hP))
  | seq first second ih₁ ih₂ => exact ⟨ih₁ hr.1 h, ih₂ hr.2 fun _ => after_mono h⟩
  | node kind body ih | wrap kind body ih => exact ih hr h
  | mark body ih => exact ih hr h
  | branch test yes no ih₁ ih₂ =>
    obtain ⟨hsame, hyes, hno⟩ := hr
    refine ⟨fun l m hP => hsame l m (h l hP), ih₁ hyes ?_, ih₂ hno ?_⟩
    · exact fun l hP => ⟨h l hP.1, hP.2⟩
    · exact fun l hP => ⟨h l hP.1, hP.2⟩
  | loop stop body ih =>
    obtain ⟨hsame, htake, hbody⟩ := hr
    exact ⟨hsame, fun l hl => hallows l (htake l hl), ih hbody fun _ => id⟩
  | nest level otherwise ih => exact ⟨fun l hP => hr.1 l (h l hP), ih hr.2 h⟩

/-- A sparing rule is sparing whatever is known of what comes next. -/
lemma Rule.Sparing.spares {r : Rule} (hr : r.Sparing) (P : Lookahead → Prop) :
    r.Spares Soft P :=
  hr.mono (fun _ => id) fun _ _ => trivial

/-- A sparing rule comes to the same choice at the end and before a declaration. -/
lemma Rule.Spares.resolve_eq {ok : TokenKind → Prop} {r : Rule} {P : Lookahead → Prop}
    (hr : r.Spares ok P) {l m : Lookahead} (hP : P l) (h : l.Continued m) :
    r.resolve l = r.resolve m := by
  cases r with
  | branch test yes no => exact hr.1 l m hP h
  | _ => rfl

/-- **What comes next after a rule is among what may.**

**Proof sketch.** Induction on the derivation. Only the moves that take a token change what comes
next, to what came after it. -/
theorem Derives.after {rules : Nesting → Rule} {room : Nat} {r : Rule} {g g' : Gathering}
    (h : Derives rules room r g g') {P : Lookahead → Prop} (hP : P g.lookahead) :
    r.after P g'.lookahead := by
  induction h generalizing P with
  | done => exact hP
  | seq _ _ ih₁ ih₂ => exact ih₂ (ih₁ hP)
  | bump => exact ⟨_, hP, Gathering.lookahead_bump_first⟩
  | skip => exact ⟨_, hP, Gathering.lookahead_skip_first⟩
  | report => exact hP
  | node _ ih => exact ih (by simpa using hP)
  | mark _ ih => exact ih (by simpa using hP)
  | wrap _ ih => exact ih hP
  | yes htest _ ih => exact .inl (ih ⟨hP, htest⟩)
  | no htest _ ih => exact .inr (ih ⟨hP, htest⟩)
  | stop hstop => exact hstop
  | step _ _ h _ _ => exact h.stop_of_loop
  | nest => trivial
  | full => trivial

/-! ## Tests that see no declaration -/

/-- The words that open a declaration and are never names. -/
def hardWords : List TokenKind := [.partyKw, .policyKw, .recordKw, .typeKw, .txKw]

lemma mem_hardWords_iff {word : TokenKind} :
    word ∈ hardWords ↔ word.isHardDeclarationKeyword = true := by
  cases word <;> decide

/-- Other words are other kinds. -/
lemma beq_eq_false_of_mem_hardWords {kind : TokenKind} (hkind : kind ∉ hardWords) (word : TokenKind)
    (hword : word ∈ hardWords) : (word == kind) = false := by
  rw [beq_eq_false_iff_ne]
  rintro rfl
  exact hkind hword

/-- A test is blind if it goes the same way at the end of the stream and before what may follow
there. -/
def Lookahead.Blind (test : Lookahead → Bool) : Prop :=
  ∀ l m : Lookahead, l.Continued m → test l = test m

namespace Lookahead

variable {p : TokenKind → Bool} {kind : TokenKind}

/-- A test of the next kind is blind if it holds of no word that opens a declaration. -/
lemma blind_startsWith (p : TokenKind → Bool) (hp : ∀ word ∈ hardWords, p word = false) :
    Blind (·.startsWith p) := by
  intro l m h
  cases h with
  | same => rfl
  | last => rfl
  | beyond hword => exact (hp _ (mem_hardWords_iff.2 hword)).symm
  | closed => rfl

/-- A test of the next two kinds is blind if its parts hold of no word that opens a declaration, and
the first of them of no token that ends one. -/
lemma blind_startsWith_and (p q : TokenKind → Bool) (hp : ∀ word ∈ hardWords, p word = false)
    (hclose : ∀ k ∈ closers, p k = false) (hq : ∀ word ∈ hardWords, q word = false) :
    Blind fun l => l.startsWith p && l.second.any q := by
  intro l m h
  cases h with
  | same => rfl
  | @last first word hword =>
    have hnext : (some word).any q = false := hq _ (mem_hardWords_iff.2 hword)
    simp only [hnext, Option.any_none]
    rfl
  | @beyond word second hword =>
    have hnext : (some word).any p = false := hp _ (mem_hardWords_iff.2 hword)
    simp only [startsWith, hnext, Option.any_none, Bool.false_and]
  | @closed first second hfirst =>
    have hnext : (some first).any p = false := hclose _ hfirst
    simp only [startsWith, hnext, Bool.false_and]

lemma starts_eq (kind : TokenKind) (l : Lookahead) : l.starts kind = l.startsWith (· == kind) := by
  obtain ⟨_ | first, second⟩ := l <;> rfl

lemma continues_eq (kind : TokenKind) (l : Lookahead) :
    l.continues kind = l.second.any (· == kind) := by
  obtain ⟨first, _ | second⟩ := l <;> rfl

/-- A word that opens a declaration is none of the other kinds. -/
lemma continues_word {first : Option TokenKind} {word : TokenKind} (hkind : kind ∉ hardWords)
    (hword : word.isHardDeclarationKeyword = true) :
    continues kind ⟨first, some word⟩ = false := by
  rw [continues_eq]
  exact beq_eq_false_of_mem_hardWords hkind word (mem_hardWords_iff.2 hword)

lemma blind_starts (hkind : kind ∉ hardWords) : Blind (·.starts kind) := by
  intro l m hm
  have h := blind_startsWith (· == kind) (beq_eq_false_of_mem_hardWords hkind) l m hm
  change l.starts kind = m.starts kind
  rw [starts_eq, starts_eq]
  exact h

/-- Where a list ends there is no difference between the end and the next declaration. -/
lemma blind_endsList (close : TokenKind) : Blind (·.endsList close) := by
  intro l m h
  cases h with
  | same => rfl
  | last => rfl
  | beyond hword => simp [endsList, hword]
  | closed => rfl

lemma Blind.not {test : Lookahead → Bool} (h : Blind test) : Blind fun l => !test l :=
  fun l m hm => congrArg (!·) (h l m hm)

lemma Blind.or {test test' : Lookahead → Bool} (h : Blind test) (h' : Blind test') :
    Blind fun l => test l || test' l :=
  fun l m hm => congrArg₂ (· || ·) (h l m hm) (h' l m hm)

lemma allows_of_startsWith {l : Lookahead} (hp : ∀ word ∈ hardWords, p word = false)
    (h : l.startsWith p = true) : l.Allows Soft := by
  obtain ⟨_ | first, second⟩ := l
  · cases h
  · refine ⟨first, rfl, Bool.eq_false_iff.2 fun hhard => ?_⟩
    have hfirst : p first = true := h
    rw [hp first (mem_hardWords_iff.2 hhard)] at hfirst
    cases hfirst

lemma allows_of_starts {l : Lookahead} (hkind : kind ∉ hardWords) (h : l.starts kind = true) :
    l.Allows Soft :=
  allows_of_startsWith (beq_eq_false_of_mem_hardWords hkind) (starts_eq kind l ▸ h)

/-- Before the end of a list there is a token that opens no declaration. -/
lemma allows_of_not_endsList {l : Lookahead} {close : TokenKind} (h : l.endsList close = false) :
    l.Allows Soft := by
  obtain ⟨_ | first, second⟩ := l
  · cases h
  · exact ⟨first, rfl, (Bool.or_eq_false_iff.1 h).2⟩

end Lookahead

open Lookahead

end TxTree.Grammar
