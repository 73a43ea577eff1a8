import Mathlib.Data.List.Basic
import TxTree.Proofs.Unterminated

set_option relaxedAutoImplicit false
set_option autoImplicit false

/-!
# What findings say

A finding says what a rule of the grammar reports, that something is nested too deeply, or that a
token lacks its closing mark. What is true of all these messages is true of what every finding of
every text says.

## Main definitions

* `TxTree.Grammar.Gathering.Worded` — whether all messages of the findings made so far pass a test.

## Main results

* `TxTree.Grammar.Derives.worded` — what is true of the messages of the rules stays true of those of
  the findings.
* `TxTree.lineEnd_notMem_message` — the message of every finding is one line.
-/

namespace TxTree

namespace Grammar

variable {p : String → Bool}

/-- **The findings made so far say only what passes a test.** -/
def Gathering.Worded (p : String → Bool) (g : Gathering) : Prop :=
  ∀ d ∈ g.diagnostics, p d.message = true

variable {g g' : Gathering}

lemma Gathering.Worded.report (h : g.Worded p) {message : String} (hmessage : p message = true) :
    (g.report message).Worded p := by
  intro d hd
  rcases List.mem_append.1 hd with hd | hd
  · exact h d hd
  · rwa [List.mem_singleton.1 hd]

section Marks

-- The messages about closing marks pass the test.
variable (hmark : ∀ kind, p (State.unterminatedMessage kind) = true)

include hmark

lemma worded_complaints {t : Token} : ∀ d ∈ complaints t, p d.message = true := by
  intro d hd
  unfold complaints at hd
  split at hd
  · rw [List.mem_singleton.1 hd]
    exact hmark t.kind
  · cases hd

namespace Gathering.Worded

lemma attachAll (h : g.Worded p) (ts : List Token) : (g.attachAll ts).Worded p := by
  intro d hd
  rw [attachAll_diagnostics] at hd
  rcases List.mem_append.1 hd with hd | hd
  · exact h d hd
  · obtain ⟨t, -, hd⟩ := List.mem_flatMap.1 hd
    exact worded_complaints hmark d hd

lemma flush (h : g.Worded p) : g.flush.Worded p :=
  attachAll hmark (g := { g with ahead := significant g.ahead }) h _

lemma bump (h : g.Worded p) : g.bump.Worded p := by
  cases hs : significant g.ahead with
  | nil => rwa [bump_of_nil hs]
  | cons t rest =>
    rw [bump_of_cons hs]
    intro d hd
    rcases List.mem_append.1 hd with hd | hd
    · exact h.flush hmark d hd
    · exact worded_complaints hmark d hd

lemma skip (h : g.Worded p) : g.skip.Worded p := by
  rw [Gathering.skip]
  cases g.lookahead.first with
  | none => exact h
  | some k => exact bump hmark (g := g.flush.fresh) (h.flush hmark)

lemma progress (h : g.Worded p) (cursor : Nat) : (g.progress cursor).Worded p := by
  rw [Gathering.progress]
  split
  · exact h.skip hmark
  · exact h

lemma finish (h : g.Worded p) : g.finish.Worded p :=
  attachAll hmark (g := { g with ahead := [] }) h _

end Gathering.Worded

/-- **What is true of the messages of the rules is true of those of the findings**, if it is also
true of the messages about nesting and about closing marks.

**Proof sketch.** Induction on the derivation. A rule reports its own messages and those of the
rules that it is made of, and taking a token may find that it lacks its mark. -/
theorem Derives.worded {rules : Nesting → Rule} {room : Nat} {r : Rule} (hdeep : p tooDeep = true)
    (hrules : ∀ level, (rules level).reportsOnly p = true) (h : Derives rules room r g g')
    (hr : r.reportsOnly p = true) (hg : g.Worded p) : g'.Worded p := by
  induction h with
  | done => exact hg
  | seq _ _ ih₁ ih₂ =>
    obtain ⟨hfirst, hsecond⟩ := Bool.and_eq_true_iff.1 hr
    exact ih₂ hsecond (ih₁ hfirst hg)
  | bump => exact hg.bump hmark
  | skip => exact hg.skip hmark
  | report => exact hg.report hr
  | node _ ih => exact ih hr (hg.flush hmark)
  | mark _ ih => exact ih hr (hg.flush hmark)
  | wrap _ ih => exact ih hr hg
  | yes _ _ ih => exact ih (Bool.and_eq_true_iff.1 hr).1 hg
  | no _ _ ih => exact ih (Bool.and_eq_true_iff.1 hr).2 hg
  | stop => exact hg
  | step _ _ _ ih₁ ih₂ => exact ih₂ hr ((ih₁ hr hg).progress hmark _)
  | nest _ ih => exact ih (hrules _) hg
  | full _ ih => exact ih hr (hg.report hdeep)

end Marks

end Grammar

open Grammar

/-! ## Messages are lines -/

/-- Whether a text is one line, by its bytes: none of them is a line end. -/
def isLine (text : String) : Bool := !text.toByteArray.data.toList.contains 10

lemma lineEnd_notMem_of_isLine {text : String} (h : isLine text = true) :
    '\n' ∉ text.toList := by
  have hbytes : text.toByteArray.data.toList = text.toList.flatMap String.utf8EncodeChar := by
    rw [← String.ofList_toList (s := text), String.toByteArray_ofList, String.toList_ofList,
      List.utf8Encode, List.toList_data_toByteArray]
  intro hmem
  have hend : (10 : UInt8) ∈ text.toByteArray.data.toList := by
    rw [hbytes]
    exact List.mem_flatMap.2 ⟨'\n', hmem, by decide⟩
  rw [isLine, List.contains_iff_mem.2 hend] at h
  cases h

lemma isLine_unterminatedMessage (kind : TokenKind) :
    isLine (State.unterminatedMessage kind) = true := by
  cases kind <;> decide

lemma reportsOnly_lines_nested (level : Nesting) : (nested level).reportsOnly isLine = true := by
  cases level <;> decide +kernel

lemma reportsOnly_lines_file : file.reportsOnly isLine = true := by
  decide +kernel

/-- **The message of every finding is one line.** -/
theorem lineEnd_notMem_message (text : String) :
    ∀ d ∈ (parse text).diagnostics, '\n' ∉ d.message.toList := by
  intro d hd
  obtain ⟨g, hg, -, -⟩ := exists_derives_file (tokenize text)
  have hworded : g.Worded isLine :=
    hg.worded isLine_unterminatedMessage (by decide) reportsOnly_lines_nested reportsOnly_lines_file
      nofun
  change d ∈ (parseTokens (tokenize text)).2 at hd
  rw [parseTokens_eq hg] at hd
  exact lineEnd_notMem_of_isLine
    (hworded.finish isLine_unterminatedMessage d (List.mem_mergeSort.1 hd))

end TxTree
