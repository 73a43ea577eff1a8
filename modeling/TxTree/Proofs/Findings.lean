import Mathlib.Data.List.Forall2
import TxTree.Proofs.Derivation

set_option relaxedAutoImplicit false
set_option autoImplicit false

/-!
# Findings

What was found stays found, in the order in which it was found, and what is true of every place
where something may be found is true of all findings. Findings that are sorted by where they start
can be sorted part by part, if no part begins before the one before it ends; some of them can be
left out before or after; and what they are is no matter for their order.

## Main definitions

* `TxTree.Diagnostic.gist` — where a diagnostic starts and what it says.
* `TxTree.Grammar.Gathering.Finds` — whether all findings have a property, those to come as well.

## Main results

* `TxTree.Grammar.Derives.diagnostics_prefix` — what was found stays found.
* `TxTree.Grammar.Derives.finds` — what all findings have in common stays so.
* `TxTree.mergeSort_append` — sorting part by part.
* `TxTree.filter_mergeSort` — sorting what is left when some are left out.
* `TxTree.forall₂_mergeSort` — sorting two lists side by side.
* `TxTree.Diagnostic.map_gist_sort` — the gists of sorted diagnostics are the sorted gists.
-/

namespace TxTree

/-! ## Sorting part by part -/

section Sorting

variable {α : Type} {le : α → α → Bool}

/-- There is one place only where a list changes from elements that fail a test to those that pass
it. -/
lemma append_inj_of_split {p : α → Bool} {l₁ l₂ m₁ m₂ : List α} (h : l₁ ++ l₂ = m₁ ++ m₂)
    (hl₁ : ∀ x ∈ l₁, p x = false) (hl₂ : ∀ x ∈ l₂, p x = true) (hm₁ : ∀ x ∈ m₁, p x = false)
    (hm₂ : ∀ x ∈ m₂, p x = true) : l₁ = m₁ ∧ l₂ = m₂ := by
  have htake {xs ys : List α} (hxs : ∀ x ∈ xs, p x = false) (hys : ∀ x ∈ ys, p x = true) :
      (xs ++ ys).takeWhile (!p ·) = xs := by
    rw [List.takeWhile_append_of_pos (by simpa using hxs)]
    cases ys with
    | nil => exact List.append_nil xs
    | cons y ys =>
      rw [List.takeWhile_cons_of_neg (by simp [hys y List.mem_cons_self]), List.append_nil]
  have hfirst : l₁ = m₁ := by rw [← htake hl₁ hl₂, h, htake hm₁ hm₂]
  subst hfirst
  exact ⟨rfl, List.append_cancel_left h⟩

/-- **One more to sort**: it is put between those that are before it and those that are not. -/
lemma mergeSort_cons_split (trans : ∀ x y z, le x y = true → le y z = true → le x z = true)
    (total : ∀ x y, (le x y || le y x) = true) (x : α) (xs : List α) :
    ∃ l₁ l₂, (x :: xs).mergeSort le = l₁ ++ x :: l₂ ∧ xs.mergeSort le = l₁ ++ l₂ ∧
      (∀ y ∈ l₁, le x y = false) ∧ ∀ y ∈ l₂, le x y = true := by
  obtain ⟨l₁, l₂, hl, hrest, hbefore⟩ := List.mergeSort_cons trans total x xs
  have hsorted := List.pairwise_mergeSort trans total (x :: xs)
  rw [hl, List.pairwise_append] at hsorted
  exact ⟨l₁, l₂, hl, hrest, by simpa using hbefore, (List.pairwise_cons.1 hsorted.2.1).1⟩

/-- **Sorting part by part**: a list of two parts of which the first is nowhere behind the second is
sorted by sorting the parts.

**Proof sketch.** Induction on the first part. Its first element is put before the elements that are
not before it, and all of the second part are among these. -/
theorem mergeSort_append (trans : ∀ x y z, le x y = true → le y z = true → le x z = true)
    (total : ∀ x y, (le x y || le y x) = true) {xs ys : List α}
    (h : ∀ x ∈ xs, ∀ y ∈ ys, le x y = true) :
    (xs ++ ys).mergeSort le = xs.mergeSort le ++ ys.mergeSort le := by
  induction xs with
  | nil => simp
  | cons x xs ih =>
    rw [List.forall_mem_cons] at h
    obtain ⟨l₁, l₂, hl, hrest, hl₁, hl₂⟩ := mergeSort_cons_split trans total x (xs ++ ys)
    obtain ⟨m₁, m₂, hm, hxs, hm₁, hm₂⟩ := mergeSort_cons_split trans total x xs
    have hlast : ∀ y ∈ m₂ ++ ys.mergeSort le, le x y = true := by
      intro y hy
      rw [List.mem_append, List.mem_mergeSort] at hy
      exact hy.elim (hm₂ y) (h.1 y)
    have hsame : l₁ ++ l₂ = m₁ ++ (m₂ ++ ys.mergeSort le) := by
      rw [← hrest, ih h.2, hxs, List.append_assoc]
    obtain ⟨rfl, rfl⟩ := append_inj_of_split hsame hl₁ hl₂ hm₁ hlast
    rw [List.cons_append, hl, hm, List.append_assoc, List.cons_append]

/-- **Sorting what is left** when some elements are left out: it is as well to sort all of them
first.

**Proof sketch.** Induction on the list. Where an element is put among all the others is where it
is put among those that are left of them. -/
theorem filter_mergeSort (trans : ∀ x y z, le x y = true → le y z = true → le x z = true)
    (total : ∀ x y, (le x y || le y x) = true) (p : α → Bool) (xs : List α) :
    (xs.mergeSort le).filter p = (xs.filter p).mergeSort le := by
  induction xs with
  | nil => simp
  | cons x xs ih =>
    obtain ⟨l₁, l₂, hl, hrest, hl₁, hl₂⟩ := mergeSort_cons_split trans total x xs
    rw [hrest, List.filter_append] at ih
    rw [hl, List.filter_append]
    cases hx : p x with
    | false =>
      have hout : ¬p x = true := Bool.eq_false_iff.1 hx
      rw [List.filter_cons_of_neg hout, List.filter_cons_of_neg hout, ih]
    | true =>
      rw [List.filter_cons_of_pos hx, List.filter_cons_of_pos hx]
      obtain ⟨m₁, m₂, hm, hxs, hm₁, hm₂⟩ := mergeSort_cons_split trans total x (xs.filter p)
      obtain ⟨rfl, rfl⟩ := append_inj_of_split (ih.trans hxs)
        (fun y hy => hl₁ y (List.mem_of_mem_filter hy))
        (fun y hy => hl₂ y (List.mem_of_mem_filter hy)) hm₁ hm₂
      exact hm.symm

/-- **Sorting two lists side by side** whose elements correspond: if they are in order alike, they
correspond when they are sorted. -/
theorem forall₂_mergeSort {β : Type} {le' : β → β → Bool} {R : α → β → Prop}
    (hle : ∀ x y x' y', R x x' → R y y' → le x y = le' x' y') {xs : List α} {ys : List β}
    (h : List.Forall₂ R xs ys) : List.Forall₂ R (xs.mergeSort le) (ys.mergeSort le') := by
  -- Both lists are the two sides of one list of pairs, which is sorted by either side.
  obtain ⟨ps, hps, rfl, rfl⟩ :
      ∃ ps : List (α × β), (∀ p ∈ ps, R p.1 p.2) ∧ ps.map Prod.fst = xs ∧ ps.map Prod.snd = ys := by
    refine ⟨xs.zip ys, fun p hp => (List.forall₂_iff_zip.1 h).2 hp, ?_, ?_⟩
    · exact List.map_fst_zip h.length_eq.le
    · exact List.map_snd_zip h.length_eq.ge
  rw [← List.map_mergeSort (r := fun p q => le p.1 q.1) fun _ _ _ _ => rfl,
    ← List.map_mergeSort (r := fun p q => le p.1 q.1) fun p hp q hq =>
      hle _ _ _ _ (hps p hp) (hps q hq),
    List.forall₂_map_left_iff, List.forall₂_map_right_iff, List.forall₂_same]
  exact fun p hp => hps p (List.mem_mergeSort.1 hp)

end Sorting

/-! ## Gists -/

namespace Diagnostic

/-- Where a diagnostic starts, and what it says. -/
def gist (e : Diagnostic) : Nat × String := (e.span.start, e.message)

/-- Gists in the order in which they start. -/
def gistLe (x y : Nat × String) : Bool := x.1 ≤ y.1

/-- The gists of sorted diagnostics are the sorted gists. -/
lemma map_gist_sort (es : List Diagnostic) :
    (sort es).map gist = (es.map gist).mergeSort gistLe :=
  List.map_mergeSort fun _ _ _ _ => rfl

/-- Findings can be left out before or after they are sorted. -/
lemma filter_sort (p : Diagnostic → Bool) (es : List Diagnostic) :
    (sort es).filter p = sort (es.filter p) := by
  refine filter_mergeSort ?_ ?_ p es
  · intro x y z hxy hyz
    simp only [decide_eq_true_eq] at hxy hyz ⊢
    omega
  · intro x y
    simp only [Bool.or_eq_true, decide_eq_true_eq]
    omega

/-- Gists are sorted part by part. -/
lemma mergeSort_gist_append {xs ys : List (Nat × String)} (h : ∀ x ∈ xs, ∀ y ∈ ys, x.1 ≤ y.1) :
    (xs ++ ys).mergeSort gistLe = xs.mergeSort gistLe ++ ys.mergeSort gistLe := by
  refine mergeSort_append ?_ ?_ fun x hx y hy => decide_eq_true (h x hx y hy)
  · intro x y z hxy hyz
    simp only [gistLe, decide_eq_true_eq] at hxy hyz ⊢
    omega
  · intro x y
    simp only [gistLe, Bool.or_eq_true, decide_eq_true_eq]
    omega

end Diagnostic

namespace Grammar

open Gathering

/-! ## Findings stay -/

section Findings

variable {rules : Nesting → Rule} {room : Nat} {r : Rule} {g g' : Gathering}

namespace Gathering

lemma diagnostics_prefix_flush (g : Gathering) : g.diagnostics <+: g.flush.diagnostics := by
  rw [flush_diagnostics]
  exact List.prefix_append ..

lemma diagnostics_prefix_bump (g : Gathering) : g.diagnostics <+: g.bump.diagnostics := by
  cases hs : significant g.ahead with
  | nil =>
    have hsame := bump_of_nil hs
    exact hsame.symm ▸ List.prefix_rfl
  | cons t rest =>
    rw [bump_of_cons hs]
    exact (diagnostics_prefix_flush g).trans (List.prefix_append ..)

lemma diagnostics_prefix_skip (g : Gathering) : g.diagnostics <+: g.skip.diagnostics := by
  unfold skip
  cases g.lookahead.first with
  | none => exact List.prefix_rfl
  | some k => exact (diagnostics_prefix_flush g).trans (diagnostics_prefix_bump g.flush.fresh)

lemma diagnostics_prefix_progress (g : Gathering) (cursor : Nat) :
    g.diagnostics <+: (g.progress cursor).diagnostics := by
  unfold progress
  split
  · exact diagnostics_prefix_skip g
  · exact List.prefix_rfl

end Gathering

/-- **What was found stays found.** -/
theorem Derives.diagnostics_prefix (h : Derives rules room r g g') :
    g.diagnostics <+: g'.diagnostics := by
  induction h with
  | done => exact List.prefix_rfl
  | seq _ _ ih₁ ih₂ => exact ih₁.trans ih₂
  | bump => exact diagnostics_prefix_bump _
  | skip => exact diagnostics_prefix_skip _
  | report => exact List.prefix_append ..
  | node _ ih => exact (diagnostics_prefix_flush _).trans ih
  | mark _ ih => exact (diagnostics_prefix_flush _).trans ih
  | wrap _ ih => exact ih
  | yes _ _ ih => exact ih
  | no _ _ ih => exact ih
  | stop => exact List.prefix_rfl
  | step _ _ _ ih₁ ih₂ => exact (ih₁.trans (diagnostics_prefix_progress _ _)).trans ih₂
  | nest _ ih => exact ih
  | full _ ih => exact (List.prefix_append ..).trans ih

/-- Where nothing is found at last, nothing was found before. -/
lemma Derives.clean (h : Derives rules room r g g') (hclean : g'.diagnostics = []) :
    g.diagnostics = [] :=
  List.prefix_nil.1 (hclean ▸ h.diagnostics_prefix)

/-! ## What all findings have in common -/

/-- **All findings have a property**, those made so far and those that may be made: at the tokens to
come and at the end of the text, whatever they say. -/
structure Gathering.Finds (p : Diagnostic → Prop) (g : Gathering) : Prop where
  /-- What may be found at the end of the text. -/
  atEnd : ∀ message, p (.error (Span.emptyAt g.endOffset) message)
  /-- What may be found at a token to come. -/
  atToken : ∀ t ∈ g.ahead, ∀ message, p (.error t.span message)
  /-- What was found. -/
  found : ∀ e ∈ g.diagnostics, p e

namespace Gathering.Finds

variable {p : Diagnostic → Prop}

/-- What is gathered does not matter. -/
lemma withChildren (h : g.Finds p) (cs : List Element) :
    ({ g with children := cs } : Gathering).Finds p :=
  ⟨h.atEnd, h.atToken, h.found⟩

/-- What is amiss with a token is found where the token is. -/
lemma of_mem_complaints {t : Token} (ht : ∀ message, p (.error t.span message)) :
    ∀ e ∈ complaints t, p e := by
  intro e he
  unfold complaints at he
  split at he
  · rw [List.mem_singleton.1 he]
    exact ht _
  · cases he

lemma attachAll (h : g.Finds p) {ts : List Token}
    (hts : ∀ t ∈ ts, ∀ message, p (.error t.span message)) : (g.attachAll ts).Finds p := by
  refine ⟨?_, ?_, ?_⟩
  · rw [attachAll_endOffset]
    exact h.atEnd
  · rw [attachAll_ahead]
    exact h.atToken
  · rw [attachAll_diagnostics]
    intro e he
    rcases List.mem_append.1 he with he | he
    · exact h.found e he
    · obtain ⟨t, ht, he⟩ := List.mem_flatMap.1 he
      exact of_mem_complaints (hts t ht) e he

lemma flush (h : g.Finds p) : g.flush.Finds p := by
  have hrest : ({ g with ahead := significant g.ahead } : Gathering).Finds p :=
    ⟨h.atEnd, fun t ht => h.atToken t ((List.dropWhile_sublist _).mem ht), h.found⟩
  exact hrest.attachAll fun t ht => h.atToken t ((List.takeWhile_sublist _).mem ht)

lemma bump (h : g.Finds p) : g.bump.Finds p := by
  cases hs : significant g.ahead with
  | nil =>
    rw [bump_of_nil hs]
    exact h
  | cons t rest =>
    have hmem : ∀ u ∈ t :: rest, ∀ message, p (.error u.span message) := by
      intro u hu
      rw [← hs] at hu
      exact h.atToken u ((List.dropWhile_sublist _).mem hu)
    rw [bump_of_cons hs]
    have hflush := h.flush
    refine ⟨hflush.atEnd, fun u hu => hmem u (List.mem_cons_of_mem t hu), ?_⟩
    intro e he
    rcases List.mem_append.1 he with he | he
    · exact hflush.found e he
    · exact of_mem_complaints (hmem t List.mem_cons_self) e he

lemma report (h : g.Finds p) (message : String) : (g.report message).Finds p := by
  refine ⟨h.atEnd, h.atToken, fun e he => ?_⟩
  rcases List.mem_append.1 he with he | he
  · exact h.found e he
  · rw [List.mem_singleton.1 he, currentSpan]
    split
    · exact h.atEnd _
    · next t rest hs =>
      refine h.atToken t ((List.dropWhile_sublist Token.isTrivia).mem ?_) _
      change t ∈ significant g.ahead
      rw [hs]
      exact List.mem_cons_self

lemma skip (h : g.Finds p) : g.skip.Finds p := by
  unfold Gathering.skip
  cases g.lookahead.first with
  | none => exact h
  | some k => exact ((h.flush.withChildren []).bump.withChildren _).withChildren _

lemma progress (h : g.Finds p) (cursor : Nat) : (g.progress cursor).Finds p := by
  unfold Gathering.progress
  split
  · exact h.skip
  · exact h

lemma finish (h : g.Finds p) :
    (({ g with ahead := [] } : Gathering).attachAll g.ahead).Finds p := by
  have hrest : ({ g with ahead := [] } : Gathering).Finds p := ⟨h.atEnd, nofun, h.found⟩
  exact hrest.attachAll h.atToken

end Gathering.Finds

/-- **What all findings have in common stays so.** -/
theorem Derives.finds {p : Diagnostic → Prop} (h : Derives rules room r g g') (hg : g.Finds p) :
    g'.Finds p := by
  induction h with
  | done => exact hg
  | seq _ _ ih₁ ih₂ => exact ih₂ (ih₁ hg)
  | bump => exact hg.bump
  | skip => exact hg.skip
  | report => exact hg.report _
  | node _ ih => exact ((ih (hg.flush.withChildren [])).withChildren _).withChildren _
  | mark _ ih => exact (ih (hg.flush.withChildren [])).withChildren _
  | wrap _ ih => exact (ih hg).withChildren _
  | yes _ _ ih => exact ih hg
  | no _ _ ih => exact ih hg
  | stop => exact hg
  | step _ _ _ ih₁ ih₂ => exact ih₂ ((ih₁ hg).progress _)
  | nest _ ih => exact ih hg
  | full _ ih => exact ih (hg.report _)

end Findings

/-- Where no diagnostics are shown, none were found. -/
lemma eq_nil_of_sort_eq_nil {es : List Diagnostic} (h : Diagnostic.sort es = []) : es = [] := by
  have hperm : (Diagnostic.sort es).Perm es := List.mergeSort_perm es _
  rw [h] at hperm
  exact hperm.symm.eq_nil

end Grammar

end TxTree
