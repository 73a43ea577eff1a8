import TxTree.Proofs.Cut
import TxTree.Proofs.File
import TxTree.Proofs.Findings
import TxTree.Proofs.Lines
import TxTree.Proofs.Spans

set_option relaxedAutoImplicit false
set_option autoImplicit false

/-!
# Where diagnostics stand

All diagnostics of a text are errors at one of its tokens or at its end, so that each starts between
two characters and is shown with the line and the column that are found by counting. They stand in
the order of the text; of those that start first, the one that was found first comes first, and
that is the one that a refusal of the text tells of.

## Main definitions

* `TxTree.Diagnostic.IsPlaced` — whether a diagnostic is an error at a token or at the end.

## Main results

* `TxTree.Diagnostic.exists_of_sort_eq_cons` — the first of the sorted diagnostics was found first
  among those that start first.
* `TxTree.parse_diagnostics` — where the diagnostics of a text stand, and which comes first.
-/

namespace TxTree

namespace Diagnostic

/-! ## The order of diagnostics -/

/-- Sorted diagnostics are in the order in which they start. -/
lemma pairwise_sort (es : List Diagnostic) :
    (sort es).Pairwise fun d e => d.span.start ≤ e.span.start := by
  have h : (sort es).Pairwise fun d e => decide (d.span.start ≤ e.span.start) = true :=
    List.pairwise_mergeSort
      (fun x y z hxy hyz => by simp only [decide_eq_true_eq] at hxy hyz ⊢; omega)
      (fun x y => by simp only [Bool.or_eq_true, decide_eq_true_eq]; omega) es
  exact h.imp of_decide_eq_true

/-- **The first of the sorted diagnostics** was found first among those that start first: all that
were found before it start later, and none starts before it.

**Proof sketch.** Those that start where it does are sorted as they were found, and it is the first
of them. -/
lemma exists_of_sort_eq_cons {es rest : List Diagnostic} {first : Diagnostic}
    (h : sort es = first :: rest) :
    ∃ earlier later, es = earlier ++ first :: later ∧
      (∀ d ∈ earlier, first.span.start < d.span.start) ∧
      ∀ d ∈ later, first.span.start ≤ d.span.start := by
  have hleast : ∀ d ∈ es, first.span.start ≤ d.span.start := by
    have hsorted := pairwise_sort es
    rw [h, List.pairwise_cons] at hsorted
    intro d hd
    have hmem : d ∈ sort es := List.mem_mergeSort.2 hd
    rw [h] at hmem
    rcases List.mem_cons.1 hmem with rfl | hd
    · exact Nat.le_refl _
    · exact hsorted.1 d hd
  have hfirst : (es.filter fun d => d.span.start == first.span.start).head? = some first := by
    have hstay : sort (es.filter fun d => d.span.start == first.span.start) =
        es.filter fun d => d.span.start == first.span.start := by
      refine List.mergeSort_of_pairwise (List.pairwise_of_forall_mem_list fun d hd e he => ?_)
      have hd := eq_of_beq (List.mem_filter.1 hd).2
      have he := eq_of_beq (List.mem_filter.1 he).2
      rw [hd, he]
      exact decide_eq_true (Nat.le_refl _)
    rw [← hstay, ← filter_sort, h]
    simp only [List.filter_cons, beq_self_eq_true, if_true, List.head?_cons]
  rw [List.head?_filter, List.find?_eq_some_iff_append] at hfirst
  obtain ⟨-, earlier, later, rfl, hbefore⟩ := hfirst
  refine ⟨earlier, later, rfl, fun d hd => ?_, fun d hd => hleast d (by simp [hd])⟩
  have hne : d.span.start ≠ first.span.start := by simpa using hbefore d hd
  have hle := hleast d (by simp [hd])
  omega

/-! ## Placed diagnostics -/

/-- **A diagnostic is placed in a text** if it is an error at one of its tokens or at its end. -/
structure IsPlaced (text : String) (d : Diagnostic) : Prop where
  /-- It is an error. -/
  severity_eq : d.severity = .error
  /-- It is about a token, or about what is missing at the end. -/
  span_eq : (∃ t ∈ tokenize text, d.span = t.span) ∨ d.span = Span.emptyAt text.utf8ByteSize

end Diagnostic

/-- A token of a text starts between two characters. -/
lemma exists_before_of_mem_tokenize {text : String} {t : Token} (ht : t ∈ tokenize text) :
    ∃ before after, text = before ++ after ∧ t.span.start = before.utf8ByteSize := by
  obtain ⟨before, after, htext, hstart⟩ := String.Pos.Raw.isValid_iff_exists_append.1
    (liesIn_of_mem_tokenize text t ht).1.start_isValid
  exact ⟨before, after, htext, congrArg String.Pos.Raw.byteIdx hstart⟩

namespace Diagnostic

variable {text : String} {d : Diagnostic}

/-- A placed diagnostic starts between two characters. -/
lemma IsPlaced.exists_before (h : d.IsPlaced text) :
    ∃ before after, text = before ++ after ∧ d.span.start = before.utf8ByteSize := by
  rcases h.span_eq with ⟨t, ht, hspan⟩ | hspan
  · rw [hspan]
    exact exists_before_of_mem_tokenize ht
  · rw [hspan]
    exact ⟨text, "", (String.append_empty).symm, rfl⟩

/-- An error is shown with the line and the column that are found by counting. -/
lemma render_of_append {before after : String} (herror : d.severity = .error)
    (hstart : d.span.start = before.utf8ByteSize) :
    d.render (.ofText (before ++ after)) =
      toString (before.toList.count '\n' + 1) ++ ":" ++
        toString ((Text.sinceLineEnd before.toList).length + 1) ++ ": error: " ++ d.message := by
  have hword : ": error: " = ": " ++ Severity.error.name ++ ": " := rfl
  rw [render, hstart, Text.LineIndex.position_ofText_append, herror, hword]
  simp only [String.append_assoc]

end Diagnostic

namespace Grammar

/-- All that is found in a text is placed in it. -/
lemma isPlaced_of_derives {text : String} {rules : Nesting → Rule} {room : Nat} {r : Rule}
    {g : Gathering} (h : Derives rules room r (.ofTokens (tokenize text)) g) :
    ∀ d ∈ g.finish.diagnostics, d.IsPlaced text := by
  have hfirst : (Gathering.ofTokens (tokenize text)).Finds (·.IsPlaced text) :=
    ⟨fun _ => ⟨rfl, .inr (congrArg Span.emptyAt (endOf_tokenize text))⟩,
      fun t ht _ => ⟨rfl, .inl ⟨t, ht, rfl⟩⟩, nofun⟩
  exact (h.finds hfirst).finish.found

end Grammar

open Grammar

/-- The diagnostics of a text are what was found in it, sorted. -/
lemma diagnostics_parse (text : String) :
    (parse text).diagnostics =
      Diagnostic.sort (runFile (tokenize text)).finish.diagnostics.toList :=
  rfl

/-- The diagnostics of a text are placed in it. -/
lemma isPlaced_of_mem_diagnostics {text : String} :
    ∀ d ∈ (parse text).diagnostics, d.IsPlaced text := by
  obtain ⟨g, hg, -, -⟩ := exists_derives_file (tokenize text)
  intro d hd
  change d ∈ (parseTokens (tokenize text)).2 at hd
  rw [parseTokens_eq hg] at hd
  exact isPlaced_of_derives hg d (List.mem_mergeSort.1 hd)

/-- **Where the diagnostics of a text stand**: they are in the order in which they start. Each is an
error, at one of the tokens of the text or at its end; so it starts between two characters, and is
shown with the line and the column that are found by counting the line ends before it and the
characters behind the last of these. If there is none, the tree of the text is given; otherwise the
account of what is amiss tells how many there are, and of the one that was found first among those
that start first. -/
theorem parse_diagnostics (text : String) :
    (parse text).diagnostics.Pairwise (fun d e => d.span.start ≤ e.span.start) ∧
    (∀ d ∈ (parse text).diagnostics,
      d.severity = .error ∧
      ((∃ t ∈ tokenize text, d.span = t.span) ∨ d.span = Span.emptyAt text.utf8ByteSize) ∧
      ∃ before after, text = before ++ after ∧ d.span.start = before.utf8ByteSize ∧
        d.render (.ofText text) =
          toString (before.toList.count '\n' + 1) ++ ":" ++
            toString ((Text.sinceLineEnd before.toList).length + 1) ++ ": error: " ++
            d.message) ∧
    (parse text).errors = (parse text).diagnostics ∧
    ((parse text).diagnostics = [] → (parse text).toExcept = .ok (parse text).root) ∧
    ((parse text).diagnostics ≠ [] → ∃ first ∈ (parse text).diagnostics, ∃ earlier later,
      (runFile (tokenize text)).finish.diagnostics.toList = earlier ++ first :: later ∧
      (∀ d ∈ earlier, first.span.start < d.span.start) ∧
      (∀ d ∈ later, first.span.start ≤ d.span.start) ∧
      (parse text).toExcept =
        .error ⟨(parse text).diagnostics.length, first.span, first.message⟩) := by
  refine ⟨?sorted, ?placed, ?errors, ?clean, ?first⟩
  case sorted =>
    rw [diagnostics_parse]
    exact Diagnostic.pairwise_sort _
  case placed =>
    intro d hd
    have hplaced := isPlaced_of_mem_diagnostics d hd
    obtain ⟨before, after, htext, hstart⟩ := hplaced.exists_before
    refine ⟨hplaced.severity_eq, hplaced.span_eq, before, after, htext, hstart, ?_⟩
    rw [htext]
    exact Diagnostic.render_of_append hplaced.severity_eq hstart
  case errors =>
    refine List.filter_eq_self.2 fun d hd => ?_
    rw [Diagnostic.isError, (isPlaced_of_mem_diagnostics d hd).severity_eq]
    rfl
  case clean =>
    intro hclean
    rw [Parse.toExcept, hclean]
  case first =>
    intro hne
    obtain ⟨first, rest, hfirst⟩ := List.exists_cons_of_ne_nil hne
    obtain ⟨earlier, later, hfound, hearlier, hlater⟩ :=
      Diagnostic.exists_of_sort_eq_cons ((diagnostics_parse text).symm.trans hfirst)
    refine ⟨first, hfirst ▸ List.mem_cons_self, earlier, later, hfound, hearlier, hlater, ?_⟩
    rw [Parse.toExcept, hfirst]

/-- What is missing at the end is found before the comment that is never closed, which starts
before it. -/
theorem parse_diagnostics_unclosed_comment :
    (runFile (tokenize "tx f(\n /* é")).finish.diagnostics.toList.map
      (fun d => (d.span.start, d.message)) =
        [(12, "Expected ')'"), (12, "Expected '\x7b'"), (7, "Unterminated block comment")] ∧
    (parse "tx f(\n /* é").diagnostics ≠ [] ∧
    ∃ first ∈ (parse "tx f(\n /* é").diagnostics, ∃ earlier later,
      (runFile (tokenize "tx f(\n /* é")).finish.diagnostics.toList = earlier ++ first :: later ∧
      (∀ d ∈ earlier, first.span.start < d.span.start) ∧
      (∀ d ∈ later, first.span.start ≤ d.span.start) ∧
      (parse "tx f(\n /* é").toExcept =
        .error ⟨(parse "tx f(\n /* é").diagnostics.length, first.span, first.message⟩ := by
  have hfound : (runFile (tokenize "tx f(\n /* é")).finish.diagnostics.toList.map
      (fun d => (d.span.start, d.message)) =
        [(12, "Expected ')'"), (12, "Expected '\x7b'"), (7, "Unterminated block comment")] := by
    decide +kernel
  have hne : (parse "tx f(\n /* é").diagnostics ≠ [] := by
    intro hnone
    rw [diagnostics_parse] at hnone
    rw [eq_nil_of_sort_eq_nil hnone] at hfound
    cases hfound
  exact ⟨hfound, hne, (parse_diagnostics "tx f(\n /* é").2.2.2.2 hne⟩

end TxTree
