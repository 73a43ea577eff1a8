import TxTree.Proofs.Closing
import TxTree.Proofs.Cut
import TxTree.Proofs.File

set_option relaxedAutoImplicit false
set_option autoImplicit false

/-!
# Where declarations meet

A text may be parsed in two parts, if it is cut between two tokens and the second part begins with a
word that opens a declaration, or the first has no errors: the tree and the findings of the whole
are those of the parts, one behind the other.

## Main results

* `TxTree.Grammar.Derives.append` — the derivation of the whole, from those of the parts.
* `TxTree.parse_append` — the tree and the diagnostics of the whole.
-/

namespace TxTree

namespace Grammar

open Gathering

/-- To gather all that is left is the same later on. -/
lemma finish_later (p : Lead) (g : Gathering) : (g.later p).finish = g.finish.later p := by
  unfold finish
  rw [← attachAll_later]
  rfl

variable {room : Nat} {ts us : List Token} {g : Gathering}

/-- The streams of two parts, side by side with that of the first. -/
lemma follows_ofTokens (ts us : List Token) :
    Follows us (endOf (ts ++ us)) (.ofTokens ts) (.ofTokens (ts ++ us)) :=
  ⟨rfl, rfl, rfl, rfl, rfl, rfl⟩

/-- In the end the last token of a stream is gathered. -/
lemma Derives.offset_finish {rules : Nesting → Rule} {r : Rule}
    (h : Derives rules room r (.ofTokens ts) g) : g.finish.offset = endOf ts := by
  obtain ⟨taken, hahead, hoffset, -⟩ := h.consumes
  change ts = taken ++ g.ahead at hahead
  change g.offset = (taken.getLast?.map (·.span.stop)).getD 0 at hoffset
  unfold finish endOf
  rw [attachAll_offset, hahead, List.getLast?_append]
  cases g.ahead.getLast? with
  | none => exact hoffset
  | some t => rfl

/-- Where as much is gathered as the stream ahead is further on, the stream is at its beginning,
only later. -/
lemma eq_later_ofTokens {vs : List Token} {d : Nat} (hahead : g.ahead = vs.map (Token.shift d))
    (hoffset : g.offset = d) (hend : g.endOffset = endOf vs + d) :
    g = (Gathering.ofTokens vs).later ⟨d, g.cursor, g.diagnostics, g.children⟩ := by
  ext1
  · exact hahead
  · exact hend
  · rfl
  · exact hoffset.trans (Nat.zero_add d).symm
  · exact (List.append_nil _).symm
  · exact (List.append_nil _).symm

/-- Where nothing is pending in the one stream and the other goes on with a word that is never a
name, that word comes next. -/
lemma Follows.exists_word {stop : Nat} {g₁ : Gathering} (h : Follows us stop g g₁)
    (hend : pending g.ahead = []) {u : Token} {rest : List Token} (hus : us = u :: rest)
    (hword : u.kind.isHardDeclarationKeyword = true) :
    ∃ word second, g₁.lookahead = ⟨some word, second⟩ ∧ word.isHardDeclarationKeyword = true := by
  refine ⟨u.kind, (pending rest)[0]?.map (·.kind), ?_, hword⟩
  rw [lookahead_eq, h.ahead_eq, pending_append, hend, List.nil_append, hus,
    pending_cons_of_hard hword]
  rfl

/-- **The derivation of the whole, from those of the parts.** Behind the first part, where the file
may go on, the second is derived as by itself, only later; the white space and comments that are
left of the first part are gathered ahead of time.

**Proof sketch.** The first part is followed side by side. What comes of it, with what is left of
the first part gathered, is the beginning of the second part, later. -/
theorem Derives.append {vs : List Token} {d : Nat} {ga gb : Gathering}
    (ha : Derives nested room file (.ofTokens ts) ga) (hend : pending ga.ahead = [])
    (hb : Derives nested room file (.ofTokens vs) gb) (hus : us = vs.map (Token.shift d))
    (hts : endOf ts = d) (hwhole : endOf (ts ++ us) = endOf vs + d) (hext : ga.Extendable us)
    (hquiet : ga.ahead.flatMap complaints = [] ∨
      ∃ u rest, us = u :: rest ∧ u.kind.isHardDeclarationKeyword = true) :
    ∃ k, Derives nested room file (.ofTokens (ts ++ us)) k ∧
      k.finish.children = ga.finish.children ++ gb.finish.children.map (Element.shift d) ∧
      k.finish.diagnostics.map Diagnostic.gist = ga.finish.diagnostics.map Diagnostic.gist ++
        gb.finish.diagnostics.map fun e => (e.shift d).gist := by
  obtain ⟨gp, hf, hrest⟩ := (ha.extends hext).2 (follows_ofTokens ts us)
  have htrivia := pending_eq_nil_iff.1 hend
  have hchildren : (gp.advance ga.ahead us).children = ga.finish.children := by
    rw [advance, finish, attachAll_children, attachAll_children, hf.children_eq]
  have hgists : (gp.advance ga.ahead us).diagnostics.map Diagnostic.gist =
      ga.finish.diagnostics.map Diagnostic.gist := by
    rw [advance, finish, attachAll_diagnostics, attachAll_diagnostics, List.map_append,
      List.map_append, hf.gists_eq]
  have hoffset : (gp.advance ga.ahead us).offset = d := by
    rw [← hts, ← ha.offset_finish, advance, finish, attachAll_offset, attachAll_offset,
      hf.offset_eq]
  have hstop : (gp.advance ga.ahead us).endOffset = endOf vs + d := by
    rw [advance, attachAll_endOffset]
    exact hf.endOffset_eq.trans hwhole
  -- With what is left of the first part gathered, the second is at its beginning, later.
  have hahead : (gp.advance ga.ahead us).ahead = us := attachAll_ahead ..
  have hlead := eq_later_ofTokens (hahead.trans hus) hoffset hstop
  have hlater := hb.later wellFormed_nested wellFormed_file
    ⟨d, (gp.advance ga.ahead us).cursor, (gp.advance ga.ahead us).diagnostics,
      (gp.advance ga.ahead us).children⟩ fun h => absurd h Bool.false_ne_true
  rw [← hlead] at hlater
  have hnext : ga.ahead.flatMap complaints = [] ∨ ∃ word second,
      gp.lookahead = ⟨some word, second⟩ ∧ word.isHardDeclarationKeyword = true := by
    refine hquiet.imp id ?_
    rintro ⟨u, rest, hu, hword⟩
    exact hf.exists_word hend hu hword
  obtain ⟨k, hk, hfinish⟩ := hlater.file_of_advance hf.ahead_eq htrivia hnext
  refine ⟨k, hrest k hk, ?_, ?_⟩
  · rw [hfinish, finish_later, ← hchildren]
    rfl
  · rw [hfinish, finish_later, ← hgists]
    change ((gp.advance ga.ahead us).diagnostics ++ gb.finish.diagnostics.map _).map _ = _
    rw [List.map_append, List.map_map]
    rfl

/-! ## Where a file may go on -/

/-- A file may go on with a word that opens a declaration and is never a name. -/
lemma Derives.extendable_of_word (h : Derives nested room file (.ofTokens ts) g) {u : Token}
    {rest : List Token} (hword : u.kind.isHardDeclarationKeyword = true)
    (hstart : u.span.start = endOf ts) : g.Extendable (u :: rest) := by
  obtain ⟨taken, -, -, hend⟩ := h.consumes
  exact .anchored (.word rfl hword (hstart.trans hend.symm))

/-- A file without errors may go on with anything, and in what is left of it nothing is amiss. -/
lemma extendable_of_clean (hclean : Diagnostic.sort g.finish.diagnostics = [])
    (hend : pending g.ahead = []) (us : List Token) :
    g.Extendable us ∧ g.ahead.flatMap complaints = [] := by
  have hnil := eq_nil_of_sort_eq_nil hclean
  rw [finish, attachAll_diagnostics, List.append_eq_nil_iff] at hnil
  exact ⟨.clean hnil.1 hend, hnil.2⟩

/-! ## Diagnostics of the parts -/

/-- What is found in a text starts within it. -/
lemma gist_le_of_derives {text : String} {rules : Nesting → Rule} {r : Rule}
    (h : Derives rules room r (.ofTokens (tokenize text)) g) :
    ∀ x ∈ g.finish.diagnostics.map Diagnostic.gist, x.1 ≤ text.utf8ByteSize := by
  have hfirst : (Gathering.ofTokens (tokenize text)).Finds (·.span.start ≤ text.utf8ByteSize) :=
    ⟨fun _ => (endOf_tokenize text).le, fun _ ht _ => start_le_of_mem_tokenize ht, nofun⟩
  intro x hx
  obtain ⟨e, he, rfl⟩ := List.mem_map.1 hx
  exact (h.finds hfirst).finish.found e he

/-- Diagnostics further on are sorted as they were. -/
lemma map_gist_sort_shift (d : Nat) (es : List Diagnostic) :
    (es.map fun e => (e.shift d).gist).mergeSort Diagnostic.gistLe =
      (Diagnostic.sort es).map fun e => (e.shift d).gist := by
  refine (List.map_mergeSort fun x _ y _ => ?_).symm
  simp only [Diagnostic.gistLe, Diagnostic.gist, Diagnostic.shift, Span.shift,
    Nat.add_le_add_iff_right]

end Grammar

open Grammar

/-- **A text may be parsed in two parts**, if it is cut between two tokens, and the second part
begins with a word that opens a declaration and is never a name, whatever is wrong with the first,
or the first has no errors, whatever the second begins with. What is below the root of the whole is
what is below the roots of the parts, the second further on by the length of the first; and where
the diagnostics of the whole start and what they say is so, too. -/
theorem parse_append (a b : String)
    (hcut : a.utf8ByteSize = 0 ∨ ∃ t ∈ tokenize (a ++ b), t.span.stop = a.utf8ByteSize)
    (h : (∃ t ∈ (tokenize b).head?, t.kind.isHardDeclarationKeyword = true) ∨
      (parse a).diagnostics = []) :
    (parse (a ++ b)).root.children =
        (parse a).root.children ++ (parse b).root.children.map (Element.shift a.utf8ByteSize) ∧
      (parse (a ++ b)).diagnostics.map (fun e => (e.span.start, e.message)) =
        (parse a).diagnostics.map (fun e => (e.span.start, e.message)) ++
          (parse b).diagnostics.map fun e => (e.span.start + a.utf8ByteSize, e.message) := by
  have htokens := tokenize_append hcut
  obtain ⟨ga, ha, -, hend⟩ := exists_derives_file (tokenize a)
  obtain ⟨gb, hb, -, -⟩ := exists_derives_file (tokenize b)
  have hfirst := parseTokens_eq ha
  have hsecond := parseTokens_eq hb
  have hwhole : endOf (tokenize a ++ (tokenize b).map (Token.shift a.utf8ByteSize)) =
      endOf (tokenize b) + a.utf8ByteSize := by
    rw [← htokens, endOf_tokenize, endOf_tokenize, String.utf8ByteSize_append, Nat.add_comm]
  have hnext : ga.Extendable ((tokenize b).map (Token.shift a.utf8ByteSize)) ∧
      (ga.ahead.flatMap complaints = [] ∨
        ∃ u rest, (tokenize b).map (Token.shift a.utf8ByteSize) = u :: rest ∧
          u.kind.isHardDeclarationKeyword = true) := by
    rcases h with ⟨t, ht, hword⟩ | hclean
    · obtain ⟨rest, htb⟩ := List.head?_eq_some_iff.1 ht
      have hstart : t.span.start + a.utf8ByteSize = endOf (tokenize a) := by
        rw [start_eq_of_tokenize_eq_cons htb, endOf_tokenize, Nat.zero_add]
      rw [htb, List.map_cons]
      exact ⟨ha.extendable_of_word hword hstart, .inr ⟨_, _, rfl, hword⟩⟩
    · have hsort := (congrArg Prod.snd hfirst).symm.trans hclean
      obtain ⟨hext, hquiet⟩ := extendable_of_clean hsort hend _
      exact ⟨hext, .inl hquiet⟩
  obtain ⟨k, hk, hchildren, hgists⟩ :=
    ha.append hend hb rfl (endOf_tokenize a) hwhole hnext.1 hnext.2
  rw [← htokens] at hk
  have hboth := parseTokens_eq hk
  constructor
  · change (parseTokens (tokenize (a ++ b))).1.children =
      (parseTokens (tokenize a)).1.children ++ (parseTokens (tokenize b)).1.children.map _
    rw [hboth, hfirst, hsecond]
    exact hchildren
  · change (parseTokens (tokenize (a ++ b))).2.map Diagnostic.gist =
      (parseTokens (tokenize a)).2.map Diagnostic.gist ++
        (parseTokens (tokenize b)).2.map fun e => (e.shift a.utf8ByteSize).gist
    -- What is found in the second part starts no earlier, so that each part is sorted by itself.
    have hbefore : ∀ x ∈ ga.finish.diagnostics.map Diagnostic.gist,
        ∀ y ∈ gb.finish.diagnostics.map fun e => (e.shift a.utf8ByteSize).gist, x.1 ≤ y.1 := by
      intro x hx y hy
      obtain ⟨e, -, rfl⟩ := List.mem_map.1 hy
      exact (gist_le_of_derives ha x hx).trans (Nat.le_add_left _ _)
    rw [hboth, hfirst, hsecond, Diagnostic.map_gist_sort, hgists,
      Diagnostic.mergeSort_gist_append hbefore, Diagnostic.map_gist_sort, map_gist_sort_shift]

/-- A declaration that was never closed, and a stray bracket behind one that was. -/
theorem parse_append_unclosed :
    ((parse ("tx f(" ++ "party A;")).root.children =
        (parse "tx f(").root.children ++ (parse "party A;").root.children.map (Element.shift 5) ∧
      (parse ("tx f(" ++ "party A;")).diagnostics.map (fun e => (e.span.start, e.message)) =
        (parse "tx f(").diagnostics.map (fun e => (e.span.start, e.message)) ++
          (parse "party A;").diagnostics.map fun e => (e.span.start + 5, e.message)) ∧
    (parse ("party A;" ++ ") x")).root.children =
      (parse "party A;").root.children ++ (parse ") x").root.children.map (Element.shift 8) :=
  ⟨parse_append "tx f(" "party A;" (by decide +kernel) (by decide +kernel),
    (parse_append "party A;" ") x" (by decide +kernel) (by decide +kernel)).1⟩

end TxTree
