import TxTree.Proofs.Height
import TxTree.Proofs.Passing
import TxTree.Tree.Traversal

set_option relaxedAutoImplicit false
set_option autoImplicit false

/-!
# Linear output

A parse makes no more findings and nodes than a constant times the tokens it is given, however
deeply they nest. Not every step of it takes a token: where a deep nesting ends too early, each
level reports what it lacks, and a layer of operators may open a node behind one that is complete.
So every token brings a stock with it, from which the findings and nodes around it are paid. A rule
has a toll: what it takes out of the stock where no token is left, where a token comes next and it
takes none, and where it takes some. In the last case the stock of one token pays for all that is
made before and behind it, and that of each further one for what is made where it is taken, so that
neither the rounds of a loop nor the levels of a nesting add up.

## Main definitions

* `TxTree.Grammar.tokenWorth` — the stock that each token brings with it.
* `TxTree.Grammar.Gathering.output`, `TxTree.Grammar.Gathering.stock` — the findings and nodes so
  far, alone and with the worth of the tokens to come.
* `TxTree.Grammar.Toll`, `TxTree.Grammar.Rule.toll` — what a rule takes out of the stock.
* `TxTree.Grammar.Rule.affordable` — whether a token pays for all that is made where it is taken.
* `TxTree.Grammar.Gathering.Costs` — a way from one gathering to another within a toll.

## Main results

* `TxTree.Grammar.Derives.costs` — a rule takes no more out of the stock than its toll.
* `TxTree.Grammar.Derives.output_finish_le` — the output for a file, whatever the limit of nesting.
* `TxTree.parseTokens_linear` — the diagnostics and the nodes of a whole parse.
-/

namespace TxTree

@[simp] lemma Element.countOfList_map_token (ts : List Token) :
    countOfList (ts.map .token) = 0 := by
  induction ts with
  | nil => rfl
  | cons t ts ih => simpa [countOfList] using ih

namespace Grammar

/-! ## The stock of a gathering -/

/-- **The stock that each token brings with it.** -/
def tokenWorth : Nat := 33

/-- A token brings one finding with it at most. -/
lemma length_complaints_le (ts : List Token) : (ts.flatMap complaints).length ≤ ts.length := by
  induction ts with
  | nil => exact Nat.le_refl 0
  | cons t ts ih =>
    have ht : (complaints t).length ≤ 1 := by
      unfold complaints
      split <;> simp
    rw [List.flatMap_cons, List.length_append, List.length_cons]
    omega

namespace Gathering

/-- **The output so far**: the findings, and the nodes gathered since the place. -/
def output (g : Gathering) : Nat := g.diagnostics.length + Element.countOfList g.children

/-- **The output so far and the worth of the tokens to come.** -/
def stock (g : Gathering) : Nat := g.output + tokenWorth * g.ahead.length

variable (g : Gathering)

lemma stock_report (message : String) : (g.report message).stock = g.stock + 1 := by
  simp only [stock, output, report, List.length_append, List.length_singleton]
  omega

lemma stock_enclose (kind : NodeKind) : (g.enclose kind).stock = g.stock + 1 := by
  simp only [stock, output, enclose, Node.ofChildren, Element.countOfList, Node.count]
  omega

/-- What was gathered before a place is gathered all the same. -/
lemma stock_behind (before : List Element) :
    (g.behind before).stock = Element.countOfList before + g.stock := by
  simp only [stock, output, behind, Element.countOfList_append]
  omega

lemma stock_fresh : Element.countOfList g.children + g.fresh.stock = g.stock := by
  simp only [stock, output, fresh, Element.countOfList]
  omega

lemma output_attachAll_le (ts : List Token) : (g.attachAll ts).output ≤ g.output + ts.length := by
  have hfound := length_complaints_le ts
  simp only [output, attachAll_diagnostics, attachAll_children, List.length_append,
    Element.countOfList_append, Element.countOfList_map_token]
  omega

/-- White space and comments pay for what is found in them. -/
lemma stock_flush_le : g.flush.stock ≤ g.stock := by
  have hout := output_attachAll_le { g with ahead := significant g.ahead }
    (g.ahead.takeWhile (·.isTrivia))
  have hlength := congrArg List.length (takeWhile_append_significant g.ahead)
  rw [List.length_append] at hlength
  rw [stock, stock, flush_ahead, ← hlength, Nat.mul_add]
  change g.flush.output ≤ g.output + _ at hout
  unfold tokenWorth
  omega

variable {g}

/-- A token that is taken pays for what is found in it, and leaves the rest of its worth. -/
lemma stock_bump {t : Token} {rest : List Token} (h : significant g.ahead = t :: rest) :
    g.bump.stock + tokenWorth ≤ g.stock + 1 := by
  have hflush := g.stock_flush_le
  have hout := output_attachAll_le g.flush [t]
  have hbump : g.bump.output = (g.flush.attachAll [t]).output := by
    rw [bump_of_cons h]
    rfl
  have hahead : g.bump.ahead = rest := by rw [bump_of_cons h]
  rw [stock, flush_ahead, h, List.length_cons, Nat.mul_succ] at hflush
  rw [stock, hbump, hahead]
  rw [List.length_singleton] at hout
  omega

/-- A token that is passed over is a node as well. -/
lemma stock_skip {t : Token} {rest : List Token} (h : significant g.ahead = t :: rest) :
    g.skip.stock + tokenWorth ≤ g.stock + 2 := by
  have hnext : significant g.flush.fresh.ahead = t :: rest := by
    change significant g.flush.ahead = _
    rw [flush_ahead, significant_significant, h]
  have hbump := stock_bump hnext
  have hfresh := g.flush.stock_fresh
  have hflush := g.stock_flush_le
  rw [skip_of_first (lookahead_first_of_significant h), stock_behind, stock_enclose]
  omega

end Gathering

/-! ## Tolls -/

/-- **What is taken out of the stock.** -/
structure Toll where
  /-- Where no token is left. -/
  atEnd : Nat
  /-- Where a token comes next and none is taken, if that may be. -/
  idle : Option Nat
  /-- Where tokens are taken, the worth of one of them aside. -/
  busy : Nat
deriving DecidableEq, Repr

namespace Toll

/-- Behind a token that was taken the worth of a further one pays for what is made there, so that
only what is made without one counts. -/
def behind (c : Toll) : Nat := max c.atEnd (c.idle.getD 0)

/-- Some findings and nodes more. -/
def plus (c : Toll) (n : Nat) : Toll := ⟨c.atEnd + n, c.idle.map (· + n), c.busy + n⟩

/-- One after the other. -/
def seq (c d : Toll) : Toll where
  atEnd := c.atEnd + d.atEnd
  idle := c.idle.bind fun m => d.idle.map (m + ·)
  busy := max (c.busy + d.behind) (c.idle.elim 0 (· + d.busy))

/-- One or the other. -/
instance : Max Toll := ⟨fun c d => ⟨max c.atEnd d.atEnd, max c.idle d.idle, max c.busy d.busy⟩⟩

/-- One or the other, where it is known which of them at the end. -/
def branch (first : Bool) (c d : Toll) : Toll :=
  { max c d with atEnd := if first then c.atEnd else d.atEnd }

/-- What is idle in one of two tolls is so in the greater, and costs no less there. -/
lemma exists_max_eq_some {a : Option Nat} {n : Nat} (h : a = some n) (b : Option Nat) :
    (∃ m, max a b = some m ∧ n ≤ m) ∧ ∃ m, max b a = some m ∧ n ≤ m := by
  subst h
  cases b with
  | none => exact ⟨⟨n, rfl, Nat.le_refl n⟩, ⟨n, rfl, Nat.le_refl n⟩⟩
  | some m => exact ⟨⟨max n m, rfl, Nat.le_max_left ..⟩, ⟨max m n, rfl, Nat.le_max_right ..⟩⟩

/-- Over and over, each time with a token passed over if none was taken. -/
def loop (c : Toll) : Toll := ⟨0, some 0, max c.busy (c.idle.getD 0 + 2)⟩

end Toll

/-- The toll of a nesting level. -/
def Nesting.toll : Nesting → Toll
  | .expression => ⟨1, some 7, 24⟩
  | .signed => ⟨2, none, 5⟩
  | .suffixed => ⟨3, none, 11⟩
  | .type => ⟨2, some 3, 7⟩
  | .array => ⟨1, none, 3⟩

/-- **The toll of a rule.** A nesting level costs the same whatever room there is in it, or else
the report that there is none and the other rule. -/
def Rule.toll : Rule → Toll
  | .done => ⟨0, some 0, 0⟩
  | .bump => ⟨0, none, 1⟩
  | .skip => ⟨0, none, 2⟩
  | .report _ => ⟨1, some 1, 0⟩
  | .seq first second => first.toll.seq second.toll
  | .node _ body | .wrap _ body => body.toll.plus 1
  | .mark body => body.toll
  | .branch test yes no => .branch (test ⟨none, none⟩) yes.toll no.toll
  | .loop _ body => body.toll.loop
  | .nest level otherwise => max level.toll (otherwise.toll.plus 1)

/-- **Whether a token pays for all that is made where it is taken**: behind another one, and in the
round of a loop. -/
def Rule.affordable : Rule → Bool
  | .done | .bump | .skip | .report _ => true
  | .seq first second =>
    decide (second.toll.busy ≤ tokenWorth) && first.affordable && second.affordable
  | .node _ body | .wrap _ body | .mark body => body.affordable
  | .branch _ yes no => yes.affordable && no.affordable
  | .loop stop body =>
    stop ⟨none, none⟩ && decide (body.toll.loop.busy ≤ tokenWorth) && body.affordable
  | .nest _ otherwise => otherwise.affordable

/-- The toll of a nesting level is that of its rule. -/
lemma toll_nested (level : Nesting) : (nested level).toll = level.toll := by
  cases level <;> rfl

/-- A token pays for what is made where it is taken in a nesting level, … -/
lemma affordable_nested (level : Nesting) : (nested level).affordable = true := by
  cases level <;> rfl

/-- … and in a file. -/
lemma affordable_file : file.affordable = true := rfl

/-! ## What a rule costs -/

namespace Gathering

open Toll

/-- Nothing comes after where nothing comes next. -/
lemma lookahead_of_first_eq_none {g : Gathering} (h : g.lookahead.first = none) :
    g.lookahead = ⟨none, none⟩ := by
  rw [lookahead_eq, lookahead_first_eq_none_iff.1 h]
  rfl

/-- **The way from one gathering to another is within a toll.** -/
structure Costs (c : Toll) (g g' : Gathering) : Prop where
  /-- Where no token is left. -/
  atEnd : g.lookahead.first = none → g'.stock ≤ g.stock + c.atEnd
  /-- Where a token comes next and none is taken. -/
  idle : g.lookahead.first ≠ none → g'.cursor = g.cursor →
    ∃ n, c.idle = some n ∧ g'.stock ≤ g.stock + n
  /-- Where tokens are taken. -/
  busy : g'.cursor ≠ g.cursor → g'.stock + tokenWorth ≤ g.stock + c.busy

namespace Costs

variable {c d : Toll} {g g₁ g₂ : Gathering}

/-- At the end no token is taken, so that only that case and those with a next token count. -/
lemma of_le (hle : g₁.stock ≤ g.stock) (hbusy : g₁.cursor ≠ g.cursor → g₁.stock + tokenWorth ≤
    g.stock + c.busy) (hidle : c.idle = some 0) : Costs c g g₁ where
  atEnd _ := hle.trans (Nat.le_add_right ..)
  idle _ _ := ⟨0, hidle, hle⟩
  busy := hbusy

/-- To take the next token costs nothing at the end, and elsewhere cannot be idle. -/
lemma take {n : Nat} (hend : significant g.ahead = [] → g₁ = g)
    (htake : ∀ {t : Token} {rest : List Token}, significant g.ahead = t :: rest →
      g₁.stock + tokenWorth ≤ g.stock + n)
    (hidle : g₁.cursor = g.cursor → g.lookahead.isEnd = true) : Costs ⟨0, none, n⟩ g g₁ where
  atEnd hnone := by
    rw [lookahead_first_eq_none_iff, ← significant_eq_nil_iff] at hnone
    rw [hend hnone]
    exact Nat.le_refl _
  idle hsome hsame := absurd (Option.isNone_iff_eq_none.1 (hidle hsame)) hsome
  busy hne := by
    cases hs : significant g.ahead with
    | nil => exact absurd (congrArg cursor (hend hs)) hne
    | cons t rest => exact htake hs

lemma max_left (h : Costs c g g₁) (d : Toll) : Costs (max c d) g g₁ where
  atEnd hnone := (h.atEnd hnone).trans (Nat.add_le_add_left (Nat.le_max_left ..) _)
  idle hsome hsame := by
    obtain ⟨n, hn, hle⟩ := h.idle hsome hsame
    obtain ⟨m, hm, hnm⟩ := (exists_max_eq_some hn d.idle).1
    exact ⟨m, hm, by omega⟩
  busy hne := (h.busy hne).trans (Nat.add_le_add_left (Nat.le_max_left ..) _)

lemma max_right (h : Costs d g g₁) (c : Toll) : Costs (max c d) g g₁ where
  atEnd hnone := (h.atEnd hnone).trans (Nat.add_le_add_left (Nat.le_max_right ..) _)
  idle hsome hsame := by
    obtain ⟨n, hn, hle⟩ := h.idle hsome hsame
    obtain ⟨m, hm, hnm⟩ := (exists_max_eq_some hn c.idle).2
    exact ⟨m, hm, by omega⟩
  busy hne := (h.busy hne).trans (Nat.add_le_add_left (Nat.le_max_right ..) _)

/-- A choice costs what its outcome does. -/
lemma yes {test : Lookahead → Bool} (htest : test g.lookahead = true) (h : Costs c g g₁) :
    Costs (.branch (test ⟨none, none⟩) c d) g g₁ where
  atEnd hnone := by
    rw [lookahead_of_first_eq_none hnone] at htest
    simpa [Toll.branch, htest] using h.atEnd hnone
  idle := (h.max_left d).idle
  busy := (h.max_left d).busy

lemma no {test : Lookahead → Bool} (htest : test g.lookahead = false) (h : Costs d g g₁) :
    Costs (.branch (test ⟨none, none⟩) c d) g g₁ where
  atEnd hnone := by
    rw [lookahead_of_first_eq_none hnone] at htest
    simpa [Toll.branch, htest] using h.atEnd hnone
  idle := (h.max_right c).idle
  busy := (h.max_right c).busy

/-- What is made besides is added to the toll. -/
lemma plus {g' g₁' : Gathering} {n : Nat} (h : Costs c g' g₁') (hnext : g'.lookahead = g.lookahead)
    (hcursor : g'.cursor = g.cursor) (hcursor₁ : g₁.cursor = g₁'.cursor)
    (hstock : g₁.stock + g'.stock ≤ g₁'.stock + g.stock + n) : Costs (c.plus n) g g₁ where
  atEnd hnone := by
    have hend := h.atEnd (hnext ▸ hnone)
    change _ ≤ _ + (c.atEnd + n)
    omega
  idle hsome hsame := by
    obtain ⟨m, hm, hle⟩ := h.idle (hnext ▸ hsome) (by rw [← hcursor₁, hsame, hcursor])
    exact ⟨m + n, by rw [Toll.plus, hm]; rfl, by omega⟩
  busy hne := by
    have hbusy := h.busy (by rwa [← hcursor₁, hcursor])
    change _ ≤ _ + (c.busy + n)
    omega

/-- A node is made of what is gathered since a new place. -/
lemma node (h : Costs c g.flush.fresh g₁) (kind : NodeKind) :
    Costs (c.plus 1) g ((g₁.enclose kind).behind g.flush.children) := by
  have hfresh := g.flush.stock_fresh
  have hflush := g.stock_flush_le
  refine h.plus (by simp) (flush_cursor g) rfl ?_
  rw [stock_behind, stock_enclose]
  omega

/-- To remember a place costs nothing. -/
lemma mark (h : Costs c g.flush.fresh g₁) : Costs c g (g₁.behind g.flush.children) := by
  have hfresh := g.flush.stock_fresh
  have hflush := g.stock_flush_le
  have hplus : Costs (c.plus 0) g (g₁.behind g.flush.children) := by
    refine h.plus (by simp) (flush_cursor g) rfl ?_
    rw [stock_behind]
    omega
  simpa [Toll.plus] using hplus

/-- Behind a token that was taken, a further one pays for what is made where it is taken. -/
lemma behind (h : Costs c g g₁) (hc : c.busy ≤ tokenWorth) : g₁.stock ≤ g.stock + c.behind := by
  by_cases hnone : g.lookahead.first = none
  · exact (h.atEnd hnone).trans (Nat.add_le_add_left (Nat.le_max_left ..) _)
  by_cases hsame : g₁.cursor = g.cursor
  · obtain ⟨n, hn, hle⟩ := h.idle hnone hsame
    have hmax : n ≤ c.behind := by
      rw [Toll.behind, hn]
      exact Nat.le_max_right ..
    omega
  · have hbusy := h.busy hsame
    omega

/-- **One after the other.** Where the first takes tokens, the second is paid for by its own. -/
lemma seq {m n : Nat} (h₁ : Costs c g g₁) (h₂ : Costs d g₁ g₂) (ht₁ : Takes m g g₁)
    (ht₂ : Takes n g₁ g₂) (hd : d.busy ≤ tokenWorth) : Costs (c.seq d) g g₂ where
  atEnd hnone := by
    have hnone₁ : g₁.lookahead.first = none := by
      rw [lookahead_first_eq_none_iff] at hnone ⊢
      rw [ht₁.1, hnone, List.drop_nil]
    have hfirst := h₁.atEnd hnone
    have hsecond := h₂.atEnd hnone₁
    change _ ≤ _ + (c.atEnd + d.atEnd)
    omega
  idle hsome hsame := by
    obtain ⟨hp, hc₁, -⟩ := ht₁
    obtain ⟨-, hc₂, -⟩ := ht₂
    obtain rfl : m = 0 := by omega
    obtain ⟨i, hi, hfirst⟩ := h₁.idle hsome hc₁
    obtain ⟨j, hj, hsecond⟩ := h₂.idle (by rwa [lookahead_congr hp]) (by omega)
    exact ⟨i + j, by simp [Toll.seq, hi, hj], by omega⟩
  busy hne := by
    by_cases hsame : g₁.cursor = g.cursor
    · have hsome : g.lookahead.first ≠ none := by
        obtain ⟨hp, -, -⟩ := ht₁
        obtain ⟨-, hc₂, hl⟩ := ht₂
        intro hnone
        rw [hp, lookahead_first_eq_none_iff.1 hnone, List.drop_nil, List.length_nil] at hl
        omega
      obtain ⟨i, hi, hfirst⟩ := h₁.idle hsome hsame
      have hsecond := h₂.busy (by omega)
      have hmax : i + d.busy ≤ (c.seq d).busy := by
        simp only [Toll.seq, hi]
        exact Nat.le_max_right ..
      omega
    · have hfirst := h₁.busy hsame
      have hsecond := h₂.behind hd
      have hmax : c.busy + d.behind ≤ (c.seq d).busy := Nat.le_max_left ..
      omega

/-- **A round of a loop** is paid for by a token that is taken in it or passed over behind it. -/
lemma progress {m : Nat} (h : Costs c g g₁) (ht : Takes m g g₁)
    (hsome : g.lookahead.first ≠ none) :
    (g₁.progress g.cursor).stock + tokenWorth ≤ g.stock + c.loop.busy := by
  rw [Gathering.progress]
  split
  · next hsame =>
    obtain ⟨n, hn, hle⟩ := h.idle hsome hsame
    obtain ⟨hp, hc, -⟩ := ht
    obtain rfl : m = 0 := by omega
    obtain ⟨k, hk⟩ := Option.ne_none_iff_exists'.1 hsome
    rw [← lookahead_congr hp] at hk
    obtain ⟨t, rest, hs, -⟩ := exists_significant_of_first hk
    have hskip := stock_skip hs
    have hmax : n + 2 ≤ c.loop.busy := by
      simp only [Toll.loop, hn]
      exact Nat.le_max_right ..
    omega
  · next hmoved =>
    have hbusy := h.busy hmoved
    have hmax : c.busy ≤ c.loop.busy := Nat.le_max_left ..
    omega

end Costs

end Gathering

open Gathering

variable {room : Nat} {r : Rule} {g g' : Gathering}

/-- **A rule takes no more out of the stock than its toll**, however many levels may nest.

**Proof sketch.** Induction on the derivation. A nesting level has the toll of its rule, so that the
room does not matter; and the rounds of a loop behind the first are paid for by their tokens. -/
theorem Derives.costs (h : Derives nested room r g g') (hr : r.affordable = true) :
    Costs r.toll g g' := by
  induction h with
  | done => exact .of_le (Nat.le_refl _) (fun hne => absurd rfl hne) rfl
  | @seq room first second g g₁ g₂ h₁ h₂ ih₁ ih₂ =>
    simp only [Rule.affordable, Bool.and_eq_true, decide_eq_true_eq] at hr
    obtain ⟨m, hm⟩ := h₁.takes
    obtain ⟨n, hn⟩ := h₂.takes
    exact (ih₁ hr.1.2).seq (ih₂ hr.2) hm hn hr.1.1
  | bump => exact .take bump_of_nil stock_bump fun h => isEnd_of_cursor_eq (.inr h)
  | skip => exact .take skip_of_nil stock_skip fun h => isEnd_of_cursor_eq (.inl h)
  | report =>
    exact ⟨fun _ => (stock_report ..).le, fun _ _ => ⟨1, rfl, (stock_report ..).le⟩,
      fun hne => absurd rfl hne⟩
  | node _ ih => exact (ih hr).node _
  | mark _ ih => exact (ih hr).mark
  | @wrap room kind body g g₁ _ ih =>
    exact (ih hr).plus rfl rfl rfl (by rw [stock_enclose]; omega)
  | yes htest _ ih => exact (ih (Bool.and_eq_true_iff.1 hr).1).yes htest
  | no htest _ ih => exact (ih (Bool.and_eq_true_iff.1 hr).2).no htest
  | stop => exact .of_le (Nat.le_refl _) (fun hne => absurd rfl hne) rfl
  | @step room stop body g g₁ g₂ hstop h₁ h₂ ih₁ ih₂ =>
    have hrest := ih₂ hr
    simp only [Rule.affordable, Bool.and_eq_true, decide_eq_true_eq] at hr
    obtain ⟨m, hm⟩ := h₁.takes
    have hsome : g.lookahead.first ≠ none :=
      mt lookahead_first_eq_none_iff.1 (pending_ne_nil_of_not_stop hr.1.1 hstop)
    have hround := (ih₁ hr.2).progress hm hsome
    have hrounds : g₂.stock ≤ _ := hrest.behind hr.1.2
    change _ ≤ _ + 0 at hrounds
    refine .of_le (by omega) (fun _ => ?_) rfl
    change _ ≤ _ + body.toll.loop.busy
    omega
  | nest _ ih =>
    rw [Rule.toll]
    exact (toll_nested _ ▸ ih (affordable_nested _)).max_left _
  | @full level otherwise g g₁ _ ih =>
    have hreport : (g.report tooDeep).stock = g.stock + 1 := stock_report ..
    rw [Rule.toll]
    have hfull : Costs (otherwise.toll.plus 1) g g₁ :=
      (ih hr).plus rfl rfl rfl (by omega)
    exact hfull.max_right _

/-- **The output for a file**, whatever the limit of the nesting is. -/
theorem Derives.output_finish_le {tokens : List Token}
    (h : Derives nested room file (.ofTokens tokens) g) :
    g.finish.output ≤ tokenWorth * tokens.length := by
  have hcosts := (h.costs affordable_file).behind (by decide)
  have hfinish := output_attachAll_le { g with ahead := [] } g.ahead
  have hstart : (Gathering.ofTokens tokens).stock = tokenWorth * tokens.length := by
    simp [stock, output, Gathering.ofTokens, Element.countOfList]
  change g.finish.output ≤ g.output + _ at hfinish
  change _ ≤ _ + 0 at hcosts
  rw [hstart, stock] at hcosts
  unfold tokenWorth at hcosts ⊢
  omega

end Grammar

/-! ## The whole parse -/

/-- **The tree and the diagnostics of a stream of tokens** where no more than `limit` levels may
nest. -/
def parseTokensWithin (limit : Nat) (tokens : List Token) : Node × List Diagnostic :=
  let s := Grammar.State.ofTokens tokens
  let s := (Grammar.file.run (Grammar.descend Grammar.nested limit) s.builder.checkpoint s).finish
  (s.builder.finish, Diagnostic.sort s.diagnostics.toList)

open Grammar in
/-- They are those of a derivation with room for so many levels. -/
lemma exists_parseTokensWithin_eq (limit : Nat) (tokens : List Token) :
    ∃ g, Derives nested limit file (.ofTokens tokens) g ∧
      parseTokensWithin limit tokens =
        (Node.ofChildren .file g.finish.children g.finish.offset,
          Diagnostic.sort g.finish.diagnostics) := by
  obtain ⟨g, hg⟩ : ∃ g, Derives nested limit file (.ofTokens tokens) g :=
    exists_derives wellFormed_nested file wellFormed_file _
  have hrun : file.run (descend nested limit) (State.ofTokens tokens).builder.checkpoint
      (State.ofTokens tokens) = Surroundings.root.around g :=
    hg.run_around wellFormed_nested wellFormed_file Surroundings.root _ nofun
  refine ⟨g, hg, ?_⟩
  rw [parseTokensWithin, hrun, Surroundings.around_finish]
  rfl

/-- **Linear output.** One constant bounds the diagnostics and the nodes of every parse by the
number of its tokens, and it does so for every limit of the nesting.

**Proof sketch.** Each token brings a stock of `tokenWorth` with it, and the rule of a file costs
nothing but what its tokens pay for. The root is one node more. -/
theorem parseTokens_linear :
    ∃ c : Nat,
      (∀ tokens : List Token,
        (parseTokens tokens).2.length ≤ c * (tokens.length + 1) ∧
          (parseTokens tokens).1.count ≤ c * (tokens.length + 1)) ∧
      ∀ (limit : Nat) (tokens : List Token),
        (parseTokensWithin limit tokens).2.length ≤ c * (tokens.length + 1) ∧
          (parseTokensWithin limit tokens).1.count ≤ c * (tokens.length + 1) := by
  have hlimit (limit : Nat) (tokens : List Token) :
      (parseTokensWithin limit tokens).2.length ≤ Grammar.tokenWorth * (tokens.length + 1) ∧
        (parseTokensWithin limit tokens).1.count ≤ Grammar.tokenWorth * (tokens.length + 1) := by
    obtain ⟨g, hg, heq⟩ := exists_parseTokensWithin_eq limit tokens
    have hout := hg.output_finish_le
    have hsort : (Diagnostic.sort g.finish.diagnostics).length = g.finish.diagnostics.length :=
      List.length_mergeSort _
    rw [Grammar.Gathering.output] at hout
    rw [heq, Node.ofChildren, Node.count, hsort]
    unfold Grammar.tokenWorth at hout ⊢
    exact ⟨by omega, by omega⟩
  exact ⟨Grammar.tokenWorth, hlimit maxNesting, hlimit⟩

end TxTree
