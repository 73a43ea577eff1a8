import Mathlib.Computability.Language
import Mathlib.Order.CompletePartialOrder
import TxTree.Proofs.Assurance

set_option relaxedAutoImplicit false
set_option autoImplicit false

/-!
# What rules make of words

The parts that are gathered while a rule is followed form words, and which words these can be is a
language. A rule turns the words of one language into those of another; mostly it adds a word behind
what is there, and then what it adds is a product for a rule behind another, and a sum for a choice.
Where an error is reported on the way, the words behind it are words only if errors may be found.

## Main definitions

* `TxTree.Grammar.token`, `TxTree.Grammar.node` — the words of a single token or node.
* `TxTree.Grammar.words` — the words with tokens of some kinds, and certain nodes.
* `TxTree.Grammar.amiss` — the words of a language that are there only behind an error.
* `TxTree.Grammar.Rule.Turns` — a rule turns words of one language into words of another.
* `TxTree.Grammar.Rule.Adds` — a rule adds words of a language.

## Main results

* `TxTree.Grammar.Rule.Turns.seq`, `TxTree.Grammar.Rule.Turns.branch`, `TxTree.Grammar.turns_wrap`,
  `TxTree.Grammar.turns_loop` — what rules do that are made of others.
* `TxTree.Grammar.Rule.Adds.seq`, `TxTree.Grammar.adds_node`, `TxTree.Grammar.adds_itemsThrough` —
  what they add.
-/

namespace TxTree.Grammar

open Rule

/-! ## Words -/

/-- The words of one token of a kind. -/
def token (p : TokenKind → Bool) : Language Element :=
  {ps | ∃ t : Token, p t.kind = true ∧ ps = [.token t]}

/-- The words of one node. -/
def node (q : Node → Prop) : Language Element := {ps | ∃ n : Node, q n ∧ ps = [.node n]}

/-- The lists of one node. -/
def one (q : Node → Prop) : Language Node := {ns | ∃ n : Node, q n ∧ ns = [n]}

/-- The lists of such nodes. -/
def every (q : Node → Prop) : Language Node := {ns | ∀ n ∈ ns, q n}

/-- **The words with tokens of some kinds**, and certain nodes between them. -/
def words (p : TokenKind → Bool) (N : Language Node) : Language Element :=
  {ps | (∀ t, .token t ∈ ps → p t.kind = true) ∧ ps.filterMap Element.node? ∈ N}

/-- The words that are there only behind an error. -/
def amiss {α : Type} (faulty : Prop) (L : Language α) : Language α := {ps | faulty ∧ ps ∈ L}

section Words

variable {c : Contract} {p p' : TokenKind → Bool} {q q' : Node → Prop} {L M : Language Element}
  {N N' : Language Node}

lemma node_mono (hq : ∀ n, q n → q' n) : node q ≤ node q' := by
  rintro _ ⟨n, hn, rfl⟩
  exact ⟨n, hq n hn, rfl⟩

lemma one_le_every (hq : ∀ n, q n → q' n) : one q ≤ every q' := by
  rintro _ ⟨n, hn, rfl⟩ m hm
  rw [List.mem_singleton.1 hm]
  exact hq n hn

lemma every_mul_le (q : Node → Prop) : every q * every q ≤ every q := by
  rintro _ ⟨ms, hms, ns, hns, rfl⟩ n hn
  exact (List.mem_append.1 hn).elim (hms n) (hns n)

lemma unit_le_every (q : Node → Prop) : 1 ≤ every q := by
  rintro _ rfl n hn
  cases hn

lemma words_mono (hp : ∀ k, p k = true → p' k = true) (hN : N ≤ N') : words p N ≤ words p' N' :=
  fun _ h => ⟨fun t ht => hp _ (h.1 t ht), hN h.2⟩

lemma words_le (hN : N ≤ N') : words p N ≤ words p N' := words_mono (fun _ => id) hN

lemma token_le_words (hp : ∀ k, p k = true → p' k = true) : token p ≤ words p' 1 := by
  rintro _ ⟨t, ht, rfl⟩
  refine ⟨fun u hu => ?_, rfl⟩
  rw [Element.token.inj (List.mem_singleton.1 hu)]
  exact hp _ ht

lemma node_le_words (p : TokenKind → Bool) (q : Node → Prop) : node q ≤ words p (one q) := by
  rintro _ ⟨n, hn, rfl⟩
  exact ⟨fun t ht => (nomatch List.mem_singleton.1 ht), n, hn, rfl⟩

/-- A word behind another. -/
lemma words_mul_le (p : TokenKind → Bool) (N N' : Language Node) :
    words p N * words p N' ≤ words p (N * N') := by
  rintro _ ⟨ps, hps, qs, hqs, rfl⟩
  refine ⟨fun t ht => (List.mem_append.1 ht).elim (hps.1 t) (hqs.1 t), ?_⟩
  rw [List.filterMap_append]
  exact Language.append_mem_mul hps.2 hqs.2

/-- A word behind a token is one with the same nodes. -/
lemma token_mul_words_le (hp : ∀ k, p k = true → p' k = true) :
    token p * words p' N ≤ words p' N := by
  refine (mul_le_mul_left (token_le_words hp) _).trans ?_
  exact (words_mul_le p' 1 N).trans (by rw [one_mul])

/-- A token behind a word. -/
lemma words_mul_token_le (hp : ∀ k, p k = true → p' k = true) :
    words p' N * token p ≤ words p' N := by
  refine (mul_le_mul_right (token_le_words hp) _).trans ?_
  exact (words_mul_le p' N 1).trans (by rw [mul_one])

lemma amiss_le {α : Type} (faulty : Prop) (L : Language α) : amiss faulty L ≤ L := fun _ h => h.2

lemma amiss_mono {faulty : Prop} (h : L ≤ M) : amiss faulty L ≤ amiss faulty M :=
  fun _ hps => ⟨hps.1, h hps.2⟩

/-- What may be missing behind an error may be missing. -/
lemma add_amiss_le {α : Type} {L : Language α} (faulty : Prop) (h : 1 ≤ L) :
    L + amiss faulty 1 ≤ L :=
  add_le le_rfl ((amiss_le faulty 1).trans h)

lemma amiss_words_le (faulty : Prop) (p : TokenKind → Bool) (N : Language Node) :
    amiss faulty (words p N) ≤ words p (amiss faulty N) :=
  fun _ h => ⟨h.2.1, h.1, h.2.2⟩

/-- A word that begins with a token. -/
lemma exists_cons_of_mem_token_mul {ps : List Element} (h : ps ∈ token p * L) :
    ∃ (t : Token) (qs : List Element), p t.kind = true ∧ qs ∈ L ∧ ps = .token t :: qs := by
  obtain ⟨_, ⟨t, ht, rfl⟩, qs, hqs, rfl⟩ := h
  exact ⟨t, qs, ht, hqs, rfl⟩

end Words

/-! ## Turning words -/

/-- **A view ends in another** with a word; that settles the step of a loop that it was in, or
leaves it as settled as it was. -/
structure View.Ends (settles : Bool) (L : Language Element) (v w : View) : Prop where
  /-- What was settled stays so. -/
  settled : (v.settled || settles) = true → w.settled = true
  /-- What was taken stays so. -/
  moved : v.moved = true → w.moved = true
  /-- All parts form a word. -/
  parts : w.parts ∈ L

/-- **A rule turns words of one language into words of another** where `P` holds of what comes
next. -/
def Rule.Turns (c : Contract) (full : Prop) (settles : Bool) (P : Lookahead → Prop)
    (L M : Language Element) (r : Rule) : Prop :=
  ∀ v : View, P v.lookahead → v.parts ∈ L → r.Assures c full (v.Ends settles M) v

/-- A rule turns words of one language into words of another, and takes a token. -/
def Rule.Moves (c : Contract) (full : Prop) (P : Lookahead → Prop) (L M : Language Element)
    (r : Rule) : Prop :=
  ∀ v : View, P v.lookahead → v.parts ∈ L →
    r.Assures c full (fun w => v.Ends true M w ∧ w.moved = true) v

/-- **A rule adds words of a language** where `P` holds of what comes next. -/
def Rule.Adds (c : Contract) (full : Prop) (settles : Bool) (P : Lookahead → Prop)
    (L : Language Element) (r : Rule) : Prop :=
  ∀ M : Language Element, r.Turns c full settles P M (M * L)

section Turning

variable {c : Contract} {full : Prop} {s s' : Bool} {P P' : Lookahead → Prop}
  {L L' M M' K : Language Element} {r first second yes no : Rule} {kind : TokenKind}
  {p p' : TokenKind → Bool} {q : Node → Prop}

/-- A rule that turns words of a language turns those of a smaller one, and into those of a greater
one. -/
lemma Rule.Turns.mono (h : r.Turns c full s P L M) (hP : ∀ l, P' l → P l) (hL : L' ≤ L)
    (hM : M ≤ M') : r.Turns c full s P' L' M' :=
  fun v hv hparts => (h v (hP _ hv) (hL hparts)).mono fun _ hw =>
    ⟨hw.settled, hw.moved, hM hw.parts⟩

lemma Rule.Turns.le (h : r.Turns c full s P L M) (hM : M ≤ M') : r.Turns c full s P L M' :=
  h.mono (fun _ => id) le_rfl hM

/-- What is known of what comes next need not be used. -/
lemma Rule.Turns.of_true (h : r.Turns c full s (fun _ => True) L M) : r.Turns c full s P L M :=
  h.mono (fun _ _ => trivial) le_rfl le_rfl

/-- What settles a step need not be said to. -/
lemma Rule.Turns.weaken (h : r.Turns c full s P L M) : r.Turns c full false P L M := by
  intro v hv hparts
  refine (h v hv hparts).mono fun w hw => ⟨fun hsettled => hw.settled ?_, hw.moved, hw.parts⟩
  rw [Bool.or_false] at hsettled
  rw [hsettled, Bool.true_or]

lemma turns_done : done.Turns c full false P L L :=
  fun _ _ hparts => ⟨by rw [Bool.or_false]; exact id, id, hparts⟩

/-- One rule and then another. -/
lemma Rule.Turns.seq (h : first.Turns c full s P L M)
    (h' : second.Turns c full s' (fun _ => True) M K) :
    (first ++ second).Turns c full (s || s') P L K := by
  intro v hv hparts
  refine (h v hv hparts).mono fun w hw => (h' w trivial hw.parts).mono fun x hx => ?_
  refine ⟨fun hsettled => hx.settled ?_, fun hmoved => hx.moved (hw.moved hmoved), hx.parts⟩
  rw [← Bool.or_assoc, Bool.or_eq_true] at hsettled
  rw [Bool.or_eq_true]
  exact hsettled.imp_left hw.settled

/-- A token of a kind that is known to come next is taken. -/
lemma moves_bump (hP : ∀ l, P l → l.startsWith p = true) :
    bump.Moves c full P L (L * token p) := by
  intro v hv hparts
  have hfirst := hP _ hv
  refine ⟨fun hnone => ?_, fun t next ht _ => ⟨⟨fun _ => rfl, fun _ => rfl, ?_⟩, rfl⟩⟩
  · rw [Lookahead.startsWith, hnone] at hfirst
    cases hfirst
  · rw [Lookahead.startsWith, ht] at hfirst
    exact Language.append_mem_mul hparts ⟨t, hfirst, rfl⟩

/-- A rule that takes a token takes one together with another behind it. -/
lemma Rule.Moves.append (h : first.Moves c full P L M)
    (h' : second.Turns c full s (fun _ => True) M K) : (first ++ second).Moves c full P L K := by
  intro v hv hparts
  refine (h v hv hparts).mono fun w hw => (h' w trivial hw.1.parts).mono fun x hx => ?_
  refine ⟨⟨fun hsettled => hx.settled ?_, fun _ => hx.moved hw.2, hx.parts⟩, hx.moved hw.2⟩
  rw [hw.1.settled hsettled, Bool.true_or]

lemma Rule.Moves.le (h : r.Moves c full P L M) (hM : M ≤ M') : r.Moves c full P L M' :=
  fun v hv hparts => (h v hv hparts).mono fun _ hw =>
    ⟨⟨hw.1.settled, hw.1.moved, hM hw.1.parts⟩, hw.2⟩

lemma Rule.Moves.turns (h : r.Moves c full P L M) : r.Turns c full true P L M :=
  fun v hv hparts => (h v hv hparts).mono fun _ hw => hw.1

/-- A token is taken, and what came after it is known to come next. -/
lemma turns_bump_append (hP : ∀ l, P l → l.startsWith p = true)
    (hnext : ∀ l m : Lookahead, P l → m.first = l.second → P' m)
    (h : r.Turns c full s P' (L * token p) M) : (.bump ++ r : Rule).Turns c full true P L M := by
  intro v hv hparts
  have hfirst := hP _ hv
  refine ⟨fun hnone => ?_, fun t next ht hsecond => ?_⟩
  · rw [Lookahead.startsWith, hnone] at hfirst
    cases hfirst
  · rw [Lookahead.startsWith, ht] at hfirst
    refine (h (v.take t next) (hnext _ _ hv hsecond)
      (Language.append_mem_mul hparts ⟨t, hfirst, rfl⟩)).mono fun w hw => ?_
    exact ⟨fun _ => hw.settled rfl, fun _ => hw.moved rfl, hw.parts⟩

/-- Behind an error all that follows is amiss. -/
lemma turns_report_append (message : String) (h : c.faulty → r.Turns c full s P L M) :
    (.report message ++ r : Rule).Turns c full true P L (amiss c.faulty M) :=
  fun v hv hparts hfaulty => (h hfaulty v.report hv hparts).mono fun _ hw =>
    ⟨fun _ => hw.settled rfl, hw.moved, hfaulty, hw.parts⟩

/-- A choice. -/
lemma Rule.Turns.branch {test : Lookahead → Bool}
    (hyes : yes.Turns c full s (fun l => P l ∧ test l = true) L M)
    (hno : no.Turns c full s (fun l => P l ∧ test l = false) L M) :
    (Rule.branch test yes no).Turns c full s P L M :=
  fun v hv hparts => ⟨fun ht => hyes v ⟨hv, ht⟩ hparts, fun ht => hno v ⟨hv, ht⟩ hparts⟩

/-- From a new place on a rule turns nothing into a word. -/
lemma adds_mark (h : r.Turns c full s P 1 L) : (mark r).Adds c full s P L :=
  fun _ v hv hparts => (h v.fresh hv rfl).mono fun _ hw =>
    ⟨hw.settled, hw.moved, Language.append_mem_mul hparts hw.parts⟩

/-- **A node is added** that has a word of its body for its parts. -/
lemma adds_node {k : NodeKind} (hk : k ≠ .error) (h : r.Turns c full s P 1 L)
    (hlaw : ∀ n : Node, n.kind = k → n.parts ∈ L → c.law n ∧ q n) :
    (Rule.node k r).Adds c full s P (node q) := by
  intro M v hv hparts
  refine ⟨hk, (h v.fresh hv rfl).mono fun w hw n hn hn' => ?_⟩
  obtain ⟨hlawful, hq⟩ := hlaw n hn (hn' ▸ hw.parts)
  exact ⟨hlawful, hw.settled, hw.moved, Language.append_mem_mul hparts ⟨n, hq, rfl⟩⟩

/-- **A node takes over** what is gathered, turned into a word by its body. -/
lemma turns_wrap {k : NodeKind} (hk : k ≠ .error) (h : r.Turns c full s P L M)
    (hlaw : ∀ n : Node, n.kind = k → n.parts ∈ M → c.law n ∧ q n) :
    (wrap k r).Turns c full s P L (node q) := by
  intro v hv hparts
  refine ⟨hk, (h v hv hparts).mono fun w hw n hn hn' => ?_⟩
  obtain ⟨hlawful, hq⟩ := hlaw n hn (hn' ▸ hw.parts)
  exact ⟨hlawful, hw.settled, hw.moved, n, hq, rfl⟩

/-- **A loop keeps to a language** that its steps keep to, and that takes in the tokens that are
passed over. -/
lemma turns_loop {stop : Lookahead → Bool} (h : r.Turns c full true (fun l => stop l = false) M M)
    (herror : c.faulty → M * node (·.kind = .error) ≤ M) :
    (loop stop r).Turns c full false P M M := by
  intro v _ hparts
  refine ⟨fun _ ps => ps ∈ M, hparts, fun next ps hps => ⟨fun _ => ⟨?_, id, hps⟩, fun hstop => ?_⟩⟩
  · rw [Bool.or_false]
    exact id
  · refine (h _ hstop hps).mono fun w hw => ⟨hw.settled (Bool.or_true _), hw.parts, ?_⟩
    exact fun hfaulty _ n _ hn => herror hfaulty (Language.append_mem_mul hw.parts ⟨n, hn, rfl⟩)

/-- In a loop whose steps take a token none is passed over. -/
lemma turns_loop_of_moves {stop : Lookahead → Bool}
    (h : r.Moves c full (fun l => stop l = false) M M) :
    (loop stop r).Turns c full false P M M := by
  intro v _ hparts
  refine ⟨fun _ ps => ps ∈ M, hparts, fun next ps hps => ⟨fun _ => ⟨?_, id, hps⟩, fun hstop => ?_⟩⟩
  · rw [Bool.or_false]
    exact id
  · refine (h _ hstop hps).mono fun w hw => ⟨hw.1.settled rfl, hw.1.parts, fun _ hmoved => ?_⟩
    rw [hw.2] at hmoved
    cases hmoved

/-- A loop that does not stop at once makes a step. -/
lemma turns_loop_of_not_stop {stop : Lookahead → Bool} (hP : ∀ l, P l → stop l = false)
    (hfirst : r.Moves c full (fun l => stop l = false) L M)
    (h : r.Moves c full (fun l => stop l = false) M M) :
    (loop stop r).Turns c full false P L M := by
  intro v hv hparts
  refine ⟨fun next ps => P next ∧ ps ∈ L ∨ ps ∈ M, .inl ⟨hv, hparts⟩, fun next ps hps => ?_⟩
  refine ⟨fun hstop => ⟨by rw [Bool.or_false]; exact id, id, ?_⟩, fun hstop => ?_⟩
  · refine hps.resolve_left fun hps => ?_
    rw [hP _ hps.1] at hstop
    cases hstop
  · have hstep : ∀ w : View, View.Ends true M ⟨next, ps, false, false, false⟩ w ∧ w.moved = true →
        w.settled = true ∧ (P w.lookahead ∧ w.parts ∈ L ∨ w.parts ∈ M) ∧ (c.faulty →
          w.moved = false → ∀ (n : Node) (next : Lookahead), n.kind = .error →
            P next ∧ w.parts ++ [.node n] ∈ L ∨ w.parts ++ [.node n] ∈ M) := by
      rintro w ⟨hw, hmoved⟩
      refine ⟨hw.settled rfl, .inr hw.parts, fun _ hstill => ?_⟩
      rw [hmoved] at hstill
      cases hstill
    exact hps.elim (fun hps => (hfirst _ hstop hps.2).mono hstep)
      fun hps => (h _ hstop hps).mono hstep

/-! ### Adding words -/

/-- A word is added behind the parts that are there. -/
lemma Rule.Adds.assures (h : r.Adds c full s P L) {v : View} (hv : P v.lookahead) :
    r.Assures c full (fun w => ((v.settled || s) = true → w.settled = true) ∧
      ∃ qs ∈ L, w.parts = v.parts ++ qs) v := by
  refine (h {v.parts} v hv rfl).mono fun w hw => ⟨hw.settled, ?_⟩
  obtain ⟨_, rfl, qs, hqs, heq⟩ := hw.parts
  exact ⟨qs, hqs, heq.symm⟩

/-- Where nothing was gathered, all parts are those that are added. -/
lemma Rule.Adds.turns (h : r.Adds c full s P L) : r.Turns c full s P 1 L :=
  (h 1).le (by rw [one_mul])

lemma Rule.Adds.mono (h : r.Adds c full s P L) (hP : ∀ l, P' l → P l) (hL : L ≤ L') :
    r.Adds c full s P' L' :=
  fun M => (h M).mono hP le_rfl (mul_le_mul_right hL M)

lemma Rule.Adds.le (h : r.Adds c full s P L) (hL : L ≤ L') : r.Adds c full s P L' :=
  h.mono (fun _ => id) hL

lemma Rule.Adds.of_true (h : r.Adds c full s (fun _ => True) L) : r.Adds c full s P L :=
  h.mono (fun _ _ => trivial) le_rfl

lemma Rule.Adds.weaken (h : r.Adds c full s P L) : r.Adds c full false P L := fun M => (h M).weaken

lemma adds_done : done.Adds c full false P 1 := fun M => turns_done.le (by rw [mul_one])

lemma adds_bump (hP : ∀ l, P l → l.startsWith p = true) : bump.Adds c full true P (token p) :=
  fun _ => (moves_bump hP).turns

/-- One rule and then another add a product. -/
lemma Rule.Adds.seq (h : first.Adds c full s P L) (h' : second.Adds c full s' (fun _ => True) L') :
    (first ++ second).Adds c full (s || s') P (L * L') :=
  fun M => ((h M).seq (h' (M * L))).le (by rw [mul_assoc])

lemma adds_bump_append (hP : ∀ l, P l → l.startsWith p = true)
    (hnext : ∀ l m : Lookahead, P l → m.first = l.second → P' m) (h : r.Adds c full s P' L) :
    (.bump ++ r : Rule).Adds c full true P (token p * L) :=
  fun M => turns_bump_append hP hnext ((h (M * token p)).le (by rw [mul_assoc]))

lemma amiss_mul_le (faulty : Prop) (M L : Language Element) :
    amiss faulty (M * L) ≤ M * amiss faulty L := by
  rintro _ ⟨hfaulty, ps, hps, qs, hqs, rfl⟩
  exact Language.append_mem_mul hps ⟨hfaulty, hqs⟩

lemma amiss_mul_right_le (faulty : Prop) (L M : Language Element) :
    amiss faulty L * M ≤ amiss faulty (L * M) := by
  rintro _ ⟨ps, ⟨hfaulty, hps⟩, qs, hqs, rfl⟩
  exact ⟨hfaulty, Language.append_mem_mul hps hqs⟩

lemma adds_report_append (message : String) (h : c.faulty → r.Adds c full s P L) :
    (.report message ++ r : Rule).Adds c full true P (amiss c.faulty L) :=
  fun M => (turns_report_append message fun hfaulty => h hfaulty M).le (amiss_mul_le c.faulty M L)

lemma adds_report (message : String) : (report message).Adds c full true P (amiss c.faulty 1) :=
  fun _ _ _ hparts hfaulty =>
    ⟨fun _ => rfl, id, _, hparts, [], ⟨hfaulty, rfl⟩, List.append_nil _⟩

/-- A token that is reported is passed over. -/
lemma adds_reject (hP : ∀ l, P l → l.first ≠ none) (message : String) :
    (reject message).Adds c full true P (amiss c.faulty (node (·.kind = .error))) :=
  fun _ _ hv hparts hfaulty => ⟨hP _ hv, rfl, fun _ n _ hn _ =>
    ⟨fun _ => rfl, fun _ => rfl, Language.append_mem_mul hparts ⟨hfaulty, n, hn, rfl⟩⟩⟩

/-- A choice. -/
lemma Rule.Adds.branch {test : Lookahead → Bool}
    (hyes : yes.Adds c full s (fun l => P l ∧ test l = true) L)
    (hno : no.Adds c full s (fun l => P l ∧ test l = false) L) :
    (Rule.branch test yes no).Adds c full s P L :=
  fun M => (hyes M).branch (hno M)

/-- A nesting level, or another rule where there is no room for it. -/
lemma turns_nest {level : Nesting} {otherwise : Rule}
    (hentry : ∀ l, P l → ∀ ps ∈ L, c.entry level l ps)
    (hresult : ∀ ps ∈ L, ∀ qs, c.result level ps qs → qs ∈ M)
    (hother : full → c.faulty → otherwise.Turns c full s P L M) :
    (nest level otherwise).Turns c full true P L M := by
  intro v hv hparts
  refine ⟨hentry _ hv _ hparts, fun w hsettled hmoved hw => ?_, fun hfull hfaulty => ?_⟩
  · exact ⟨fun _ => hsettled, hmoved.trans, hresult _ hparts _ hw⟩
  · exact (hother hfull hfaulty v.report hv hparts).mono fun w hw =>
      ⟨fun _ => hw.settled rfl, hw.moved, hw.parts⟩

lemma adds_nest {level : Nesting} {otherwise : Rule}
    (hentry : ∀ l, P l → ∀ ps, c.entry level l ps)
    (hresult : ∀ ps qs, c.result level ps qs → ∃ w ∈ L, qs = ps ++ w)
    (hother : full → c.faulty → otherwise.Adds c full s P L) :
    (nest level otherwise).Adds c full true P L := by
  refine fun M => turns_nest (fun l hl ps _ => hentry l hl ps) (fun ps hps qs hqs => ?_)
    fun hfull hfaulty => hother hfull hfaulty M
  obtain ⟨w, hw, rfl⟩ := hresult ps qs hqs
  exact Language.append_mem_mul hps hw

/-- **A loop adds words of a language** that takes in what its steps add, and the tokens that are
passed over. -/
lemma adds_loop {stop : Lookahead → Bool} (h : r.Adds c full true (fun l => stop l = false) L)
    (hunit : 1 ≤ L') (hstep : L' * L ≤ L')
    (herror : c.faulty → L' * node (·.kind = .error) ≤ L') :
    (loop stop r).Adds c full false P L' := by
  intro M
  refine (turns_loop ((h (M * L')).le ?_) fun hfaulty => ?_).mono (fun _ => id) ?_ le_rfl
  · rw [mul_assoc]
    exact mul_le_mul_right hstep M
  · rw [mul_assoc]
    exact mul_le_mul_right (herror hfaulty) M
  · exact (mul_one M).symm.le.trans (mul_le_mul_right hunit M)

/-! ### Common rules -/

lemma startsWith_of_starts {l : Lookahead} (h : l.starts kind = true) :
    l.startsWith (· == kind) = true :=
  Lookahead.starts_eq kind l ▸ h

lemma first_ne_none_of_not_isEnd {l : Lookahead} (h : l.isEnd = false) : l.first ≠ none := by
  intro hnone
  rw [Lookahead.isEnd, hnone] at h
  cases h

lemma first_ne_none_of_not_endsList {close : TokenKind} {l : Lookahead}
    (h : l.endsList close = false) : l.first ≠ none := by
  intro hnone
  rw [Lookahead.endsList, hnone] at h
  cases h

lemma adds_bump_of_starts (hP : ∀ l, P l → l.starts kind = true) :
    bump.Adds c full true P (token (· == kind)) :=
  adds_bump fun l h => startsWith_of_starts (hP l h)

/-- A choice by the kind of token that comes next, which is then taken. -/
lemma adds_expectThen (message : String) (hyes : yes.Adds c full s (fun _ => True) L)
    (hno : c.faulty → no.Adds c full s' (fun _ => True) L') :
    (expectThen kind message yes no).Adds c full true P
      (token (· == kind) * L + amiss c.faulty L') :=
  Rule.Adds.branch (((adds_bump_of_starts fun _ h => h.2).seq hyes).le le_self_add)
    ((adds_report_append message fun hfaulty => (hno hfaulty).of_true).le le_add_self)

lemma adds_expect (message : String) :
    (expect kind message).Adds c full true P (token (· == kind) + amiss c.faulty 1) :=
  (adds_expectThen message adds_done fun _ => adds_done).le (by rw [mul_one])

lemma adds_nameThen (message : String) (hyes : yes.Adds c full s (fun _ => True) L)
    (hno : c.faulty → no.Adds c full s' (fun _ => True) L') :
    (nameThen message yes no).Adds c full true P (token TokenKind.isName * L + amiss c.faulty L') :=
  Rule.Adds.branch (((adds_bump fun _ h => h.2).seq hyes).le le_self_add)
    ((adds_report_append message fun hfaulty => (hno hfaulty).of_true).le le_add_self)

/-- Behind a name words are turned in one way, and without it in another. -/
lemma turns_nameThen (message : String)
    (hyes : yes.Turns c full s (fun _ => True) (L * token TokenKind.isName) M)
    (hno : c.faulty → no.Turns c full s' (fun _ => True) L M) :
    (nameThen message yes no).Turns c full true P L M :=
  Rule.Turns.branch ((adds_bump (fun _ h => h.2) _).seq hyes)
    ((turns_report_append message fun hfaulty => (hno hfaulty).of_true).le (amiss_le _ _))

lemma adds_eat : (eat kind).Adds c full false P (token (· == kind) + 1) :=
  Rule.Adds.branch ((adds_bump_of_starts fun _ h => h.2).le le_self_add).weaken
    (adds_done.le le_add_self)

lemma adds_nameIfAny : nameIfAny.Adds c full false P (token TokenKind.isName + 1) :=
  Rule.Adds.branch ((adds_bump fun _ h => h.2).le le_self_add).weaken (adds_done.le le_add_self)

end Turning

/-! ### Words of nodes between tokens -/

section Marks

variable {c : Contract} {full : Prop} {s s' : Bool} {P : Lookahead → Prop}
  {r item first second : Rule} {kind : TokenKind} {p p' : TokenKind → Bool} {q : Node → Prop}
  {N N' : Language Node}

/-- Two rules add the nodes of the first and of the second. -/
lemma Rule.Adds.seq_words (h : first.Adds c full s P (words p N))
    (h' : second.Adds c full s' (fun _ => True) (words p N')) :
    (first ++ second).Adds c full (s || s') P (words p (N * N')) :=
  (h.seq h').le (words_mul_le p N N')

/-- Nothing but tokens behind a rule. -/
lemma Rule.Adds.seq_marks (h : first.Adds c full s P (words p N))
    (h' : second.Adds c full s' (fun _ => True) (words p 1)) :
    (first ++ second).Adds c full (s || s') P (words p N) :=
  (h.seq_words h').le (words_le (by rw [mul_one]))

/-- Nothing but tokens before a rule. -/
lemma Rule.Adds.marks_seq (h : first.Adds c full s P (words p 1))
    (h' : second.Adds c full s' (fun _ => True) (words p N)) :
    (first ++ second).Adds c full (s || s') P (words p N) :=
  (h.seq_words h').le (words_le (by rw [one_mul]))

lemma unit_le_words (p : TokenKind → Bool) (h : 1 ≤ N) : 1 ≤ words p N := by
  rintro _ rfl
  exact ⟨fun t ht => (nomatch ht), h rfl⟩

lemma adds_nothing (h : 1 ≤ N) : done.Adds c full false P (words p N) :=
  adds_done.le (unit_le_words p h)

lemma adds_mark_of_startsWith (hP : ∀ l, P l → l.startsWith p' = true)
    (hp : ∀ k, p' k = true → p k = true) : bump.Adds c full true P (words p 1) :=
  (adds_bump hP).le (token_le_words hp)

lemma adds_mark_of_starts (hkind : p kind = true) (hP : ∀ l, P l → l.starts kind = true) :
    bump.Adds c full true P (words p 1) :=
  (adds_bump_of_starts hP).le (token_le_words fun _ hk => eq_of_beq hk ▸ hkind)

lemma adds_missing (message : String) :
    (report message).Adds c full true P (words p (amiss c.faulty 1)) :=
  (adds_report message).le ((amiss_mono (unit_le_words p le_rfl)).trans (amiss_words_le _ p 1))

lemma token_beq_le_words (hp : p kind = true) : token (· == kind) ≤ words p 1 :=
  token_le_words fun _ hk => eq_of_beq hk ▸ hp

lemma adds_expected (message : String) (hp : p kind = true) :
    (expect kind message).Adds c full true P (words p 1) := by
  refine (adds_expect message).le (add_le (token_beq_le_words hp) ?_)
  exact (amiss_le _ 1).trans (unit_le_words p le_rfl)

lemma adds_eaten (hp : p kind = true) : (eat kind).Adds c full false P (words p 1) :=
  adds_eat.le (add_le (token_beq_le_words hp) (unit_le_words p le_rfl))

lemma adds_nameIfAny_words (hp : ∀ k, TokenKind.isName k = true → p k = true) :
    nameIfAny.Adds c full false P (words p 1) :=
  adds_nameIfAny.le (add_le (token_le_words hp) (unit_le_words p le_rfl))

/-- Where the token is missing, so is all that would follow. -/
lemma adds_expectThen_words (message : String) (hp : p kind = true)
    (h : r.Adds c full s (fun _ => True) (words p N)) :
    (expectThen kind message r .done).Adds c full true P (words p (N + amiss c.faulty 1)) := by
  refine (adds_expectThen message h fun _ => adds_done).le (add_le ?_ ?_)
  · refine (token_mul_words_le fun k hk => ?_).trans (words_le le_self_add)
    rwa [eq_of_beq hk]
  · refine (amiss_mono (unit_le_words p le_rfl)).trans ((amiss_words_le _ p 1).trans ?_)
    exact words_le le_add_self

/-- A token that is reported is passed over as an item. -/
lemma adds_rejected (hq : ∀ n : Node, n.kind = .error → q n) (hP : ∀ l, P l → l.first ≠ none)
    (message : String) : (reject message).Adds c full true P (words p (every q)) :=
  (adds_reject hP message).le ((amiss_le _ _).trans
    ((node_le_words p _).trans (words_le (one_le_every hq))))

/-- **Items of one sort** over and over, and the tokens that are passed over between them. -/
lemma adds_items {stop : Lookahead → Bool} (hq : ∀ n : Node, n.kind = .error → q n)
    (h : item.Adds c full true (fun l => stop l = false) (words p (every q))) :
    (loop stop item).Adds c full false P (words p (every q)) := by
  refine adds_loop h (unit_le_words p (unit_le_every q)) ?_ fun _ => ?_
  · exact (words_mul_le p _ _).trans (words_le (every_mul_le q))
  · refine (mul_le_mul_right ((node_le_words p _).trans (words_le (one_le_every hq))) _).trans ?_
    exact (words_mul_le p _ _).trans (words_le (every_mul_le q))

lemma adds_itemsThrough {close : TokenKind} (message : String) (hp : p close = true)
    (hq : ∀ n : Node, n.kind = .error → q n)
    (h : item.Adds c full true (fun l => l.endsList close = false) (words p (every q))) :
    (itemsThrough close message item).Adds c full true P (words p (every q)) :=
  (adds_items hq h).seq_marks (adds_expected message hp)

lemma adds_braced (hopen : p .lBrace = true) (hclose : p .rBrace = true)
    (hq : ∀ n : Node, n.kind = .error → q n)
    (h : item.Adds c full true (fun l => l.endsList .rBrace = false) (words p (every q))) :
    (braced item).Adds c full true P (words p (every q)) := by
  refine (adds_expectThen_words _ hopen (adds_itemsThrough _ hclose hq h)).le (words_le ?_)
  exact add_amiss_le _ (unit_le_every q)

end Marks

end TxTree.Grammar
