import TxTree.Proofs.File

set_option relaxedAutoImplicit false
set_option autoImplicit false

/-!
# Bounded depth

The counter of nesting levels never passes its limit, and the tree is no higher than the limit
allows, however long the stream is. Both are kept by a rule, level by level, but the second is more
than counting levels: a node that is opened at an earlier place raises all that stands there, and
that may be as deep as the levels went which have been left by then. So a rule has two measures: how
much it raises what stands before it, and how high it builds itself. A level that raises what stands
before it uses up room, so that a row of them is no longer than the room is, and each may hold
another row in brackets: the height grows with the square of the limit.

## Main definitions

* `TxTree.Grammar.Rule.Visits`, `TxTree.Reaches` — the states that a rule and a parse go through.
* `TxTree.Node.height` — the number of nodes on the longest way down a tree.
* `TxTree.Grammar.Rule.lift`, `TxTree.Grammar.Rule.crown` — how much a rule raises what stands
  before it, and how high it builds itself.
* `TxTree.heightBound` — the height that a limit of the levels allows.

## Main results

* `TxTree.Grammar.Rule.Visits.depth_le` — the counter grows by no more than the room.
* `TxTree.Grammar.Derives.height_le` — what a rule gathers is no higher than its measures say.
* `TxTree.parseTokens_bounded` — the counter and the height of a whole parse.
-/

namespace TxTree

namespace Grammar

/-! ## The counter of nesting levels -/

@[simp] lemma depth_attachAll (s : State) (tokens : List Token) :
    (s.attachAll tokens).depth = s.depth := by
  induction tokens generalizing s with
  | nil => rfl
  | cons t tokens ih => exact ih (s.attach t)

@[simp] lemma depth_flush (s : State) : s.flush.depth = s.depth := depth_attachAll ..

@[simp] lemma depth_bump (s : State) : s.bump.depth = s.depth := by
  rw [State.bump]
  split
  · rfl
  · exact depth_flush s

@[simp] lemma depth_start (s : State) (kind : NodeKind) : (s.start kind).depth = s.depth :=
  depth_flush s

@[simp] lemma depth_skip (s : State) : s.skip.depth = s.depth := by
  rw [State.skip]
  split
  · rfl
  · exact (depth_bump _).trans (depth_start s .error)

/-- A loop leaves the counter as its step does. -/
lemma depth_iterate {stop : Lookahead → Bool} {step : State → State}
    (hstep : ∀ s, (step s).depth = s.depth) (bound : List Token) (s : State) :
    (iterate stop step bound s).depth = s.depth := by
  induction bound generalizing s with
  | nil => rfl
  | cons t bound ih =>
    rw [iterate]
    split
    · rfl
    · rw [ih]
      split
      · rw [depth_skip, hstep]
      · exact hstep s

namespace Rule

/-- A rule leaves the counter as the nesting levels in it do. -/
lemma depth_run_of_deeper {deeper : Option (Nesting → Checkpoint → State → State)}
    (hdeeper : ∀ go, deeper = some go → ∀ level place s, (go level place s).depth = s.depth)
    (r : Rule) (place : Checkpoint) (s : State) : (r.run deeper place s).depth = s.depth := by
  induction r generalizing place s with
  | done | report => rfl
  | seq first second ih₁ ih₂ => exact (ih₂ ..).trans (ih₁ ..)
  | bump => exact depth_bump s
  | skip => exact depth_skip s
  | node kind body ih => exact (ih ..).trans (depth_start s kind)
  | mark body ih => exact (ih ..).trans (depth_flush s)
  | wrap kind body ih => exact ih place (s.startAt place kind)
  | branch test yes no ih₁ ih₂ =>
    rw [run]
    split
    · exact ih₁ ..
    · exact ih₂ ..
  | loop stop body ih => exact depth_iterate (ih place) _ s
  | nest level otherwise ih =>
    cases deeper with
    | none => exact ih place (s.report tooDeep)
    | some go => exact hdeeper go rfl level place s

/-- **A rule leaves the counter as it was**: every level that is entered is left. -/
lemma depth_run (rules : Nesting → Rule) (room : Nat) (r : Rule) (place : Checkpoint) (s : State) :
    (r.run (descend rules room) place s).depth = s.depth := by
  induction room generalizing r place s with
  | zero =>
    refine depth_run_of_deeper (fun go hgo => ?_) r place s
    cases hgo
  | succ room ih =>
    refine depth_run_of_deeper (fun go hgo level place s => ?_) r place s
    cases hgo
    change ((rules level).run _ place s.enter).depth - 1 = s.depth
    rw [ih]
    rfl

/-! ### The states of a run -/

/-- **The states that a rule goes through**, with room for `room` nesting levels, whose rules are
`rules`: where it begins and where it ends, and all that its parts go through in between. -/
inductive Visits (rules : Nesting → Rule) : Nat → Rule → Checkpoint → State → State → Prop where
  | before {room : Nat} {r : Rule} {place : Checkpoint} {s : State} : Visits rules room r place s s
  | after {room : Nat} {r : Rule} {place : Checkpoint} {s : State} :
    Visits rules room r place s (r.run (descend rules room) place s)
  | first {room : Nat} {first second : Rule} {place : Checkpoint} {s t : State} :
    Visits rules room first place s t → Visits rules room (.seq first second) place s t
  | second {room : Nat} {first second : Rule} {place : Checkpoint} {s t : State} :
    Visits rules room second place (first.run (descend rules room) place s) t →
      Visits rules room (.seq first second) place s t
  | node {room : Nat} {kind : NodeKind} {body : Rule} {place : Checkpoint} {s t : State} :
    Visits rules room body place (s.start kind) t → Visits rules room (.node kind body) place s t
  | mark {room : Nat} {body : Rule} {place : Checkpoint} {s t : State} :
    Visits rules room body s.flush.builder.checkpoint s.flush t →
      Visits rules room (.mark body) place s t
  | wrap {room : Nat} {kind : NodeKind} {body : Rule} {place : Checkpoint} {s t : State} :
    Visits rules room body place (s.startAt place kind) t →
      Visits rules room (.wrap kind body) place s t
  | yes {room : Nat} {test : Lookahead → Bool} {yes no : Rule} {place : Checkpoint} {s t : State} :
    test s.lookahead = true → Visits rules room yes place s t →
      Visits rules room (.branch test yes no) place s t
  | no {room : Nat} {test : Lookahead → Bool} {yes no : Rule} {place : Checkpoint} {s t : State} :
    test s.lookahead = false → Visits rules room no place s t →
      Visits rules room (.branch test yes no) place s t
  | body {room : Nat} {stop : Lookahead → Bool} {body : Rule} {place : Checkpoint} {s t : State} :
    stop s.lookahead = false → Visits rules room body place s t →
      Visits rules room (.loop stop body) place s t
  | step {room : Nat} {stop : Lookahead → Bool} {body : Rule} {place : Checkpoint}
    {s next t : State} : stop s.lookahead = false →
    next = body.run (descend rules room) place s →
      Visits rules room (.loop stop body) place
        (if next.cursor = s.cursor then next.skip else next) t →
      Visits rules room (.loop stop body) place s t
  | nest {room : Nat} {level : Nesting} {otherwise : Rule} {place : Checkpoint} {s t : State} :
    Visits rules room (rules level) place s.enter t →
      Visits rules (room + 1) (.nest level otherwise) place s t
  | full {level : Nesting} {otherwise : Rule} {place : Checkpoint} {s t : State} :
    Visits rules 0 otherwise place (s.report tooDeep) t →
      Visits rules 0 (.nest level otherwise) place s t

/-- **The counter grows by no more than the room.**

**Proof sketch.** Induction on the way to the state. What ran before has left the counter as it was,
and a level that is entered takes one from the room. -/
theorem Visits.depth_le {rules : Nesting → Rule} {room : Nat} {r : Rule} {place : Checkpoint}
    {s t : State} (h : r.Visits rules room place s t) : t.depth ≤ s.depth + room := by
  induction h with
  | before => exact Nat.le_add_right ..
  | after => exact (depth_run ..).le.trans (Nat.le_add_right ..)
  | first _ ih => exact ih
  | second _ ih => rwa [depth_run] at ih
  | node _ ih => rwa [depth_start] at ih
  | mark _ ih => rwa [depth_flush] at ih
  | wrap _ ih => exact ih
  | yes _ _ ih => exact ih
  | no _ _ ih => exact ih
  | body _ _ ih => exact ih
  | step _ hnext _ ih =>
    rw [apply_ite State.depth, depth_skip, ite_self, hnext, depth_run] at ih
    exact ih
  | @nest room level otherwise place s t _ ih =>
    have henter : s.enter.depth = s.depth + 1 := rfl
    omega
  | full _ ih => exact ih

end Rule

end Grammar

/-! ## The height of a tree -/

mutual

/-- **The height of a tree**: the number of nodes on the longest way down. -/
def Node.height : Node → Nat
  | ⟨_, _, cs⟩ => Element.heightOfList cs + 1

/-- The height of the highest of some elements; tokens have none. -/
def Element.heightOfList : List Element → Nat
  | [] => 0
  | .token _ :: cs => Element.heightOfList cs
  | .node n :: cs => max n.height (Element.heightOfList cs)

end

namespace Element

@[simp] lemma heightOfList_append (cs ds : List Element) :
    heightOfList (cs ++ ds) = max (heightOfList cs) (heightOfList ds) := by
  induction cs with
  | nil => simp [heightOfList]
  | cons c cs ih => cases c <;> simp [heightOfList, ih, Nat.max_assoc]

@[simp] lemma heightOfList_map_token (ts : List Token) : heightOfList (ts.map .token) = 0 := by
  induction ts with
  | nil => rfl
  | cons t ts ih => simpa [heightOfList] using ih

end Element

namespace Grammar

namespace Gathering

/-- The height of what is gathered. -/
def height (g : Gathering) : Nat := Element.heightOfList g.children

variable (g : Gathering)

@[simp] lemma height_fresh : g.fresh.height = 0 := rfl

@[simp] lemma height_report (message : String) : (g.report message).height = g.height := rfl

@[simp] lemma height_attachAll (ts : List Token) : (g.attachAll ts).height = g.height := by
  rw [height, attachAll_children, Element.heightOfList_append, Element.heightOfList_map_token,
    Nat.max_zero, height]

@[simp] lemma height_flush : g.flush.height = g.height := height_attachAll ..

@[simp] lemma height_bump : g.bump.height = g.height := by
  cases h : significant g.ahead with
  | nil => rw [bump_of_nil h]
  | cons t rest =>
    have hnext := (g.flush.height_attachAll [t]).trans g.height_flush
    rw [bump_of_cons h]
    exact hnext

@[simp] lemma height_enclose (kind : NodeKind) : (g.enclose kind).height = g.height + 1 := by
  simp [height, enclose, Node.ofChildren, Element.heightOfList, Node.height]

@[simp] lemma height_behind (before : List Element) :
    (g.behind before).height = max (Element.heightOfList before) g.height :=
  Element.heightOfList_append ..

/-- What is gathered since a new place stands beside what was before. -/
lemma height_behind_flush (g₁ : Gathering) :
    (g₁.behind g.flush.children).height = max g.height g₁.height := by
  rw [height_behind, ← height, height_flush]

/-- A token that is passed over is a node of its own. -/
lemma height_skip_le : g.skip.height ≤ max g.height 1 := by
  rw [skip]
  cases g.lookahead.first with
  | none => exact Nat.le_max_left ..
  | some k =>
    rw [height_behind_flush, height_enclose, height_bump, height_fresh]

lemma height_progress_le (cursor : Nat) : (g.progress cursor).height ≤ max g.height 1 := by
  rw [progress]
  split
  · exact g.height_skip_le
  · exact Nat.le_max_left ..

end Gathering

/-! ## The measures of a rule -/

/-- A number of nodes, and one node more for each level of room, so many times over. -/
structure Rise where
  /-- The number of nodes. -/
  nodes : Nat
  /-- How many nodes there may be for each level of room. -/
  runs : Nat
deriving DecidableEq, Repr

namespace Rise

/-- The number of nodes where there is so much room. -/
def value (a : Rise) (room : Nat) : Nat := a.nodes + a.runs * room

/-- Nothing. -/
instance : Zero Rise := ⟨⟨0, 0⟩⟩

/-- One on top of another. -/
instance : Add Rise := ⟨fun a b => ⟨a.nodes + b.nodes, a.runs + b.runs⟩⟩

/-- One beside another. -/
instance : Max Rise := ⟨fun a b => ⟨max a.nodes b.nodes, max a.runs b.runs⟩⟩

/-- A single node. -/
def node : Rise := ⟨1, 0⟩

/-- A node for each level of room. -/
def row : Rise := ⟨0, 1⟩

variable (a b : Rise) (room : Nat)

@[simp] lemma value_zero : (0 : Rise).value room = 0 := by simp [value, OfNat.ofNat, Zero.zero]

@[simp] lemma value_add : (a + b).value room = a.value room + b.value room := by
  change a.nodes + b.nodes + (a.runs + b.runs) * room = _
  rw [Nat.add_mul, value, value]
  omega

@[simp] lemma value_node : node.value room = 1 := by simp [value, node]

@[simp] lemma value_row : row.value room = room := by simp [value, row]

lemma value_le_max_left : a.value room ≤ (max a b).value room :=
  Nat.add_le_add (Nat.le_max_left ..) (Nat.mul_le_mul_right _ (Nat.le_max_left ..))

lemma value_le_max_right : b.value room ≤ (max a b).value room :=
  Nat.add_le_add (Nat.le_max_right ..) (Nat.mul_le_mul_right _ (Nat.le_max_right ..))

end Rise

/-- How much a nesting level raises what stands before it: by a node for each level of the room. -/
def Nesting.lift (level : Nesting) : Rise := if level.wraps then .row else 0

/-- **How much a rule raises what stands before it** since the place last remembered: by the nodes
that it opens there, one on top of the other. -/
def Rule.lift : Rule → Rise
  | .seq first second => first.lift + second.lift
  | .wrap _ body => body.lift + .node
  | .branch _ yes no => max yes.lift no.lift
  | .nest level otherwise => max level.lift otherwise.lift
  | .done | .bump | .skip | .report _ | .node _ _ | .mark _ | .loop _ _ => 0

/-- **How high a rule builds** above the highest that its nesting levels do. -/
def Rule.crown : Rule → Rise
  | .done | .bump | .report _ => 0
  | .skip => .node
  | .seq first second => max (first.crown + second.lift) second.crown
  | .node _ body => max body.lift body.crown + .node
  | .mark body => max body.lift body.crown
  | .wrap _ body => body.crown + .node
  | .branch _ yes no => max yes.crown no.crown
  | .loop _ body => max body.crown .node
  | .nest _ otherwise => otherwise.crown

/-- Whether no loop of a rule raises what stands before it: it could do so at every step. -/
def Rule.steady : Rule → Bool
  | .done | .bump | .report _ | .skip => true
  | .seq first second => first.steady && second.steady
  | .node _ body | .mark body | .wrap _ body => body.steady
  | .branch _ yes no => yes.steady && no.steady
  | .loop _ body => body.lift == 0 && body.steady
  | .nest _ otherwise => otherwise.steady

/-- The rule of a nesting level raises what stands before it by one node, and the levels in it by
further ones; or none of them does. -/
lemma value_lift_nested (level : Nesting) (room : Nat) :
    (nested level).lift.value room = level.lift.value (room + 1) := by
  have hlift : (nested level).lift = if level.wraps then .node + .row else 0 := by
    cases level <;> rfl
  rw [hlift, Nesting.lift]
  cases level.wraps
  · rfl
  · simp [Nat.add_comm]

/-- The loops in the rules of the nesting levels are steady. -/
lemma steady_nested (level : Nesting) : (nested level).steady = true := by
  cases level <;> rfl

/-- The height that nesting levels build, with so much room: in each the operators, the brackets and
the parts of an operand, and the row of nodes that take over what stands before them. -/
def nestedHeight (room : Nat) : Nat := room * (room + 7)

lemma value_crown_nested_le (level : Nesting) (room : Nat) :
    nestedHeight room + (nested level).crown.value room ≤ nestedHeight (room + 1) := by
  have hnodes : (nested level).crown.nodes ≤ 8 := by cases level <;> decide
  have hruns : (nested level).crown.runs = 1 := by cases level <;> rfl
  have hsquare : (room + 1) * (room + 1 + 7) = room * (room + 7) + room + room + 8 := by
    rw [Nat.add_right_comm, Nat.add_mul, Nat.mul_succ]
    omega
  rw [Rise.value, hruns, nestedHeight, nestedHeight, hsquare]
  omega

open Gathering Rise in
/-- **What a rule gathers is no higher than its measures say**: no higher than what it has raised,
or than what it has built on its nesting levels.

**Proof sketch.** Induction on the derivation. A node that is opened at an earlier place is higher
by one than both; a loop raises nothing, so that its steps do not add up; and a level builds on
those inside, which have room for one less. -/
theorem Derives.height_le {room : Nat} {r : Rule} {g g' : Gathering}
    (h : Derives nested room r g g') (hr : r.steady = true) :
    g'.height ≤ max (g.height + r.lift.value room) (nestedHeight room + r.crown.value room) := by
  induction h with
  | done | report | stop => exact (Nat.le_add_right ..).trans (Nat.le_max_left ..)
  | bump =>
    rw [height_bump]
    exact (Nat.le_add_right ..).trans (Nat.le_max_left ..)
  | @seq room first second g g₁ g₂ _ _ ih₁ ih₂ =>
    rw [Rule.steady, Bool.and_eq_true] at hr
    have h₁ := ih₁ hr.1
    have h₂ := ih₂ hr.2
    have hfirst := value_le_max_left (first.crown + second.lift) second.crown room
    have hsecond := value_le_max_right (first.crown + second.lift) second.crown room
    simp only [Rule.lift, Rule.crown, value_add] at hfirst ⊢
    omega
  | @skip room g =>
    have hskip := g.height_skip_le
    simp only [Rule.lift, Rule.crown, value_zero, value_node]
    omega
  | @node room kind body g g₁ _ ih =>
    have hbody := ih hr
    have hlift := value_le_max_left body.lift body.crown room
    have hcrown := value_le_max_right body.lift body.crown room
    simp only [Rule.lift, Rule.crown, value_zero, value_add, value_node, height_behind_flush,
      height_enclose, height_fresh] at hbody ⊢
    omega
  | @mark room body g g₁ _ ih =>
    have hbody := ih hr
    have hlift := value_le_max_left body.lift body.crown room
    have hcrown := value_le_max_right body.lift body.crown room
    simp only [Rule.lift, Rule.crown, value_zero, height_behind_flush, height_fresh] at hbody ⊢
    omega
  | wrap _ ih =>
    have hbody := ih hr
    simp only [Rule.lift, Rule.crown, value_add, value_node, height_enclose]
    omega
  | @yes room test yes no g g₁ _ _ ih =>
    rw [Rule.steady, Bool.and_eq_true] at hr
    have hyes := ih hr.1
    have hlift := value_le_max_left yes.lift no.lift room
    have hcrown := value_le_max_left yes.crown no.crown room
    rw [Rule.lift, Rule.crown]
    omega
  | @no room test yes no g g₁ _ _ ih =>
    rw [Rule.steady, Bool.and_eq_true] at hr
    have hno := ih hr.2
    have hlift := value_le_max_right yes.lift no.lift room
    have hcrown := value_le_max_right yes.crown no.crown room
    rw [Rule.lift, Rule.crown]
    omega
  | @step room stop body g g₁ g₂ _ _ _ ih₁ ih₂ =>
    have hrest := ih₂ hr
    -- The body raises nothing, so that the further steps begin no higher than this one.
    rw [Rule.steady, Bool.and_eq_true, beq_iff_eq] at hr
    have hbody := ih₁ hr.2
    have hprogress := g₁.height_progress_le g.cursor
    have hcrown := value_le_max_left body.crown .node room
    have hnode := value_le_max_right body.crown .node room
    simp only [hr.1, Rule.lift, Rule.crown, value_zero, value_node] at hbody hrest hnode ⊢
    omega
  | @nest room level otherwise g g₁ _ ih =>
    -- What the level raises, and the levels behind it in a row, takes one from the room each; what
    -- it builds stands on what is built with room for one less.
    have hlevel := ih (steady_nested level)
    have hlift := value_le_max_left level.lift otherwise.lift (room + 1)
    have hcrown := value_crown_nested_le level room
    rw [value_lift_nested] at hlevel
    rw [Rule.lift]
    omega
  | @full level otherwise g g₁ _ ih =>
    have hotherwise := ih hr
    have hlift := value_le_max_right level.lift otherwise.lift 0
    rw [height_report] at hotherwise
    rw [Rule.lift, Rule.crown]
    omega

end Grammar

/-! ## The whole parse -/

/-- **The states that a parse goes through**: those of the rule of a file, and that in which all
that is left has reached the tree. -/
inductive Reaches (tokens : List Token) : Grammar.State → Prop where
  | within {s : Grammar.State} :
    Grammar.file.Visits Grammar.nested maxNesting
      (Grammar.State.ofTokens tokens).builder.checkpoint (.ofTokens tokens) s → Reaches tokens s
  | finished : Reaches tokens (runFile tokens).finish

/-- **The height that a limit of the nesting levels allows.** -/
def heightBound (limit : Nat) : Nat := limit * (limit + 7) + 5

open Grammar in
/-- **Bounded depth.** In every state of a parse the counter of nesting levels is within its limit,
and the tree is no higher than the limit allows, for streams of any length.

**Proof sketch.** The counter begins at zero with room for all levels, and `Rule.Visits.depth_le`
says that it grows by no more. The rule of a file has no node before it to raise, and builds four
nodes above its nesting levels; the root is one more. -/
theorem parseTokens_bounded (tokens : List Token) :
    (∀ s : State, Reaches tokens s → s.depth ≤ maxNesting) ∧
      (parseTokens tokens).1.height ≤ heightBound maxNesting := by
  constructor
  · intro s hs
    cases hs with
    | within hs =>
      have hdepth := hs.depth_le
      rwa [show (State.ofTokens tokens).depth = 0 from rfl, Nat.zero_add] at hdepth
    | finished =>
      rw [State.finish, depth_attachAll]
      exact (Rule.depth_run ..).le.trans (Nat.zero_le _)
  · obtain ⟨g, hg, -, -⟩ := exists_derives_file tokens
    have hheight : g.height ≤ _ := hg.height_le rfl
    have hfinish : g.finish.height = g.height := Gathering.height_attachAll ..
    have hlift : file.lift.value maxNesting = 0 := by decide
    have hcrown : file.crown.value maxNesting = 4 := by decide
    have hstart : (Gathering.ofTokens tokens).height = 0 := rfl
    rw [hlift, hcrown, hstart] at hheight
    rw [parseTokens_eq hg, Node.ofChildren, Node.height, ← Gathering.height, hfinish, heightBound]
    rw [nestedHeight] at hheight
    omega

end TxTree
