import Mathlib.Data.List.Basic
import Mathlib.Data.List.Induction
import TxTree.Proofs.Spans
import TxTree.Tree.Traversal

set_option relaxedAutoImplicit false
set_option autoImplicit false

/-!
# Sessions with a builder

What a session does can be read off its steps alone. A step opens a frame, closes one or does
neither, so the steps before it tell how many frames are open, and how many were open at each
checkpoint: this decides whether the step is in place. The frames themselves hold, from the outside
in, the tokens added so far; a step moves children between frames, but never across a token.

## Main definitions

* `TxTree.Builder.tokensOf`, `TxTree.Builder.openFrames`, `TxTree.Builder.savedDepths` — the tokens
  that steps add, the frames that they leave open, and those open at their checkpoints.
* `TxTree.Builder.fault?`, `TxTree.Builder.InPlace` — what is wrong with a step after others, and
  steps with none of which anything is wrong.
* `TxTree.Node.SpansChildren` — the span of a node that was finished at an offset.
* `TxTree.Builder.FinishedAt`, `TxTree.Builder.FinishedIn` — a node that is finished after some
  steps, and by one of them.
* `TxTree.Builder.Session.Counts` — a session with as many open frames as its steps tell.
* `TxTree.Builder.Session.Follows` — the session that some steps lead to.

## Main results

* `TxTree.Builder.Session.run_of_step` — what each step keeps, a run keeps up to its first step out
  of place.
* `TxTree.Builder.Session.counts_step`, `TxTree.Builder.Session.follows_step` — one step, in place
  or not.
* `TxTree.Builder.Session.run_spec` — a session ends at its first step out of place, and otherwise
  leaves a tree of its tokens with a node for each frame.
-/

namespace TxTree

/-! ## Spans -/

/-- **The span of a node that is finished at an offset**: from the start of its first child to the
stop of its last, or empty at the offset. -/
structure Node.SpansChildren (n : Node) (offset : Nat) : Prop where
  /-- A node without children is empty at the offset. -/
  empty : n.children = [] → n.span = Span.emptyAt offset
  /-- A node with children reaches from the first to the last. -/
  ends : ∀ first last : Element, n.children.head? = some first → n.children.getLast? = some last →
    n.span = ⟨first.span.start, last.span.stop⟩

/-- The node of given children has their span. -/
lemma Node.spansChildren_ofChildren (kind : NodeKind) (cs : List Element) (offset : Nat) :
    (Node.ofChildren kind cs offset).SpansChildren offset where
  empty hnil := by
    obtain rfl : cs = [] := hnil
    rfl
  ends first last hfirst hlast := by
    rw [ofChildren, children_mk] at hfirst hlast
    rw [ofChildren, span_mk, spanOf, hfirst, hlast]

/-! ## Nodes among the children of a frame -/

/-- **All nodes among some children and below them** have a property, which may depend on the tokens
on their left; `before` are those on the left of all the children. -/
def Element.Each (P : List Token → Node → Prop) (before : List Token) (cs : List Element) : Prop :=
  ∀ (left right : List Element) (m : Node), cs = left ++ .node m :: right →
    ∀ (inner : List Token) (n : Node) (after : List Token), m.Occurs inner n after →
      P (before ++ leavesOfList left ++ inner) n

namespace Element

variable {P Q : List Token → Node → Prop} {before : List Token} {cs ds : List Element}

lemma each_nil : Each P before [] := by
  intro left right m heq
  simp at heq

lemma Each.mono (h : Each P before cs) (hPQ : ∀ before n, P before n → Q before n) :
    Each Q before cs :=
  fun left right m heq inner n after hn => hPQ _ _ (h left right m heq inner n after hn)

/-- A token among the children only stands on the left of others. -/
lemma each_token (t : Token) : Each P before [.token t] := by
  intro left right m heq
  rcases left with - | ⟨c, left⟩ <;> simp at heq

/-- The tokens of the children in front stand on the left of those behind. -/
lemma each_append_iff :
    Each P before (cs ++ ds) ↔ Each P before cs ∧ Each P (before ++ leavesOfList cs) ds := by
  constructor
  · intro h
    refine ⟨fun left right m heq => h left (right ++ ds) m (by simp [heq]), ?_⟩
    intro left right m heq inner n after hn
    have hall := h (cs ++ left) right m (by simp [heq]) inner n after hn
    rwa [leavesOfList_append, ← List.append_assoc] at hall
  · rintro ⟨hcs, hds⟩ left right m heq inner n after hn
    obtain ⟨mid, rfl, hmid⟩ | ⟨mid, rfl, hmid⟩ := List.append_eq_append_iff.1 heq
    · have hright := hds mid right m hmid inner n after hn
      rwa [List.append_assoc before, ← leavesOfList_append] at hright
    · cases mid with
      | nil =>
        have hright := hds [] right m (by simpa using hmid.symm) inner n after hn
        simpa [leavesOfList] using hright
      | cons c mid =>
        obtain ⟨rfl, rfl⟩ := List.cons.inj hmid
        exact hcs left mid m rfl inner n after hn

/-- A node has the property with those below it. -/
lemma each_node {kind : NodeKind} {span : Span} (hnode : P before ⟨kind, span, cs⟩)
    (hcs : Each P before cs) : Each P before [.node ⟨kind, span, cs⟩] := by
  intro left right m heq inner n after hn
  obtain ⟨rfl, rfl, rfl⟩ : left = [] ∧ m = ⟨kind, span, cs⟩ ∧ right = [] := by
    rcases left with - | ⟨c, left⟩
    · simpa [eq_comm] using heq
    · simp at heq
  rw [leavesOfList, List.append_nil]
  cases hn with
  | root => rwa [List.append_nil]
  | inside hm =>
    have hbelow := hcs _ _ _ rfl _ _ _ hm
    rwa [List.append_assoc] at hbelow

end Element

namespace Builder

/-! ## What steps tell -/

/-- The token that a step adds. -/
def Step.token? : Step → Option Token
  | .token t => some t
  | _ => none

/-- Whether a step opens a node. -/
def Step.opens : Step → Bool
  | .start _ | .startAt _ _ => true
  | _ => false

/-- The tokens that steps add, in order. -/
def tokensOf (steps : List Step) : List Token := steps.filterMap Step.token?

/-- The number of frames that steps leave open: that of the root, and one more for each node that
is opened and not finished. -/
def openFrames (steps : List Step) : Nat := steps.countP Step.opens + 1 - steps.count .finishNode

/-- The number of frames open at each checkpoint, in order. -/
def savedDepths (steps : List Step) : List Nat :=
  (List.range steps.length).filterMap fun i =>
    if steps[i]? = some .checkpoint then some (openFrames (steps.take i)) else none

/-- **What is wrong with a step after others**: a node is finished while no frame but that of the
root is open, or one is opened at a checkpoint at which another number of frames was open, or at a
checkpoint that was not made. -/
def fault? (before : List Step) : Step → Option Fault
  | .finishNode => if openFrames before = 1 then some .nothingToFinish else none
  | .startAt index _ =>
    match (savedDepths before)[index]? with
    | none => some (.unknownCheckpoint (savedDepths before).length index)
    | some depth =>
      if depth = openFrames before then none else some (.staleCheckpoint depth (openFrames before))
  | _ => none

/-- **Steps are in place** if nothing is wrong with any of them after those before it. -/
def InPlace (steps : List Step) : Prop :=
  ∀ (i : Nat) (hi : i < steps.length), fault? (steps.take i) steps[i] = none

instance (steps : List Step) : Decidable (InPlace steps) :=
  Nat.decidableBallLT steps.length fun i hi => fault? (steps.take i) steps[i] = none

section Snoc

variable (steps : List Step) (step : Step)

lemma tokensOf_snoc : tokensOf (steps ++ [step]) = tokensOf steps ++ step.token?.toList := by
  rw [tokensOf, List.filterMap_append]
  cases h : step.token? <;> simp [tokensOf, h]

lemma savedDepths_snoc : savedDepths (steps ++ [step]) =
    savedDepths steps ++ if step = .checkpoint then [openFrames steps] else [] := by
  rw [savedDepths, List.length_append, List.length_singleton, List.range_succ,
    List.filterMap_append]
  congr 1
  · refine List.filterMap_congr fun i hi => ?_
    rw [List.mem_range] at hi
    rw [List.getElem?_append_left hi, List.take_append_of_le_length hi.le]
  · by_cases h : step = .checkpoint <;> simp [h]

variable {steps step}

/-- Steps are in place if and only if the last of them is, after the others, and these are. -/
lemma inPlace_snoc_iff : InPlace (steps ++ [step]) ↔ InPlace steps ∧ fault? steps step = none := by
  constructor
  · intro h
    refine ⟨fun i hi => ?_, ?_⟩
    · have hearlier := h i (by simp; omega)
      rwa [List.take_append_of_le_length hi.le, List.getElem_append_left hi] at hearlier
    · have hlast := h steps.length (by simp)
      simpa using hlast
  · rintro ⟨hsteps, hlast⟩ i hi
    rw [List.length_append, List.length_singleton] at hi
    obtain hlt | rfl := Nat.lt_succ_iff_lt_or_eq.1 hi
    · rw [List.take_append_of_le_length hlt.le, List.getElem_append_left hlt]
      exact hsteps i hlt
    · simpa using hlast

end Snoc

/-! ## Frames -/

/-- The tokens in frames, the innermost of which comes first. -/
def leavesOfFrames : List Frame → List Token
  | [] => []
  | f :: below => leavesOfFrames below ++ Element.leavesOfList f.children.toList

/-- The nodes in frames, those in the making among them. -/
def countOfFrames : List Frame → Nat
  | [] => 0
  | f :: below => countOfFrames below + Element.countOfList f.children.toList + 1

/-- All nodes finished in some frames have a property. -/
def EachOfFrames (P : List Token → Node → Prop) : List Frame → Prop
  | [] => True
  | f :: below =>
    EachOfFrames P below ∧ Element.Each P (leavesOfFrames below) f.children.toList

/-- The frame in which the node of a finished frame is the last child. -/
def adopt (outer f : Frame) (offset : Nat) : Frame :=
  { outer with children := outer.children.push (.node (close f offset)) }

section Frames

variable {P Q : List Token → Node → Prop} {f outer : Frame} {below frames : List Frame}
  {offset : Nat}

lemma EachOfFrames.mono (h : EachOfFrames P frames) (hPQ : ∀ before n, P before n → Q before n) :
    EachOfFrames Q frames := by
  induction frames with
  | nil => trivial
  | cons f below ih => exact ⟨ih h.1, h.2.mono hPQ⟩

@[simp] lemma leaves_close : (close f offset).leaves = Element.leavesOfList f.children.toList := by
  rw [close, Node.ofChildren, Node.leaves]

/-- A finished frame leaves its tokens in their places, … -/
lemma leavesOfFrames_adopt :
    leavesOfFrames (adopt outer f offset :: below) = leavesOfFrames (f :: outer :: below) := by
  simp [leavesOfFrames, adopt, Element.leavesOfList]

/-- … is a node of its own, … -/
lemma countOfFrames_adopt :
    countOfFrames (adopt outer f offset :: below) = countOfFrames (f :: outer :: below) := by
  simp only [countOfFrames, adopt, Array.toList_push, Element.countOfList_append,
    Element.countOfList, close, Node.ofChildren, Node.count]
  omega

/-- … and has the property of finished nodes if those that it holds do. -/
lemma EachOfFrames.adopt (h : EachOfFrames P (f :: outer :: below))
    (hf : P (leavesOfFrames (outer :: below)) (close f offset)) :
    EachOfFrames P (adopt outer f offset :: below) := by
  obtain ⟨⟨hbelow, houter⟩, hcs⟩ := h
  refine ⟨hbelow, ?_⟩
  rw [Builder.adopt, Array.toList_push, Element.each_append_iff]
  exact ⟨houter, Element.each_node hf hcs⟩

/-- **When all frames are closed**, the root has their tokens and their nodes, and all its nodes
have a property that those finished before have, and that those finished now get.

**Proof sketch.** Induction on the frames, from the inside out: to close one leaves the tokens and
the nodes of all of them as they are. -/
lemma closeAll_spec (h : EachOfFrames P (f :: below))
    (hclose : ∀ (before : List Token) (n : Node), leavesOfFrames (f :: below) = before ++ n.leaves →
      n.SpansChildren offset → P before n) :
    (closeAll offset f below).kind = .file ∧
      (closeAll offset f below).leaves = leavesOfFrames (f :: below) ∧
      (closeAll offset f below).count = countOfFrames (f :: below) ∧
      ∀ (before : List Token) (n : Node) (after : List Token),
        (closeAll offset f below).Occurs before n after → P before n := by
  induction below generalizing f with
  | nil =>
    have hspans := Node.spansChildren_ofChildren .file f.children.toList offset
    refine ⟨rfl, by simp [closeAll, leavesOfFrames], ?_, ?_⟩
    · simp [closeAll, close, Node.ofChildren, Node.count, countOfFrames]
    · have hroot : P [] (closeAll offset f []) :=
        hclose [] _ (by simp [closeAll, leavesOfFrames]) hspans
      intro before n after hn
      have heach : Element.Each P [] [.node (closeAll offset f [])] :=
        Element.each_node hroot h.2
      exact heach [] [] _ rfl before n after hn
  | cons outer below ih =>
    -- All tokens have been added, so those of the innermost frame are the last ones.
    have hnode : P (leavesOfFrames (outer :: below)) (close f offset) :=
      hclose _ _ (by rw [leaves_close]; rfl) (Node.spansChildren_ofChildren ..)
    have hsame : leavesOfFrames (adopt outer f offset :: below) =
        leavesOfFrames (f :: outer :: below) := leavesOfFrames_adopt
    rw [← hsame] at hclose
    have hall := ih (h.adopt hnode) hclose
    rwa [hsame, countOfFrames_adopt] at hall

end Frames

/-! ## Sessions -/

/-- **A node is finished after some steps**: its tokens are the last ones that they add, and it has
the span of its children, where the last of all tokens ends. -/
structure FinishedAt (steps : List Step) (before : List Token) (n : Node) : Prop where
  /-- The tokens added are those on the left of the node, and then its own. -/
  tokens : tokensOf steps = before ++ n.leaves
  /-- The span is that of the children. -/
  span : n.SpansChildren (Grammar.endOf (tokensOf steps))

/-- A node is finished by one of some steps. -/
def FinishedIn (steps : List Step) (before : List Token) (n : Node) : Prop :=
  ∃ done rest, steps = done ++ .finishNode :: rest ∧ FinishedAt done before n

lemma FinishedIn.snoc {steps : List Step} {before : List Token} {n : Node}
    (h : FinishedIn steps before n) (step : Step) : FinishedIn (steps ++ [step]) before n := by
  obtain ⟨done, rest, rfl, hn⟩ := h
  exact ⟨done, rest ++ [step], by simp, hn⟩

namespace Session

/-! ### One step -/

section Step

variable {s s' : Session}

/-- A node is opened at a checkpoint that was made at the same depth. -/
lemma step_startAt_eq_ok_iff {index : Nat} {kind : NodeKind} :
    s.step (.startAt index kind) = .ok s' ↔ ∃ place, s.saved[index]? = some place ∧
      place.depth = s.builder.depth ∧ { s with builder := s.builder.startAt place kind } = s' := by
  cases hplace : s.saved[index]? with
  | none => simp [step, hplace]
  | some place =>
    by_cases hdepth : place.depth = s.builder.depth <;>
      simp [step, hplace, startAtFault?, hdepth]

/-- A node is finished in a frame around it. -/
lemma step_finishNode_eq_ok_iff :
    s.step .finishNode = .ok s' ↔ s.builder.below ≠ [] ∧
      { s with builder := s.builder.finishNode } = s' := by
  cases hbelow : s.builder.below <;> simp [step, finishFault?, hbelow]

end Step

/-! ### Frames counted -/

/-- **A session with as many open frames as its steps tell**, now and at each checkpoint. -/
structure Counts (steps : List Step) (s : Session) : Prop where
  /-- Some frames are open, … -/
  depth : s.builder.depth + steps.count .finishNode = steps.countP Step.opens + 1
  /-- … and so many were open at each checkpoint. -/
  saved : s.saved.toList.map (·.depth) = savedDepths steps

namespace Counts

variable {steps : List Step} {s : Session}

/-- The number of open frames is that counted from the steps. -/
lemma depth_eq (h : Counts steps s) : s.builder.depth = openFrames steps := by
  have hdepth := h.depth
  rw [openFrames]
  omega

/-- The depth of a checkpoint is that counted from the steps before it. -/
lemma getElem?_saved (h : Counts steps s) (index : Nat) :
    (savedDepths steps)[index]? = s.saved[index]?.map (·.depth) := by
  rw [← h.saved, List.getElem?_map, Array.getElem?_toList]

/-- There are as many checkpoints as counted from the steps. -/
lemma size_saved (h : Counts steps s) : s.saved.size = (savedDepths steps).length := by
  rw [← h.saved, List.length_map, Array.length_toList]

lemma start (h : Counts steps s) (kind : NodeKind) :
    Counts (steps ++ [.start kind]) { s with builder := s.builder.start kind } where
  depth := by
    have hdepth := h.depth
    simp only [Builder.depth] at hdepth
    simp [Builder.start, Builder.depth, Step.opens]
    omega
  saved := by simp [savedDepths_snoc, h.saved]

lemma token (h : Counts steps s) (t : Token) :
    Counts (steps ++ [.token t]) { s with builder := s.builder.token t } where
  depth := by simpa [Builder.token, Builder.push, Builder.depth, Step.opens] using h.depth
  saved := by simp [savedDepths_snoc, h.saved]

lemma checkpoint (h : Counts steps s) :
    Counts (steps ++ [.checkpoint]) { s with saved := s.saved.push s.builder.checkpoint } where
  depth := by simpa [Step.opens] using h.depth
  saved := by simp [savedDepths_snoc, h.saved, Builder.checkpoint, h.depth_eq]

lemma startAt (h : Counts steps s) (place : Checkpoint) (index : Nat) (kind : NodeKind) :
    Counts (steps ++ [.startAt index kind])
      { s with builder := s.builder.startAt place kind } where
  depth := by
    have hdepth := h.depth
    simp only [Builder.depth] at hdepth
    simp [Builder.startAt, Builder.depth, Step.opens]
    omega
  saved := by simp [savedDepths_snoc, h.saved]

lemma finishNode (h : Counts steps s) (hbelow : s.builder.below ≠ []) :
    Counts (steps ++ [.finishNode]) { s with builder := s.builder.finishNode } where
  depth := by
    obtain ⟨outer, below, hcons⟩ := List.exists_cons_of_ne_nil hbelow
    have hdepth := h.depth
    rw [Builder.depth, hcons, List.length_cons] at hdepth
    simp [Builder.finishNode, hcons, Builder.push, Builder.depth, Step.opens]
    omega
  saved := by simp [savedDepths_snoc, h.saved]

end Counts

/-- **One step of a session** fails with what is wrong with it after the steps before, and otherwise
leaves as many frames open as they tell with it.

**Proof sketch.** The number of open frames and those at the checkpoints are as counted from the
steps, so the step looks at the same numbers. -/
theorem counts_step {steps : List Step} {s : Session} (h : Counts steps s) (step : Step) :
    match s.step step with
    | .error fault => fault? steps step = some fault
    | .ok s' => fault? steps step = none ∧ Counts (steps ++ [step]) s' := by
  cases step with
  | start kind => exact ⟨rfl, h.start kind⟩
  | token t => exact ⟨rfl, h.token t⟩
  | checkpoint => exact ⟨rfl, h.checkpoint⟩
  | startAt index kind =>
    simp only [Session.step, fault?, h.getElem?_saved, ← h.size_saved, ← h.depth_eq]
    cases hplace : s.saved[index]? with
    | none => rfl
    | some place =>
      by_cases hdepth : place.depth = s.builder.depth
      · simp only [startAtFault?, hdepth, if_true, Option.map_some]
        exact ⟨trivial, h.startAt place index kind⟩
      · simp [startAtFault?, hdepth]
  | finishNode =>
    have hdepth := h.depth_eq
    rw [Builder.depth] at hdepth
    cases hbelow : s.builder.below with
    | nil =>
      rw [hbelow] at hdepth
      simp [Session.step, finishFault?, hbelow, fault?, ← hdepth]
    | cons outer below =>
      have hopen : openFrames steps ≠ 1 := by
        rw [hbelow, List.length_cons] at hdepth
        omega
      simp only [Session.step, finishFault?, hbelow, List.isEmpty_cons, fault?, hopen, if_false]
      exact ⟨trivial, h.finishNode (by simp [hbelow])⟩

/-! ### Frames and what is in them -/

/-- **The session that some steps lead to.** -/
structure Follows (steps : List Step) (s : Session) : Prop where
  /-- As many frames are open as the steps tell. -/
  counts : Counts steps s
  /-- The frames hold the tokens added, … -/
  leaves : leavesOfFrames (s.builder.top :: s.builder.below) = tokensOf steps
  /-- … the last of which ends where a node without children would be placed. -/
  offset : s.builder.offset = Grammar.endOf (tokensOf steps)
  /-- There is a node for each that was opened, and the root. -/
  count : countOfFrames (s.builder.top :: s.builder.below) = steps.countP Step.opens + 1
  /-- The nodes in the frames have been finished. -/
  finished : EachOfFrames (FinishedIn steps) (s.builder.top :: s.builder.below)

namespace Follows

variable {steps : List Step} {s s' : Session}

/-- A session begins with the frame of the root alone. -/
lemma nil : Follows [] {} where
  counts := ⟨rfl, rfl⟩
  leaves := rfl
  offset := rfl
  count := rfl
  finished := ⟨trivial, Element.each_nil⟩

lemma start (h : Follows steps s) (kind : NodeKind) :
    Follows (steps ++ [.start kind]) { s with builder := s.builder.start kind } where
  counts := h.counts.start kind
  leaves := by
    rw [tokensOf_snoc, ← h.leaves]
    simp [Builder.start, leavesOfFrames, Step.token?, Element.leavesOfList]
  offset := by
    rw [tokensOf_snoc]
    simpa [Builder.start, Step.token?] using h.offset
  count := by
    have hcount := h.count
    rw [countOfFrames] at hcount
    simp [Builder.start, countOfFrames, Step.opens, Element.countOfList]
    omega
  finished := ⟨h.finished.mono fun _ _ hn => hn.snoc _, Element.each_nil⟩

lemma token (h : Follows steps s) (t : Token) :
    Follows (steps ++ [.token t]) { s with builder := s.builder.token t } where
  counts := h.counts.token t
  leaves := by
    rw [tokensOf_snoc, ← h.leaves]
    simp [Builder.token, Builder.push, leavesOfFrames, Step.token?, Element.leavesOfList]
  offset := by simp [Builder.token, tokensOf_snoc, Step.token?, Grammar.endOf]
  count := by
    simpa [Builder.token, Builder.push, countOfFrames, Step.opens, Element.countOfList_append,
      Element.countOfList] using h.count
  finished := by
    obtain ⟨hbelow, htop⟩ := h.finished.mono fun _ _ hn => hn.snoc (.token t)
    refine ⟨hbelow, ?_⟩
    simp only [Builder.token, Builder.push, Array.toList_push]
    exact Element.each_append_iff.2 ⟨htop, Element.each_token t⟩

lemma checkpoint (h : Follows steps s) :
    Follows (steps ++ [.checkpoint]) { s with saved := s.saved.push s.builder.checkpoint } where
  counts := h.counts.checkpoint
  leaves := by simpa [tokensOf_snoc, Step.token?] using h.leaves
  offset := by simpa [tokensOf_snoc, Step.token?] using h.offset
  count := by simpa [Step.opens] using h.count
  finished := h.finished.mono fun _ _ hn => hn.snoc _

/-- A node that is opened at a checkpoint takes over children of the innermost frame from a place
on, wherever in that frame the place is. -/
lemma startAt (h : Follows steps s) (place : Checkpoint) (index : Nat) (kind : NodeKind) :
    Follows (steps ++ [.startAt index kind])
      { s with builder := s.builder.startAt place kind } := by
  -- Nothing is asked of the size of the place: a place from a frame that is closed by now splits the
  -- children of the innermost frame somewhere, and a place behind all of them takes none.
  have hsplit := List.take_append_drop place.size s.builder.top.children.toList
  have hkept : (s.builder.top.children.shrink place.size).toList =
      s.builder.top.children.toList.take place.size := by simp
  have htaken : (s.builder.top.children.extract place.size).toList =
      s.builder.top.children.toList.drop place.size := by
    simp [List.take_of_length_le]
  have hleaves := h.leaves
  have hcount := h.count
  have hfinished := h.finished.mono fun _ _ hn => hn.snoc (.startAt index kind)
  rw [leavesOfFrames, ← hsplit, Element.leavesOfList_append] at hleaves
  rw [countOfFrames, ← hsplit, Element.countOfList_append] at hcount
  rw [EachOfFrames, ← hsplit, Element.each_append_iff] at hfinished
  refine ⟨h.counts.startAt place index kind, ?_, ?_, ?_, ?_⟩
  · simp only [Builder.startAt, leavesOfFrames, hkept, htaken]
    rw [List.append_assoc, hleaves]
    simp [tokensOf_snoc, Step.token?]
  · simpa [Builder.startAt, tokensOf_snoc, Step.token?] using h.offset
  · simp only [Builder.startAt, countOfFrames, hkept, htaken]
    simp [Step.opens]
    omega
  · simp only [Builder.startAt, EachOfFrames, leavesOfFrames, hkept, htaken]
    exact ⟨⟨hfinished.1, hfinished.2.1⟩, hfinished.2.2⟩

/-- A node that is finished has the last of the tokens added so far. -/
lemma finishNode (h : Follows steps s) (hbelow : s.builder.below ≠ []) :
    Follows (steps ++ [.finishNode]) { s with builder := s.builder.finishNode } := by
  have hcounts := h.counts.finishNode hbelow
  obtain ⟨outer, below, hcons⟩ := List.exists_cons_of_ne_nil hbelow
  have hstep : s.builder.finishNode =
      ⟨adopt outer s.builder.top s.builder.offset, below, s.builder.offset⟩ := by
    rw [Builder.finishNode, hcons]
    rfl
  have hleaves := h.leaves
  have hcount := h.count
  have hfinished := h.finished.mono fun _ _ hn => hn.snoc .finishNode
  rw [hcons] at hleaves hcount hfinished
  rw [hstep] at hcounts ⊢
  refine ⟨hcounts, ?_, ?_, ?_, ?_⟩
  · rw [leavesOfFrames_adopt, hleaves]
    simp [tokensOf_snoc, Step.token?]
  · simpa [tokensOf_snoc, Step.token?] using h.offset
  · rw [countOfFrames_adopt, hcount]
    simp [Step.opens]
  · refine hfinished.adopt ⟨steps, [], rfl, ?_, ?_⟩
    · rw [← hleaves, leaves_close]
      rfl
    · rw [← h.offset]
      exact Node.spansChildren_ofChildren ..

end Follows

/-- **One step of a session** fails with what is wrong with it after the steps before, and otherwise
leads to the session that all of them lead to. -/
theorem follows_step {steps : List Step} {s : Session} (h : Follows steps s) (step : Step) :
    match s.step step with
    | .error fault => fault? steps step = some fault
    | .ok s' => fault? steps step = none ∧ Follows (steps ++ [step]) s' := by
  have hcounts := counts_step h.counts step
  cases hs : s.step step with
  | error fault =>
    rw [hs] at hcounts
    exact hcounts
  | ok s' =>
    rw [hs] at hcounts
    refine ⟨hcounts.1, ?_⟩
    cases step with
    | start kind =>
      cases hs
      exact h.start kind
    | token t =>
      cases hs
      exact h.token t
    | checkpoint =>
      cases hs
      exact h.checkpoint
    | startAt index kind =>
      obtain ⟨place, -, -, rfl⟩ := step_startAt_eq_ok_iff.1 hs
      exact h.startAt place index kind
    | finishNode =>
      obtain ⟨hbelow, rfl⟩ := step_finishNode_eq_ok_iff.1 hs
      exact h.finishNode hbelow

/-! ## Runs -/

/-- A session of one step more. -/
lemma run_snoc (s : Session) (steps : List Step) (step : Step) :
    s.run (steps ++ [step]) = s.run steps >>= (·.step step) := by
  rw [run, List.foldlM_append]
  simp [run]

/-- **What each step keeps, a run keeps**, up to its first step out of place: it fails with what is
wrong with that step, and if there is none, what held before the first step holds after the last.

**Proof sketch.** Induction on the steps from the end. -/
theorem run_of_step {I : List Step → Session → Prop} {s : Session} (hstart : I [] s)
    (hstep : ∀ (steps : List Step) (s : Session) (step : Step), I steps s →
      match s.step step with
      | .error fault => fault? steps step = some fault
      | .ok s' => fault? steps step = none ∧ I (steps ++ [step]) s') (steps : List Step) :
    match s.run steps with
    | .error fault => ∃ (i : Nat) (hi : i < steps.length), InPlace (steps.take i) ∧
        fault? (steps.take i) steps[i] = some fault
    | .ok s' => InPlace steps ∧ I steps s' := by
  induction steps using List.reverseRecOn with
  | nil => exact ⟨nofun, hstart⟩
  | append_singleton steps step ih =>
    rw [run_snoc]
    cases hrun : s.run steps with
    | error fault =>
      rw [hrun] at ih
      obtain ⟨i, hi, hbefore, hfault⟩ := ih
      refine ⟨i, by simp; omega, ?_⟩
      rw [List.take_append_of_le_length hi.le, List.getElem_append_left hi]
      exact ⟨hbefore, hfault⟩
    | ok s₁ =>
      rw [hrun] at ih
      obtain ⟨hsteps, hkept⟩ := ih
      have hlast := hstep steps s₁ step hkept
      rw [show (Except.ok s₁ >>= (·.step step)) = s₁.step step from rfl]
      cases hs : s₁.step step with
      | error fault =>
        rw [hs] at hlast
        refine ⟨steps.length, by simp, ?_⟩
        simpa using ⟨hsteps, hlast⟩
      | ok s₂ =>
        rw [hs] at hlast
        exact ⟨inPlace_snoc_iff.2 ⟨hsteps, hlast.1⟩, hlast.2⟩

/-- **A run of a session** fails with what is wrong with the first step that is out of place; if
there is none, it leads to the session of its steps. -/
theorem follows_run (steps : List Step) :
    match ({} : Session).run steps with
    | .error fault => ∃ (i : Nat) (hi : i < steps.length), InPlace (steps.take i) ∧
        fault? (steps.take i) steps[i] = some fault
    | .ok s => InPlace steps ∧ Follows steps s :=
  run_of_step Follows.nil (fun _ _ step h => follows_step h step) steps

/-- Steps that are in place lead on from any session with no frame inside another and no
checkpoint, and it stays as they tell. -/
lemma exists_run_of_inPlace {s : Session} {steps : List Step} (hs : Counts [] s)
    (hsteps : InPlace steps) : ∃ s', s.run steps = .ok s' ∧ Counts steps s' := by
  have hall := run_of_step hs (fun _ _ step h => counts_step h step) steps
  cases hrun : s.run steps with
  | error fault =>
    rw [hrun] at hall
    obtain ⟨i, hi, -, hfault⟩ := hall
    rw [hsteps i hi] at hfault
    cases hfault
  | ok s' =>
    rw [hrun] at hall
    exact ⟨s', rfl, hall.2⟩

/-- A session whose first step out of place is found ends there. -/
lemma run_eq_error {steps : List Step} {fault : Fault} {i : Nat} (hi : i < steps.length)
    (hbefore : InPlace (steps.take i)) (hfault : fault? (steps.take i) steps[i] = some fault) :
    ({} : Session).run steps = .error fault := by
  have hstart := follows_run (steps.take i)
  cases hrun : ({} : Session).run (steps.take i) with
  | error other =>
    rw [hrun] at hstart
    obtain ⟨j, hj, -, hother⟩ := hstart
    rw [hbefore j hj] at hother
    cases hother
  | ok s =>
    rw [hrun] at hstart
    have hstep := follows_step hstart.2 steps[i]
    cases hs : s.step steps[i] with
    | ok s' =>
      rw [hs, hfault] at hstep
      cases hstep.1
    | error other =>
      rw [hs, hfault] at hstep
      obtain rfl : fault = other := Option.some_inj.1 hstep
      have hsplit : steps = steps.take i ++ [steps[i]] ++ steps.drop (i + 1) := by simp
      rw [hsplit, run, List.foldlM_append, ← run, run_snoc, hrun,
        show (Except.ok s >>= (·.step steps[i])) = s.step steps[i] from rfl, hs]
      rfl

/-- **A session with a builder.** It fails if and only if one of its steps is out of place, and
then with what is wrong with the first that is: a node is finished while only the frame of the root
is open, or one is opened at a checkpoint of another depth, or at one that was not made. Otherwise
its tree is a root with the tokens added, in order, and a node for each that was opened; and each
node reaches from the start of its first child to the stop of its last, or is empty where the last
token ended that was added before the node was finished — by a step, or in the end.

**Proof sketch.** `follows_run` for the session, and `closeAll_spec` for the frames left open, which
are finished when all tokens have been added. -/
theorem run_spec (steps : List Step) :
    (∀ fault : Fault, ({} : Session).run steps = .error fault ↔
      ∃ (i : Nat) (hi : i < steps.length), InPlace (steps.take i) ∧
        fault? (steps.take i) steps[i] = some fault) ∧
      (InPlace steps → ∃ s : Session, ({} : Session).run steps = .ok s ∧
        s.builder.finish.kind = .file ∧ s.builder.finish.leaves = tokensOf steps ∧
        s.builder.finish.count = steps.countP Step.opens + 1 ∧
        ∀ (before : List Token) (n : Node) (after : List Token),
          s.builder.finish.Occurs before n after →
            FinishedIn steps before n ∨ FinishedAt steps before n) := by
  have hall := follows_run steps
  refine ⟨fun fault => ⟨fun hrun => ?_, fun ⟨i, hi, hbefore, hfault⟩ =>
    run_eq_error hi hbefore hfault⟩, fun hsteps => ?_⟩
  · rwa [hrun] at hall
  · cases hrun : ({} : Session).run steps with
    | error fault =>
      rw [hrun] at hall
      obtain ⟨i, hi, -, hfault⟩ := hall
      rw [hsteps i hi] at hfault
      cases hfault
    | ok s =>
      rw [hrun] at hall
      have hfollows := hall.2
      refine ⟨s, rfl, ?_⟩
      rw [← hfollows.leaves, ← hfollows.count]
      refine closeAll_spec (hfollows.finished.mono fun _ _ => .inl) fun before n htokens hspan => ?_
      rw [hfollows.leaves] at htokens
      rw [hfollows.offset] at hspan
      exact .inr ⟨htokens, hspan⟩

/-- A checkpoint that was made in a node that is finished by now serves in the next one, which is at
the same depth. There the node opened at it takes over both tokens, a node without children stands
behind them, and the session ends before the node around them is finished. -/
theorem run_spec_stray_checkpoint :
    let steps : List Step := [.start .recordDecl, .checkpoint, .token (.ofText .ident "a" 0),
      .finishNode, .start .txDecl, .token (.ofText .ident "b" 1), .token (.ofText .ident "c" 2),
      .startAt 0 .nameRef, .finishNode, .start .typeRef, .finishNode]
    InPlace steps ∧ ∃ s : Session, ({} : Session).run steps = .ok s ∧
      s.builder.finish.leaves.map (·.text) = ["a", "b", "c"] ∧ s.builder.finish.count = 5 ∧
      ∀ (before : List Token) (n : Node) (after : List Token),
        s.builder.finish.Occurs before n after →
          FinishedIn steps before n ∨ FinishedAt steps before n := by
  intro steps
  have hsteps : InPlace steps := by decide
  obtain ⟨s, hrun, -, hleaves, hcount, hspans⟩ := (run_spec steps).2 hsteps
  refine ⟨hsteps, s, hrun, ?_, hcount, hspans⟩
  rw [hleaves]
  rfl

end Session

end Builder

end TxTree
