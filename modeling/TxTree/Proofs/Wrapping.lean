import TxTree.Proofs.Sessions

set_option relaxedAutoImplicit false
set_option autoImplicit false

/-!
# Nodes opened late

A node can be opened after its first children were added, at a checkpoint made before them. It is
then as if it had been opened at the checkpoint. For steps that finish all the nodes they open, and
no other, do the same wherever they are done: they see nothing of the frames around them and of the
children before them, and only put further children behind these.

## Main definitions

* `TxTree.Builder.Step.relocate` — a step among others that made checkpoints before.
* `TxTree.Builder.Balanced` — steps that are in place by themselves and close the frames they open.
* `TxTree.Builder.embed` — the frames of a builder inside those of another.
* `TxTree.Builder.AddsChildren` — steps that add given children to the innermost frame.
* `TxTree.Builder.openedEarly`, `TxTree.Builder.openedLate` — a node around some steps, opened
  before the first of them or at a checkpoint there.

## Main results

* `TxTree.Builder.Session.step_embed`, `TxTree.Builder.Session.run_embed` — steps that can be done
  alone do the same inside other frames.
* `TxTree.Builder.Balanced.addsChildren` — balanced steps add children to the innermost frame, the
  same ones wherever they are done.
* `TxTree.Builder.Session.run_openedLate` — to open a node late or early makes no difference.
-/

namespace TxTree.Builder

/-! ## Balanced steps -/

/-- A step among others that made `n` checkpoints before. -/
def Step.relocate (n : Nat) : Step → Step
  | .startAt index kind => .startAt (index + n) kind
  | step => step

/-- **Balanced steps**: by themselves they are in place, so that they finish only nodes that they
opened, and open nodes late only at checkpoints of their own; and they finish all of them. -/
structure Balanced (steps : List Step) : Prop where
  /-- They are in place. -/
  inPlace : InPlace steps
  /-- They leave no frame open. -/
  openFrames_eq : openFrames steps = 1

/-- The number of checkpoints among some steps. -/
lemma length_savedDepths (steps : List Step) :
    (savedDepths steps).length = steps.count .checkpoint := by
  induction steps using List.reverseRecOn with
  | nil => rfl
  | append_singleton steps step ih =>
    rw [savedDepths_snoc, List.length_append, ih, List.count_append, List.count_singleton]
    by_cases h : step = .checkpoint <;> simp [h]

/-! ## A builder inside another -/

/-- Some frames inside those of a builder: the outermost of them goes on with the innermost frame of
the builder. -/
def embedFrames (b : Builder) : Frame → List Frame → Frame × List Frame
  | f, [] => ({ b.top with children := b.top.children ++ f.children }, b.below)
  | f, g :: below => (f, (embedFrames b g below).1 :: (embedFrames b g below).2)

/-- **A builder inside another**: the frame of its root goes on with the innermost frame of the
other. -/
def embed (b l : Builder) : Builder where
  top := (embedFrames b l.top l.below).1
  below := (embedFrames b l.top l.below).2
  offset := l.offset

/-- A checkpoint of a builder inside another. -/
def embedPlace (b : Builder) (place : Checkpoint) : Checkpoint where
  depth := place.depth + b.below.length
  size := if place.depth = 1 then b.top.children.size + place.size else place.size

section Embed

variable (b l : Builder)

lemma length_embedFrames (f : Frame) (below : List Frame) :
    (embedFrames b f below).2.length = below.length + b.below.length := by
  induction below generalizing f with
  | nil => simp [embedFrames]
  | cons g below ih =>
    simp only [embedFrames, List.length_cons, ih]
    omega

/-- The frames around a builder are open besides its own. -/
lemma depth_embed : (b.embed l).depth = l.depth + b.below.length := by
  simp only [depth, embed, length_embedFrames]
  omega

/-- Nothing is added to a builder by one of which only the root is open, without children. -/
lemma embed_empty : b.embed { offset := b.offset } = b := by
  obtain ⟨⟨kind, children⟩, below, offset⟩ := b
  simp [embed, embedFrames]

lemma push_embed (child : Element) : (b.embed l).push child = b.embed (l.push child) := by
  obtain ⟨f, below, offset⟩ := l
  cases below with
  | nil => simp [embed, embedFrames, push]
  | cons g below => rfl

lemma token_embed (t : Token) : (b.embed l).token t = b.embed (l.token t) := by
  rw [token, push_embed, token]
  rfl

lemma checkpoint_embed : (b.embed l).checkpoint = b.embedPlace l.checkpoint := by
  have hdepth := depth_embed b l
  obtain ⟨f, below, offset⟩ := l
  rw [checkpoint, hdepth]
  cases below with
  | nil => simp [checkpoint, embedPlace, embed, embedFrames, depth]
  | cons g below => simp [checkpoint, embedPlace, embed, embedFrames, depth]

/-- A node that is opened at a checkpoint of a builder takes over the same children inside
another. -/
lemma startAt_embed {place : Checkpoint} (hdepth : place.depth = l.depth) (kind : NodeKind) :
    (b.embed l).startAt (b.embedPlace place) kind = b.embed (l.startAt place kind) := by
  obtain ⟨f, below, offset⟩ := l
  cases below with
  | nil =>
    -- The children of the other builder stand before the place and stay where they are.
    have hone : place.depth = 1 := hdepth
    have hfront : b.top.children.extract 0 (b.top.children.size + place.size) = b.top.children :=
      Array.extract_eq_self_of_le (Nat.le_add_right ..)
    simp [startAt, embedPlace, embed, embedFrames, hone, Array.extract_append, hfront]
  | cons g below =>
    have hne : place.depth ≠ 1 := by simp [hdepth, depth]
    simp [startAt, embedPlace, embed, embedFrames, hne]

/-- A node that is finished inside another builder is the same. -/
lemma finishNode_embed (hbelow : l.below ≠ []) :
    (b.embed l).finishNode = b.embed l.finishNode := by
  obtain ⟨f, below, offset⟩ := l
  cases below with
  | nil => exact absurd rfl hbelow
  | cons g below =>
    change ((b.embed ⟨g, below, offset⟩).push _) = _
    rw [push_embed]
    rfl

end Embed

namespace Session

section Run

variable {s s' : Session}

lemma run_cons_of_ok {step : Step} {steps : List Step} (h : s.step step = .ok s') :
    s.run (step :: steps) = s'.run steps := by
  rw [run, List.foldlM_cons, h]
  rfl

lemma run_append_of_ok {steps steps' : List Step} (h : s.run steps = .ok s') :
    s.run (steps ++ steps') = s'.run steps' := by
  rw [run] at h
  rw [run, List.foldlM_append, h]
  rfl

end Run

/-- A session inside another. -/
def embed (s l : Session) : Session where
  builder := s.builder.embed l.builder
  saved := s.saved ++ l.saved.map s.builder.embedPlace

/-- **A step that can be done by itself does the same inside other frames.**

**Proof sketch.** The frames around it are not looked at: there are as many more at the checkpoint
as now, and the children before it in the innermost of them stay in front. -/
theorem step_embed (s : Session) {l l' : Session} {step : Step} (h : l.step step = .ok l') :
    (s.embed l).step (step.relocate s.saved.size) = .ok (s.embed l') := by
  cases step with
  | start kind =>
    cases h
    rfl
  | token t =>
    cases h
    simp [Session.step, Step.relocate, embed, token_embed]
  | checkpoint =>
    cases h
    simp [Session.step, Step.relocate, embed, checkpoint_embed]
  | startAt index kind =>
    obtain ⟨place, hplace, hdepth, rfl⟩ := step_startAt_eq_ok_iff.1 h
    refine step_startAt_eq_ok_iff.2 ⟨s.builder.embedPlace place, ?_, ?_, ?_⟩
    · simp [embed, Array.getElem?_append, hplace]
    · simp only [embedPlace, embed, depth_embed, hdepth]
    · simp only [embed, startAt_embed _ _ hdepth]
  | finishNode =>
    obtain ⟨hbelow, rfl⟩ := step_finishNode_eq_ok_iff.1 h
    refine step_finishNode_eq_ok_iff.2 ⟨?_, ?_⟩
    · obtain ⟨outer, below, hcons⟩ := List.exists_cons_of_ne_nil hbelow
      simp [embed, Builder.embed, hcons, embedFrames]
    · simp only [embed, finishNode_embed _ _ hbelow]

/-- **Steps that can be done by themselves do the same inside other frames.** -/
theorem run_embed (s : Session) {l l' : Session} {steps : List Step} (h : l.run steps = .ok l') :
    (s.embed l).run (steps.map (Step.relocate s.saved.size)) = .ok (s.embed l') := by
  induction steps generalizing l with
  | nil =>
    cases h
    rfl
  | cons step steps ih =>
    cases hstep : l.step step with
    | error fault =>
      rw [run, List.foldlM_cons, hstep] at h
      cases h
    | ok l₁ =>
      rw [run_cons_of_ok hstep] at h
      rw [List.map_cons, run_cons_of_ok (step_embed s hstep)]
      exact ih h

end Session

/-! ## What balanced steps do -/

/-- Further children of the innermost frame, the tokens of which end at an offset. -/
def extend (b : Builder) (children : Array Element) (stop : Nat) : Builder where
  top := { b.top with children := b.top.children ++ children }
  below := b.below
  offset := stop

/-- A node opened at a checkpoint before the last children of a frame is a new one that gets
them. -/
lemma startAt_checkpoint_extend (b : Builder) (children : Array Element) (stop : Nat)
    (kind : NodeKind) :
    (b.extend children stop).startAt b.checkpoint kind = (b.start kind).extend children stop := by
  simp [startAt, checkpoint, extend, start, Array.extract_append]

/-- A node that is finished is one child more of the frame that it was opened in. -/
lemma finishNode_extend_start (b : Builder) (kind : NodeKind) (children : Array Element)
    (stop : Nat) :
    ((b.start kind).extend children stop).finishNode =
      b.extend #[.node (Node.ofChildren kind children.toList stop)] stop := by
  simp [finishNode, extend, start, push, close]

lemma extend_extend (b : Builder) (cs ds : Array Element) (stop stop' : Nat) :
    (b.extend cs stop).extend ds stop' = b.extend (cs ++ ds) stop' := by
  simp [extend]

/-- **Steps that add children to the innermost frame** of any session in which the last token ends
at `offset`: always the same ones, up to `stop`. They make their checkpoints besides. -/
def AddsChildren (steps : List Step) (offset : Nat) (children : Array Element) (stop : Nat) :
    Prop :=
  ∀ s : Session, s.builder.offset = offset →
    ∃ places : Array Checkpoint, places.size = steps.count .checkpoint ∧
      s.run (steps.map (Step.relocate s.saved.size)) =
        .ok ⟨s.builder.extend children stop, s.saved ++ places⟩

/-- **Balanced steps add children to the innermost frame.** What they add depends only on where the
last token before them ends.

**Proof sketch.** By themselves they lead to a builder of which only the root is open, and in any
session they do the same inside its frames. -/
theorem Balanced.addsChildren {steps : List Step} (h : Balanced steps) (offset : Nat) :
    ∃ children stop, AddsChildren steps offset children stop := by
  obtain ⟨l, hrun, hcounts⟩ :=
    Session.exists_run_of_inPlace (s := ⟨{ offset }, #[]⟩) ⟨rfl, rfl⟩ h.inPlace
  have hbelow : l.builder.below = [] := by
    have hdepth := hcounts.depth_eq
    rw [h.openFrames_eq, depth] at hdepth
    exact List.length_eq_zero_iff.1 (Nat.succ.inj hdepth)
  refine ⟨l.builder.top.children, l.builder.offset, ?_⟩
  rintro s rfl
  refine ⟨l.saved.map s.builder.embedPlace, ?_, ?_⟩
  · rw [Array.size_map, hcounts.size_saved, length_savedDepths]
  · have hembed := s.run_embed hrun
    have hstart : s.embed ⟨{ offset := s.builder.offset }, #[]⟩ = s := by
      simp only [Session.embed, embed_empty, Array.map_empty, Array.append_empty]
    rw [hstart] at hembed
    rw [hembed]
    simp only [Session.embed, embed, hbelow, embedFrames, extend]

/-! ## Early and late -/

/-- Steps that open a node, add to it what some balanced steps and then others do, and finish it, in
a session with some checkpoints. -/
def openedEarly (saved : Nat) (kind : NodeKind) (first second : List Step) : List Step :=
  .start kind :: (first.map (Step.relocate saved) ++
    (second.map (Step.relocate (saved + first.count .checkpoint)) ++ [.finishNode]))

/-- Steps that do the same but open the node between the two, at a checkpoint made before them. -/
def openedLate (saved : Nat) (kind : NodeKind) (first second : List Step) : List Step :=
  .checkpoint :: (first.map (Step.relocate (saved + 1)) ++ .startAt saved kind ::
    (second.map (Step.relocate (saved + 1 + first.count .checkpoint)) ++ [.finishNode]))

namespace AddsChildren

variable {first second : List Step} {offset mid stop : Nat} {cs ds : Array Element}

/-- Once the node is open and the first steps are done, the second ones add their children to it,
and it becomes one child more of the frame that it was opened in. -/
lemma exists_run_finishNode (h : AddsChildren second mid ds stop) (b : Builder) (kind : NodeKind)
    (cs : Array Element) (saved : Array Checkpoint) :
    ∃ saved', (Session.mk ((b.start kind).extend cs mid) saved).run
      (second.map (Step.relocate saved.size) ++ [.finishNode]) =
        .ok ⟨b.extend #[.node (Node.ofChildren kind (cs ++ ds).toList stop)] stop, saved'⟩ := by
  obtain ⟨places, -, hrun⟩ := h ⟨(b.start kind).extend cs mid, saved⟩ rfl
  refine ⟨saved ++ places, ?_⟩
  rw [Session.run_append_of_ok hrun, extend_extend, ← finishNode_extend_start]
  exact Session.run_cons_of_ok (Session.step_finishNode_eq_ok_iff.2 ⟨List.cons_ne_nil _ _, rfl⟩)

/-- A node that is opened early gets the children of the first steps and of the second ones. -/
lemma exists_run_openedEarly (hfirst : AddsChildren first offset cs mid)
    (hsecond : AddsChildren second mid ds stop) (s : Session) (hs : s.builder.offset = offset)
    (kind : NodeKind) :
    ∃ saved', s.run (openedEarly s.saved.size kind first second) =
      .ok ⟨s.builder.extend #[.node (Node.ofChildren kind (cs ++ ds).toList stop)] stop,
        saved'⟩ := by
  obtain ⟨places, hplaces, hrun⟩ := hfirst { s with builder := s.builder.start kind } hs
  obtain ⟨saved', hrest⟩ := hsecond.exists_run_finishNode s.builder kind cs (s.saved ++ places)
  rw [Array.size_append, hplaces] at hrest
  refine ⟨saved', ?_⟩
  rw [openedEarly, Session.run_cons_of_ok rfl, Session.run_append_of_ok hrun]
  exact hrest

/-- A node that is opened late takes over the children of the first steps, and gets those of the
second ones. -/
lemma exists_run_openedLate (hfirst : AddsChildren first offset cs mid)
    (hsecond : AddsChildren second mid ds stop) (s : Session) (hs : s.builder.offset = offset)
    (kind : NodeKind) :
    ∃ saved', s.run (openedLate s.saved.size kind first second) =
      .ok ⟨s.builder.extend #[.node (Node.ofChildren kind (cs ++ ds).toList stop)] stop,
        saved'⟩ := by
  obtain ⟨places, hplaces, hrun⟩ :=
    hfirst { s with saved := s.saved.push s.builder.checkpoint } hs
  obtain ⟨saved', hrest⟩ := hsecond.exists_run_finishNode s.builder kind cs
    (s.saved.push s.builder.checkpoint ++ places)
  rw [Array.size_append, Array.size_push, hplaces] at hrest
  rw [Array.size_push] at hrun
  have hopen : (Session.mk (s.builder.extend cs mid)
      (s.saved.push s.builder.checkpoint ++ places)).step (.startAt s.saved.size kind) =
        .ok ⟨(s.builder.start kind).extend cs mid,
          s.saved.push s.builder.checkpoint ++ places⟩ := by
    refine Session.step_startAt_eq_ok_iff.2 ⟨s.builder.checkpoint, ?_, rfl, ?_⟩
    · simp [Array.getElem?_append]
    · rw [startAt_checkpoint_extend]
  refine ⟨saved', ?_⟩
  rw [openedLate, Session.run_cons_of_ok rfl, Session.run_append_of_ok hrun,
    Session.run_cons_of_ok hopen]
  exact hrest

end AddsChildren

namespace Session

/-- **To open a node late or early makes no difference**: in any session, a checkpoint, balanced
steps, the node opened at the checkpoint, further balanced steps and the end of the node lead to the
same builder as the node, all these steps and its end, and so to the same tree. What they lead to is
the builder before with one node more in the innermost frame.

**Proof sketch.** The first steps add the same children, whether to the frame that was the innermost
or to that of the new node, and a node opened at the checkpoint takes over just these. From there on
the two builders are the same. -/
theorem run_openedLate (s : Session) (kind : NodeKind) {first second : List Step}
    (hfirst : Balanced first) (hsecond : Balanced second) :
    ∃ early late : Session,
      s.run (openedEarly s.saved.size kind first second) = .ok early ∧
        s.run (openedLate s.saved.size kind first second) = .ok late ∧
        late.builder = early.builder ∧ late.builder.finish = early.builder.finish ∧
        ∃ (children : List Element) (stop : Nat), early.builder =
          s.builder.extend #[.node (Node.ofChildren kind children stop)] stop := by
  obtain ⟨cs, mid, hcs⟩ := hfirst.addsChildren s.builder.offset
  obtain ⟨ds, stop, hds⟩ := hsecond.addsChildren mid
  obtain ⟨early, hearly⟩ := hcs.exists_run_openedEarly hds s rfl kind
  obtain ⟨late, hlate⟩ := hcs.exists_run_openedLate hds s rfl kind
  exact ⟨_, _, hearly, hlate, rfl, rfl, _, _, rfl⟩

/-- The steps of a field access, with a checkpoint of their own and a node around the operand, and
those of a node without children, in a session inside a declaration that made a checkpoint
before. -/
theorem run_openedLate_nested :
    let s : Session := ⟨⟨⟨.txDecl, #[.token (.ofText .txKw "tx" 0)]⟩, [⟨.file, #[]⟩], 2⟩, #[⟨2, 0⟩]⟩
    let first : List Step := [.checkpoint, .start .nameRef, .token (.ofText .ident "a" 2),
      .finishNode, .startAt 0 .fieldAccessExpr, .token (.ofText .dot "." 3), .finishNode]
    let second : List Step := [.token (.ofText .plus "+" 4), .start .nameRef, .finishNode]
    Balanced first ∧ Balanced second ∧ ∃ early late : Session,
      s.run (openedEarly s.saved.size .binaryExpr first second) = .ok early ∧
        s.run (openedLate s.saved.size .binaryExpr first second) = .ok late ∧
        late.builder = early.builder ∧ late.builder.finish = early.builder.finish ∧
        ∃ (children : List Element) (stop : Nat), early.builder =
          s.builder.extend #[.node (Node.ofChildren .binaryExpr children stop)] stop := by
  intro s first second
  have hfirst : Balanced first := ⟨by decide, by decide⟩
  have hsecond : Balanced second := ⟨by decide, by decide⟩
  exact ⟨hfirst, hsecond, run_openedLate s .binaryExpr hfirst hsecond⟩

end Session

end TxTree.Builder
