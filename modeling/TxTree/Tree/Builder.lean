import TxTree.Tree.Basic

set_option relaxedAutoImplicit false
set_option autoImplicit false

/-!
# Building trees

A builder keeps a stack of open frames, each a node in the making: its kind and the children
gathered so far. The outermost frame is that of the root and is never closed by hand. Tokens go to
the innermost frame, and a node that is finished becomes a child of the frame around it. A
checkpoint marks a place in the innermost frame, at which a node can be opened later: that node
takes over the children gathered since.

## Main definitions

* `TxTree.Builder` — the open frames, and the end of the last token.
* `TxTree.Builder.token`, `TxTree.Builder.start`, `TxTree.Builder.checkpoint`,
  `TxTree.Builder.startAt`, `TxTree.Builder.finishNode` — the steps.
* `TxTree.Builder.finish` — the root, once all frames are closed.
* `TxTree.Builder.Fault` — how a step can be out of place.
* `TxTree.Builder.Session` — a builder driven by a list of steps.
-/

namespace TxTree

/-- A node in the making. -/
structure Frame where
  /-- The kind that the node will have. -/
  kind : NodeKind
  /-- The children gathered so far. -/
  children : Array Element := #[]
deriving DecidableEq, Repr, Inhabited

/-- A place in the innermost frame: the number of open frames, and the number of children before
the place. -/
structure Checkpoint where
  /-- The number of open frames. -/
  depth : Nat
  /-- The number of children before the place. -/
  size : Nat
deriving DecidableEq, Repr, Inhabited

/-- The open frames of a tree in the making. -/
structure Builder where
  /-- The innermost open frame. -/
  top : Frame := ⟨.file, #[]⟩
  /-- The frames around it, from the inside out; the last is that of the root. -/
  below : List Frame := []
  /-- The end of the last token, at which a node without children is placed. -/
  offset : Nat := 0
deriving DecidableEq, Repr, Inhabited

namespace Builder

/-! ## Steps -/

/-- The number of open frames. -/
def depth (b : Builder) : Nat := b.below.length + 1

/-- A child goes to the innermost frame. -/
def push (b : Builder) (child : Element) : Builder :=
  { b with top := { b.top with children := b.top.children.push child } }

/-- A token goes to the innermost frame. -/
def token (b : Builder) (t : Token) : Builder :=
  { b.push (.token t) with offset := t.span.stop }

/-- A node is opened. -/
def start (b : Builder) (kind : NodeKind) : Builder :=
  { b with top := ⟨kind, #[]⟩, below := b.top :: b.below }

/-- The current place. -/
def checkpoint (b : Builder) : Checkpoint := ⟨b.depth, b.top.children.size⟩

/-- **A node is opened at a checkpoint**: it takes over the children after that place. -/
def startAt (b : Builder) (place : Checkpoint) (kind : NodeKind) : Builder :=
  let children := b.top.children
  { b with
    top := ⟨kind, children.extract place.size⟩
    below := { b.top with children := children.shrink place.size } :: b.below }

/-- The node of a frame, when the last token ended at `offset`. -/
def close (frame : Frame) (offset : Nat) : Node :=
  Node.ofChildren frame.kind frame.children.toList offset

/-- The innermost node is finished and becomes a child of the frame around it. The frame of the
root stays open. -/
def finishNode (b : Builder) : Builder :=
  match b.below with
  | [] => b
  | outer :: below =>
    ({ b with top := outer, below := below } : Builder).push (.node (close b.top b.offset))

/-! ## Steps out of place -/

/-- How a step can be out of place. -/
inductive Fault where
  /-- A node was to be finished while only the frame of the root was open. -/
  | nothingToFinish
  /-- A node was to be opened at a checkpoint of a depth at which the builder is not. -/
  | staleCheckpoint (saved current : Nat)
  /-- A node was to be opened at a checkpoint that is not among those saved. -/
  | unknownCheckpoint (saved index : Nat)
deriving DecidableEq, Repr

/-- The wording of a fault. -/
def Fault.message : Fault → String
  | .nothingToFinish => "finish_node without matching start_node"
  | .staleCheckpoint saved current =>
    "assertion `left == right` failed: stale checkpoint\n  left: " ++ toString saved ++
      "\n right: " ++ toString current
  | .unknownCheckpoint saved index =>
    "index out of bounds: the len is " ++ toString saved ++ " but the index is " ++ toString index

/-- What is wrong with opening a node at a checkpoint: it belongs to another depth. -/
def startAtFault? (b : Builder) (place : Checkpoint) : Option Fault :=
  if place.depth = b.depth then none else some (.staleCheckpoint place.depth b.depth)

/-- What is wrong with finishing a node: there is none. -/
def finishFault? (b : Builder) : Option Fault :=
  if b.below.isEmpty then some .nothingToFinish else none

/-! ## The finished tree -/

/-- The root that a frame and the frames around it close to. -/
def closeAll (offset : Nat) : Frame → List Frame → Node
  | frame, [] => close { frame with kind := .file } offset
  | frame, outer :: below =>
    closeAll offset
      { outer with children := outer.children.push (.node (close frame offset)) } below

/-- **The tree of a builder**: every frame left open is closed. -/
def finish (b : Builder) : Node := closeAll b.offset b.top b.below

/-! ## Sessions -/

/-- One step of a session. -/
inductive Step where
  /-- Open a node. -/
  | start (kind : NodeKind)
  /-- Add a token. -/
  | token (token : Token)
  /-- Save the current place. -/
  | checkpoint
  /-- Open a node at a saved place. -/
  | startAt (index : Nat) (kind : NodeKind)
  /-- Finish the innermost node. -/
  | finishNode
deriving DecidableEq, Repr

/-- A builder with the places saved so far. -/
structure Session where
  /-- The builder. -/
  builder : Builder := {}
  /-- The places saved so far, in order. -/
  saved : Array Checkpoint := #[]
deriving DecidableEq, Repr, Inhabited

/-- **One step of a session**, unless it is out of place. -/
def Session.step (s : Session) : Step → Except Fault Session
  | .start kind => .ok { s with builder := s.builder.start kind }
  | .token t => .ok { s with builder := s.builder.token t }
  | .checkpoint => .ok { s with saved := s.saved.push s.builder.checkpoint }
  | .startAt index kind =>
    match s.saved[index]? with
    | none => .error (.unknownCheckpoint s.saved.size index)
    | some place =>
      match s.builder.startAtFault? place with
      | some fault => .error fault
      | none => .ok { s with builder := s.builder.startAt place kind }
  | .finishNode =>
    match s.builder.finishFault? with
    | some fault => .error fault
    | none => .ok { s with builder := s.builder.finishNode }

/-- A session of many steps; the first step that is out of place ends it. -/
def Session.run (s : Session) (steps : List Step) : Except Fault Session :=
  steps.foldlM Session.step s

end Builder

end TxTree
