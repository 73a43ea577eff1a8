import TxTree.Proofs.File
import TxTree.Proofs.Tokens

set_option relaxedAutoImplicit false
set_option autoImplicit false

/-!
# Nothing is lost

Whatever a rule does, the tokens that are in the tree and those still ahead of it are together the
tokens of the stream, in their order: a token leaves the stream only for the end of the tree, and
to open a node at an earlier place only puts what stands there behind a new root.

## Main results

* `TxTree.Grammar.Derives.allTokens` — what is gathered and what is ahead, before and after a
  rule.
* `TxTree.parse_lossless` — the leaves of every tree are its tokens, and it spells its text.
-/

namespace TxTree.Grammar

open Element

/-! ## Leaves of what is gathered -/

/-- Tokens are their own leaves. -/
@[simp] lemma leavesOfList_map_token (tokens : List Token) :
    leavesOfList (tokens.map .token) = tokens := by
  induction tokens with
  | nil => rfl
  | cons t tokens ih => rw [List.map_cons, leavesOfList, ih]

/-- The leaves of a node are those of its children. -/
@[simp] lemma leavesOfList_ofChildren (kind : NodeKind) (children : List Element) (offset : Nat) :
    leavesOfList [.node (Node.ofChildren kind children offset)] = leavesOfList children := by
  simp [leavesOfList, Node.ofChildren, Node.leaves]

namespace Gathering

/-- The tokens gathered since a place, and those still ahead. -/
def allTokens (g : Gathering) : List Token := leavesOfList g.children ++ g.ahead

@[simp] lemma allTokens_flush (g : Gathering) : g.flush.allTokens = g.allTokens := by
  simp [allTokens, takeWhile_append_significant]

@[simp] lemma allTokens_bump (g : Gathering) : g.bump.allTokens = g.allTokens := by
  cases h : significant g.ahead with
  | nil => rw [bump_of_nil h]
  | cons t rest =>
    rw [bump_of_cons h, ← allTokens_flush g]
    simp [allTokens, attach, h, leavesOfList]

/-- What is put behind other children brings its tokens behind theirs. -/
lemma allTokens_behind {g g₁ : Gathering} (h : g₁.allTokens = g.flush.fresh.allTokens) :
    (g₁.behind g.flush.children).allTokens = g.allTokens := by
  rw [← allTokens_flush g]
  simp only [allTokens, behind, fresh, leavesOfList_append, leavesOfList, List.append_assoc,
    List.nil_append] at h ⊢
  rw [h]

@[simp] lemma allTokens_enclose (g : Gathering) (kind : NodeKind) :
    (g.enclose kind).allTokens = g.allTokens := by
  simp only [allTokens, enclose, leavesOfList_ofChildren]

@[simp] lemma allTokens_skip (g : Gathering) : g.skip.allTokens = g.allTokens := by
  rw [skip]
  cases g.lookahead.first with
  | none => rfl
  | some k => exact allTokens_behind (by rw [allTokens_enclose, allTokens_bump])

@[simp] lemma allTokens_progress (g : Gathering) (cursor : Nat) :
    (g.progress cursor).allTokens = g.allTokens := by
  rw [progress]
  split
  · exact allTokens_skip g
  · rfl

end Gathering

/-! ## Leaves of what is derived -/

/-- **No rule loses, adds or moves a token**: those gathered and those ahead stay the same.

**Proof sketch.** Induction on the derivation. A node has the leaves of its children, wherever it
was opened, so that only the moves that take tokens matter, and they take them from the front of
the stream to the end of what is gathered. -/
theorem Derives.allTokens {rules : Nesting → Rule} {room : Nat} {r : Rule} {g g' : Gathering}
    (h : Derives rules room r g g') : g'.allTokens = g.allTokens := by
  induction h with
  | done => rfl
  | seq _ _ ih₁ ih₂ => exact ih₂.trans ih₁
  | bump => exact Gathering.allTokens_bump _
  | skip => exact Gathering.allTokens_skip _
  | report => rfl
  | node _ ih => exact Gathering.allTokens_behind (by rw [Gathering.allTokens_enclose, ih])
  | mark _ ih => exact Gathering.allTokens_behind ih
  | wrap _ ih => exact (Gathering.allTokens_enclose _ _).trans ih
  | yes _ _ ih => exact ih
  | no _ _ ih => exact ih
  | stop => rfl
  | step _ _ _ ih₁ ih₂ => exact ih₂.trans ((Gathering.allTokens_progress _ _).trans ih₁)
  | nest _ ih => exact ih
  | full _ ih => exact ih

/-- What is left of the stream is gathered at the end. -/
lemma Gathering.leaves_finish (g : Gathering) : leavesOfList g.finish.children = g.allTokens := by
  simp [finish, allTokens]

end TxTree.Grammar

namespace TxTree

open Grammar

/-- The leaves of the tree of a stream of tokens are the tokens. -/
lemma leaves_root (tokens : List Token) : (parseTokens tokens).1.leaves = tokens := by
  obtain ⟨g, hg, -, -⟩ := exists_derives_file tokens
  rw [parseTokens_eq hg]
  change Element.leavesOfList g.finish.children = tokens
  rw [Gathering.leaves_finish, hg.allTokens]
  rfl

/-- **Nothing is lost**: the leaves of the tree of a stream of tokens, from left to right, are the
tokens of the stream, whatever they are; and the tree of a text spells the text. -/
theorem parse_lossless :
    (∀ tokens : List Token, (parseTokens tokens).1.leaves = tokens) ∧
      ∀ text : String, (parse text).root.text = text := by
  refine ⟨leaves_root, fun text => ?_⟩
  change String.join ((parseTokens (tokenize text)).1.leaves.map (·.text)) = text
  rw [leaves_root, join_text_tokenize]

end TxTree
