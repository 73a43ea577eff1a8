set_option relaxedAutoImplicit false
set_option autoImplicit false

/-!
# Loops that have to come to an end

A loop takes one step after the other until there is a result. Steps may fail; and a loop is said
to fail, too, where a step does not leave less to do than there was. So a loop that would go on
forever has no result, and neither has one that only some other argument would bring to an end.

## Main definitions

* `TxTree.loop?` — a step over and over.

## Main results

* `TxTree.loop?_of_done`, `TxTree.loop?_of_step` — what a loop does is told by its first step.
-/

namespace TxTree

universe u v

variable {σ : Type u} {α : Type v}

/-- **A step over and over**, until there is a result, where `left` is what there is left to do. -/
def loop? (left : σ → Nat) (step : σ → Option (σ ⊕ α)) (s : σ) : Option α :=
  match step s with
  | none => none
  | some (.inr result) => some result
  | some (.inl next) => if _h : left next < left s then loop? left step next else none
termination_by left s

variable {left : σ → Nat} {step : σ → Option (σ ⊕ α)} {s next : σ}

/-- A loop ends where its step has a result, … -/
theorem loop?_of_done {result : α} (h : step s = some (.inr result)) :
    loop? left step s = some result := by
  rw [loop?, h]

/-- … and goes on from where its step leads, if there is less left to do. -/
theorem loop?_of_step (h : step s = some (.inl next)) (hlt : left next < left s) :
    loop? left step s = loop? left step next := by
  rw [loop?, h]
  exact dif_pos hlt

end TxTree
