set_option relaxedAutoImplicit false
set_option autoImplicit false

/-!
# Sets of characters given by ranges

A Unicode property is a set of code points. Beyond ASCII it is written as a list of closed
ranges, in increasing order; within ASCII it is a rule of its own, which the property's module
states beside its table.

## Main definitions

* `TxTree.Text.Ranges` — a set of code points as a list of closed ranges.
* `TxTree.Text.Ranges.holds` — membership of a character.
-/

namespace TxTree.Text

/-- A set of code points: each pair `(lo, hi)` stands for all `n` with `lo ≤ n ≤ hi`. -/
abbrev Ranges : Type := List (Nat × Nat)

/-- Whether a character lies in one of the ranges. -/
def Ranges.holds (ranges : Ranges) (c : Char) : Bool :=
  ranges.any fun (lo, hi) => lo ≤ c.toNat && c.toNat ≤ hi

/-- Whether a character lies in the first 128 code points. -/
def isAscii (c : Char) : Bool := c.toNat < 128

end TxTree.Text
