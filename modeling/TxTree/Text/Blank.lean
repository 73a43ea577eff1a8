import TxTree.Text.Ranges

set_option relaxedAutoImplicit false
set_option autoImplicit false

/-!
# White space

The Unicode property `White_Space`: the characters that a run of white space is made of.

## Main definitions

* `TxTree.Text.isBlank` — the property, as one short table.
-/

namespace TxTree.Text

/-- The white space characters: tabs, line ends and the space of ASCII, and the wide, narrow and
unbreakable spaces beyond it. -/
def blankRanges : Ranges :=
  [(0x9, 0xd), (0x20, 0x20), (0x85, 0x85), (0xa0, 0xa0), (0x1680, 0x1680), (0x2000, 0x200a),
    (0x2028, 0x2029), (0x202f, 0x202f), (0x205f, 0x205f), (0x3000, 0x3000)]

/-- **White space**: the characters of `blankRanges`. -/
def isBlank (c : Char) : Bool := blankRanges.holds c

/-- What core counts as white space is white space here. -/
theorem isBlank_of_isWhitespace {c : Char} (h : c.isWhitespace = true) : isBlank c = true := by
  simp only [Char.isWhitespace, Bool.or_eq_true, decide_eq_true_eq] at h
  rcases h with ((rfl | rfl) | rfl) | rfl <;> decide

end TxTree.Text
