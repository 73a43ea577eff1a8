set_option relaxedAutoImplicit false
set_option autoImplicit false

/-!
# Spans

A span is a range of byte offsets `[start, stop)` in a source text. Nothing forces its ends to
be in order: a span that runs backwards is kept as it was given, contains no offset and has no
length. Offsets fit into 64 bits, so a length does not always reach an offset.

## Main definitions

* `TxTree.Span` — the two ends of a range of bytes.
* `TxTree.Span.ofLength?` — the span of a number of bytes, absent where offsets are at their end.
* `TxTree.Span.length?` — the number of bytes, absent for a span that runs backwards.
* `TxTree.Span.cover` — from the lesser start to the greater stop.
* `TxTree.Span.contains` — whether an offset lies in the range.
-/

namespace TxTree

/-- A range of byte offsets, its stop excluded. -/
structure Span where
  /-- The offset of the first byte. -/
  start : Nat := 0
  /-- The offset after the last byte. -/
  stop : Nat := 0
deriving DecidableEq, Repr, Inhabited

namespace Span

/-- The span of no bytes at an offset. -/
def emptyAt (offset : Nat) : Span := ⟨offset, offset⟩

/-- The bound of offsets: they fit into 64 bits. -/
def offsetBound : Nat := Nat.pow 2 64

/-- The span of `length` bytes from an offset, absent if it would stop at no offset. -/
def ofLength? (start length : Nat) : Option Span :=
  if start + length < offsetBound then some ⟨start, start + length⟩ else none

/-- The number of bytes of a span; a span that runs backwards has none. -/
def length? (s : Span) : Option Nat :=
  if s.start ≤ s.stop then some (s.stop - s.start) else none

/-- Whether a span starts where it stops. -/
def isEmpty (s : Span) : Bool := s.start == s.stop

/-- The least span from the starts to the stops of two spans. -/
def cover (s t : Span) : Span := ⟨min s.start t.start, max s.stop t.stop⟩

/-- Whether an offset lies in a span. -/
def contains (s : Span) (offset : Nat) : Bool := s.start ≤ offset && offset < s.stop

/-- A span is shown as its two offsets with two points between them. -/
instance : ToString Span where
  toString s := toString s.start ++ ".." ++ toString s.stop

theorem contains_iff {s : Span} {offset : Nat} :
    s.contains offset = true ↔ s.start ≤ offset ∧ offset < s.stop := by
  simp [contains]

@[simp] theorem contains_emptyAt (offset o : Nat) : (emptyAt offset).contains o = false := by
  rw [Bool.eq_false_iff, ne_eq, contains_iff]
  exact fun h => Nat.lt_irrefl o (Nat.lt_of_lt_of_le h.2 h.1)

theorem ofLength?_eq_some_iff {start length : Nat} {s : Span} :
    ofLength? start length = some s ↔
      start + length < offsetBound ∧ s = ⟨start, start + length⟩ := by
  simp [ofLength?, eq_comm]

end Span

end TxTree
