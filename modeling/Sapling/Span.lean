/-!
# Spans

A span is a stretch of a text, given by the byte offset where it starts and the one where it stops.
Spans of tokens have `start ≤ stop`; a span made by hand need not.
-/

namespace Sapling

/-- The bytes from `start` up to, but not including, `stop`. -/
structure Span where
  /-- The offset of the first byte. -/
  start : Nat
  /-- The offset just after the last byte. -/
  stop : Nat
  deriving DecidableEq, Repr, Inhabited

namespace Span

/-- The span of no bytes at an offset. -/
def empty (offset : Nat) : Span := ⟨offset, offset⟩

/-- The offsets in a span, in increasing order; a span that stops before it starts has none. -/
def offsets (s : Span) : List Nat := List.range' s.start (s.stop - s.start)

theorem mem_offsets {s : Span} {i : Nat} : i ∈ s.offsets ↔ s.start ≤ i ∧ i < s.stop := by
  rw [offsets, List.mem_range'_1]
  omega

end Span

end Sapling
