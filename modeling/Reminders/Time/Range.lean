import Reminders.Time.Instant

/-!
# Ranges of time

A `Range` is a start and a length that is never negative: `Range.make` moves the start back when it
is given a negative span.  A range of no length is a single point.  Ranges are half open, so two
that only touch do not overlap; a point overlaps a range that contains it and a point equal to it.
-/

namespace Reminders

/-- A start and a length.  Ranges are made by `Range.make`, `Range.between` and `Range.point`. -/
@[ext] structure Range where
  start : Instant
  length : Span
deriving DecidableEq

namespace Range

/-- The range that begins at `start` and lasts for `length`, or that ends at `start` when the length
is negative.  A start before the first instant becomes the first instant. -/
def make (start : Instant) (length : Span) : Range :=
  if length.isNegative then
    let earlier := (start.add? length).getD Instant.first
    ⟨earlier, start.since earlier⟩
  else ⟨start, length⟩

/-- The range between two instants. -/
def between (a b : Instant) : Range := make a (b.since a)

/-- A range of no length. -/
def point (t : Instant) : Range := ⟨t, Span.zero⟩

/-- The end, which the range does not contain; the last instant if the end would lie after it. -/
def finish (r : Range) : Instant := (r.start.add? r.length).getD Instant.last

def isPoint (r : Range) : Bool := decide (r.length.nanos = 0)

/-- Whether an instant is at or after the start and before the end. -/
def contains (r : Range) (t : Instant) : Bool := decide (r.start ≤ t ∧ t < r.finish)

/-- Whether two ranges share an instant. -/
def overlaps (a b : Range) : Bool :=
  match a.isPoint, b.isPoint with
  | false, false => decide (a.start < b.finish ∧ b.start < a.finish)
  | true, false => b.contains a.start
  | false, true => a.contains b.start
  | true, true => decide (a.start = b.start)

end Range

/-- A range that stored events are compared with, either whole or by their start alone. -/
structure RangeFilter where
  range : Range
  wholeEvents : Bool
deriving DecidableEq

namespace RangeFilter

/-- Accepts events that overlap the range. -/
def overlapping (range : Range) : RangeFilter := ⟨range, true⟩

/-- Accepts events that start within the range. -/
def startingWithin (range : Range) : RangeFilter := ⟨range, false⟩

def accepts (f : RangeFilter) (event : Range) : Bool :=
  f.range.overlaps (if f.wholeEvents then event else Range.point event.start)

end RangeFilter

end Reminders
