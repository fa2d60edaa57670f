/-!
# Spans

A span is a half-open range of byte offsets in a source text. Offsets have 32
bits, so spans end at `lastOffset` at the latest.
-/

set_option autoImplicit false

namespace DeployCheck

def lastOffset : Nat := 4294967295

structure Span where
  start : Nat
  stop : Nat
  ordered : start ≤ stop
  bounded : stop ≤ lastOffset
  deriving DecidableEq

namespace Span

/-- The span between two offsets. An end before the start counts as the start,
and offsets past the last one count as the last one. -/
def between (start stop : Nat) : Span where
  start := min start lastOffset
  stop := max (min start lastOffset) (min stop lastOffset)
  ordered := Nat.le_max_left ..
  bounded := Nat.max_le.2 ⟨Nat.min_le_right .., Nat.min_le_right ..⟩

def point (offset : Nat) : Span := between offset offset

instance : Inhabited Span := ⟨point 0⟩

def length (s : Span) : Nat := s.stop - s.start

def isEmpty (s : Span) : Bool := s.start == s.stop

def cover (s t : Span) : Span where
  start := min s.start t.start
  stop := max s.stop t.stop
  ordered := Nat.le_trans (Nat.min_le_left ..) (Nat.le_trans s.ordered (Nat.le_max_left ..))
  bounded := Nat.max_le.2 ⟨s.bounded, t.bounded⟩

theorem start_between {a b : Nat} (h : a ≤ lastOffset) : (between a b).start = a :=
  Nat.min_eq_left h

theorem stop_between {a b : Nat} (h : a ≤ b) (hb : b ≤ lastOffset) : (between a b).stop = b := by
  simp only [between]
  omega

theorem ext {s t : Span} (hs : s.start = t.start) (ht : s.stop = t.stop) : s = t := by
  cases s
  cases t
  simp_all

end Span

end DeployCheck
