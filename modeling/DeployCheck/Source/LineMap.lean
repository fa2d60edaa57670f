import DeployCheck.Source.Span

/-!
# Lines of a source text

A line starts at offset zero and after every newline. The position of an offset
is the last line that starts at or before it, and the distance in bytes from
that start; offsets past the end of the text belong to the last line. Line
starts and line numbers that do not fit 32 bits are cut off.
-/

set_option autoImplicit false

namespace DeployCheck

/-- A line and a byte column, both counted from zero. -/
structure Position where
  line : Nat
  character : Nat
  deriving DecidableEq

structure LineMap where
  starts : List Nat

namespace LineMap

def startsFrom : Nat → List Char → List Nat
  | _, [] => []
  | offset, c :: cs =>
    let next := offset + c.utf8Size
    if c = '\n' then min next lastOffset :: startsFrom next cs else startsFrom next cs

def ofSource (source : String) : LineMap := ⟨0 :: startsFrom 0 source.toList⟩

def lineCount (m : LineMap) : Nat := m.starts.length

/-- Of `size` entries from `base` on, the last one up to the key, or the first
one. Every round halves them, and ends only when one is left. -/
def halve (entries : List Nat) (key : Nat) : Nat → Nat → Nat → Nat
  | 0, base, _ => base
  | rounds + 1, base, size =>
    if size ≤ 1 then base
    else
      let half := size / 2
      let base := if key < entries.getD (base + half) 0 then base else base + half
      halve entries key rounds base (size - half)

/-- Where a key stands among entries in order, or else where to put it in. -/
def binarySearch (entries : List Nat) (key : Nat) : Except Nat Nat :=
  if entries.isEmpty then .error 0
  else
    let base := halve entries key entries.length 0 entries.length
    let found := entries.getD base 0
    if found = key then .ok base else .error (if found < key then base + 1 else base)

def lineOf (m : LineMap) (offset : Nat) : Nat :=
  match binarySearch m.starts offset with
  | .ok line => line
  | .error insert => insert - 1

def position (m : LineMap) (offset : Nat) : Position where
  line := min (m.lineOf offset) lastOffset
  character := offset - m.starts.getD (m.lineOf offset) 0

end LineMap

end DeployCheck
