import SqlWindow.Timestamp.Basic

set_option autoImplicit false

/-! # Moving a timestamp

A timestamp moves by a signed number of milliseconds. Outside of leap seconds this is plain
addition of nanoseconds. From inside a leap second, a distance that leaves the second drops
the extra second first: going forward, and in going back by a second or more, the moment counts
as the same fraction of the neighbouring ordinary second. What would leave the range stops at
its end.
-/

namespace SqlWindow

namespace Timestamp

/-- Seconds and nanoseconds with the nanoseconds brought into one ordinary second, from at most
one second below or above it. -/
def carry (seconds nanos : Int) : Int × Int :=
  if nanos < 0 then (seconds - 1, nanos + nanosPerSecond)
  else if (nanosPerSecond : Int) ≤ nanos then (seconds + 1, nanos - nanosPerSecond)
  else (seconds, nanos)

/-- Seconds and nanoseconds after a move by whole seconds and nanoseconds of the same sign. -/
def moved (seconds nanos bySeconds byNanos : Int) : Int × Int :=
  if nanos < nanosPerSecond then carry (seconds + bySeconds) (nanos + byNanos)
  else if 0 < bySeconds ∨ (0 < byNanos ∧ 2 * nanosPerSecond ≤ nanos + byNanos) then
    carry (seconds + bySeconds) (nanos - nanosPerSecond + byNanos)
  else if bySeconds < 0 then
    carry (seconds + 1 + bySeconds) (nanos - nanosPerSecond + byNanos)
  else (seconds, nanos + byNanos)

/-- The moment with these parts; what lies outside of the range is held to the end of it that
the move goes to. -/
def heldToRange (milliseconds : Int) (parts : Int × Int) : Timestamp :=
  match ofParts? parts.1 parts.2.toNat with
  | some moment => moment
  | none => if milliseconds < 0 then earliest else latest

/-- The timestamp moved by a number of milliseconds, held to the range. -/
def shift (t : Timestamp) (milliseconds : Int) : Timestamp :=
  heldToRange milliseconds
    (moved t.seconds t.nanos (milliseconds.tdiv 1000) (milliseconds.tmod 1000 * 1000000))

end Timestamp

end SqlWindow
