set_option autoImplicit false

/-! # Timestamps

A timestamp is a moment in UTC: whole seconds since the start of 1970, rounded down, and the
nanoseconds of that second. The last second of a minute may be a leap second, whose
nanoseconds run on past 10⁹. Moments lie between the start of the year −262143 and the end of
the year 262142.
-/

namespace SqlWindow

namespace Timestamp

/-- Nanoseconds in a second. -/
def nanosPerSecond : Nat := 1000000000

/-- The start of the year −262143. -/
def minSeconds : Int := -8334601228800

/-- The last second of the year 262142. -/
def maxSeconds : Int := 8210266876799

/-- Seconds and nanoseconds that make a moment. -/
def Valid (seconds : Int) (nanos : Nat) : Prop :=
  minSeconds ≤ seconds ∧ seconds ≤ maxSeconds ∧
    (nanos < nanosPerSecond ∨ (nanos < 2 * nanosPerSecond ∧ seconds % 60 = 59))

instance (seconds : Int) (nanos : Nat) : Decidable (Valid seconds nanos) :=
  inferInstanceAs (Decidable (_ ∧ _))

end Timestamp

/-- A moment in UTC. -/
structure Timestamp where
  /-- Seconds since the start of 1970, rounded down. -/
  seconds : Int
  /-- Nanoseconds of the second; 10⁹ and more inside a leap second. -/
  nanos : Nat
  /-- The moment is in range, and only the last second of a minute is a leap second. -/
  valid : Timestamp.Valid seconds nanos
deriving DecidableEq, Repr

namespace Timestamp

/-- The moment with these parts, if they make one. -/
def ofParts? (seconds : Int) (nanos : Nat) : Option Timestamp :=
  if h : Valid seconds nanos then some ⟨seconds, nanos, h⟩ else none

/-- The first moment. -/
def earliest : Timestamp := ⟨minSeconds, 0, by decide⟩

/-- The last moment outside of a leap second. -/
def latest : Timestamp := ⟨maxSeconds, nanosPerSecond - 1, by decide⟩

/-- The order of moments: by second, then by nanosecond. -/
def order (a b : Timestamp) : Ordering :=
  (compare a.seconds b.seconds).then (compare a.nanos b.nanos)

/-- Nanoseconds since the start of 1970, when they fit in 64 bits. -/
def nanosSinceEpoch? (t : Timestamp) : Option Int :=
  let n := t.seconds * nanosPerSecond + t.nanos
  if Int64.minValue.toInt ≤ n ∧ n ≤ Int64.maxValue.toInt then some n else none

/-- The parts of a timestamp make that timestamp. -/
theorem ofParts?_eq_some (t : Timestamp) : ofParts? t.seconds t.nanos = some t := by
  simp [ofParts?, t.valid]

end Timestamp

end SqlWindow
