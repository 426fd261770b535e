import SqlWindow.Function.CumeDist
import SqlWindow.Function.Ntile
import SqlWindow.Function.RunningSum
import SqlWindow.Function.UserFunction
import SqlWindow.Function.ValueBag

set_option autoImplicit false

/-! # Accumulators

An accumulator is one function at work on one call: values go in when rows enter the frame and
come back out when rows leave it, and the result can be read at any time. `σ` is the type of
the states of user-defined functions.

LEAD and LAG remember the value they were given last, whether as a value from the row they look
at or, through `retract`, as the default that stands in for it.
-/

namespace SqlWindow

/-- A function with its state. -/
inductive Accumulator (σ : Type) where
  | count (n : Nat)
  | sum (s : RunningSum)
  | avg (s : RunningSum)
  | min (bag : ValueBag)
  | max (bag : ValueBag)
  | cumeDist (s : CumeDist)
  | ntile (s : Ntile)
  | lead (last : Value)
  | lag (last : Value)
  | user (f : UserFunction σ) (s : σ)

namespace Accumulator

variable {σ : Type}

instance : Inhabited (Accumulator σ) := ⟨count 0⟩

/-! ## The built-in functions -/

/-- The built-in functions before any row. -/
def builtins : List (Accumulator σ) :=
  [count 0, sum {}, avg {}, min [], max [], cumeDist {}, ntile {}, lead .unknown, lag .unknown]

/-- The name of a function. -/
def name : Accumulator σ → String
  | count _ => "COUNT"
  | sum _ => "SUM"
  | avg _ => "AVG"
  | min _ => "MIN"
  | max _ => "MAX"
  | cumeDist _ => "CUME_DIST"
  | ntile _ => "NTILE"
  | lead _ => "LEAD"
  | lag _ => "LAG"
  | user f _ => f.name

/-- How a function is listed. -/
def info : Accumulator σ → FunctionInfo
  | count _ => ⟨"COUNT", .aggregate, "Returns the number of rows matching the query criteria",
      ⟨.integer, [.any], 0, 1⟩⟩
  | sum _ => ⟨"SUM", .aggregate,
      "Returns the sum of all non-NULL values in the specified column", ⟨.any, [.any], 1, 1⟩⟩
  | avg _ => ⟨"AVG", .aggregate,
      "Returns the average of all non-NULL values in the specified column",
      ⟨.float, [.any], 1, 1⟩⟩
  | min _ => ⟨"MIN", .aggregate,
      "Returns the minimum value of all non-NULL values in the specified column",
      ⟨.any, [.any], 1, 1⟩⟩
  | max _ => ⟨"MAX", .aggregate,
      "Returns the maximum value of all non-NULL values in the specified column",
      ⟨.any, [.any], 1, 1⟩⟩
  | cumeDist _ => ⟨"CUME_DIST", .window,
      "Returns the cumulative distribution of a value: (rows <= current) / total_rows",
      ⟨.float, [], 0, 0⟩⟩
  | ntile _ => ⟨"NTILE", .window,
      "Divides the partition into n buckets and returns the bucket number",
      ⟨.integer, [.integer], 1, 1⟩⟩
  | lead _ => ⟨"LEAD", .window,
      "Returns the value from a row that is offset rows after the current row",
      ⟨.any, [.any, .integer, .any], 1, 3⟩⟩
  | lag _ => ⟨"LAG", .window,
      "Returns the value from a row that is offset rows before the current row",
      ⟨.any, [.any, .integer, .any], 1, 3⟩⟩
  | user f _ => f.info

/-! ## Properties -/

/-- Values can be taken back. -/
def supportsRetract : Accumulator σ → Bool
  | count _ | sum _ | avg _ | min _ | max _ | lead _ | lag _ => true
  | cumeDist _ | ntile _ => false
  | user f s => f.supportsRetract s

/-- The result depends on the number of rows in the window. -/
def isSizeSensitive : Accumulator σ → Bool
  | cumeDist _ | ntile _ => true
  | user f s => f.isSizeSensitive s
  | _ => false

/-! ## Steps -/

/-- Takes in the literal arguments of the call. -/
def configure (arguments : List Value) : Action (Accumulator σ) Unit := fun a =>
  match a with
  | ntile s =>
    match s.configure arguments with
    | .ok s => .ok () (ntile s)
    | .error e => .error e a
  | user f s =>
    match f.configure arguments s with
    | .ok () s => .ok () (user f s)
    | .error e s => .error e (user f s)
  | _ => .ok () a

/-- The accumulator with a value added. -/
def accumulate (v : Value) : Accumulator σ → Accumulator σ
  | count n => count (if v.isNull then n else n + 1)
  | sum s => sum (s.add v)
  | avg s => avg (s.add v)
  | min bag => min (if v.isNull then bag else bag.insert v)
  | max bag => max (if v.isNull then bag else bag.insert v)
  | cumeDist s => cumeDist { s with seen := s.seen + 1 }
  | ntile s => ntile { s with seen := s.seen + 1 }
  | lead _ => lead v
  | lag _ => lag v
  | user f s => user f (f.accumulate v s)

/-- The error of a function that cannot take values back. -/
def noRetraction (a : Accumulator σ) : Error := .retractionNotSupported a.name "retracting"

/-- Takes a value back. -/
def retract (v : Value) : Action (Accumulator σ) Unit := fun a =>
  match a with
  | count n =>
    if v.isNull then .ok () a
    else match n with
      | 0 => .error (.internal "COUNT retracted below zero") a
      | n + 1 => .ok () (count n)
  | sum s =>
    match s.remove v with
    | .ok s => .ok () (sum s)
    | .error e => .error e a
  | avg s =>
    match s.remove v with
    | .ok s => .ok () (avg s)
    | .error e => .error e a
  | min bag =>
    if v.isNull then .ok () a
    else match bag.remove v with
      | .ok bag => .ok () (min bag)
      | .error e => .error e a
  | max bag =>
    if v.isNull then .ok () a
    else match bag.remove v with
      | .ok bag => .ok () (max bag)
      | .error e => .error e a
  | cumeDist _ | ntile _ => .error a.noRetraction a
  | lead _ => .ok () (lead v)
  | lag _ => .ok () (lag v)
  | user f s =>
    match f.retract v s with
    | .ok () s => .ok () (user f s)
    | .error e s => .error e (user f s)

/-- The accumulator told how many rows the window has. -/
def setWindowSize (size : Nat) : Accumulator σ → Accumulator σ
  | cumeDist s => cumeDist { s with window := size }
  | ntile s => ntile { s with window := Int64.ofNat size }
  | user f s => user f (f.setWindowSize size s)
  | a => a

/-- The result. -/
def result : Accumulator σ → Value
  | count n => .integer (Int64.ofNat n)
  | sum s => s.total
  | avg s => s.mean
  | min bag => bag.least
  | max bag => bag.greatest
  | cumeDist s => .float s.share
  | ntile s => .integer s.bucket
  | lead last => last
  | lag last => last
  | user f s => f.result s

/-- The accumulator without any value. Arguments and window size stay. -/
def reset : Accumulator σ → Accumulator σ
  | count _ => count 0
  | sum _ => sum {}
  | avg _ => avg {}
  | min _ => min []
  | max _ => max []
  | cumeDist s => cumeDist { s with seen := 0 }
  | ntile s => ntile { s with seen := 0 }
  | lead _ => lead .unknown
  | lag _ => lag .unknown
  | user f s => user f (f.reset s)

/-- A new accumulator of the same function with the same arguments. -/
def renew : Accumulator σ → Accumulator σ
  | count _ => count 0
  | sum _ => sum {}
  | avg _ => avg {}
  | min _ => min []
  | max _ => max []
  | cumeDist _ => cumeDist {}
  | ntile s => ntile { buckets := s.buckets }
  | lead _ => lead .unknown
  | lag _ => lag .unknown
  | user f s => user f (f.renew s)

end Accumulator

end SqlWindow
