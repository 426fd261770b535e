import SqlWindow.Value.Basic

set_option autoImplicit false

/-! # CUME_DIST

The share of the window's rows that have been seen. In a frame that grows up to the current row
and its peers this is the cumulative distribution of the current row.
-/

namespace SqlWindow

/-- The state of CUME_DIST. -/
structure CumeDist where
  window : Nat := 0
  seen : Nat := 0
deriving DecidableEq, Inhabited, Repr

/-- The share of rows seen; 1 in a window without rows. -/
def CumeDist.share (s : CumeDist) : Double :=
  if s.window = 0 then Double.ofInt 1 else (Double.ofInt s.seen).div (Double.ofInt s.window)

end SqlWindow
