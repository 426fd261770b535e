import SqlWindow.Action
import SqlWindow.Options
import SqlWindow.Store.SpillFile

set_option autoImplicit false

/-! # Row stores

The rows of one partition, read by position. Rows stay in memory as long as the budget lasts;
from the first one that does not fit, all go to a spill file until the store is emptied.
-/

namespace SqlWindow

/-- A store of rows. -/
structure RowStore where
  /-- The memory budget and the size of a page. -/
  options : Options
  /-- A spill file can be created where the options want it. -/
  canSpill : Bool := true
  /-- The rows in memory. -/
  rows : Array Row := #[]
  /-- The bytes that the rows in memory are charged with. -/
  memoryUsed : Nat := 0
  /-- The file with the rows behind those in memory. -/
  spill : Option SpillFile := none
deriving Inhabited

namespace RowStore

/-! ## Observers -/

/-- The number of rows. -/
def length (s : RowStore) : Nat :=
  s.rows.size + match s.spill with
    | some f => f.length
    | none => 0

/-- There are no rows. -/
def isEmpty (s : RowStore) : Bool := s.length == 0

/-- There is a spill file. -/
def isSpilled (s : RowStore) : Bool := s.spill.isSome

/-- The error of a spill file that cannot be created. -/
def spillUnavailable (o : Options) : Error :=
  .io ("no spill file can be created at path " ++ o.spillDirectory.getD "of temporary files")

/-! ## Writing -/

/-- The store with one more row in its spill file. -/
def appendToFile (f : SpillFile) (row : Row) : Action RowStore Unit := do
  modify ({ · with spill := some f })
  let f ← Action.ofExcept (f.append row)
  modify ({ · with spill := some f })

/-- Adds a row behind the others. -/
def append (row : Row) : Action RowStore Unit := do
  let s ← get
  match s.spill with
  | some f => appendToFile f row
  | none =>
    if s.memoryUsed + row.size ≤ s.options.memory then
      set { s with rows := s.rows.push row, memoryUsed := s.memoryUsed + row.size }
    else if s.canSpill then appendToFile {} row
    else throw (spillUnavailable s.options)

/-- The store without its rows and its file. -/
def release (s : RowStore) : RowStore := { s with rows := #[], memoryUsed := 0, spill := none }

/-! ## Reading -/

/-- The row at position `index`, from the page of the file it belongs to. A page that was kept
before later rows reached it is read anew. `base` is the number of rows in memory. -/
def getFromFile (f : SpillFile) (base index : Nat) : Action RowStore Row := do
  let pageRows := (← get).options.pageRows
  let number := (index - base) / pageRows
  let slot := (index - base) % pageRows
  match (f.page? number).bind (·[slot]?) with
  | some row => return row
  | none =>
    let f := (f.dropPage number).flush
    modify ({ · with spill := some f })
    let first := number * pageRows
    let rows ← Action.ofExcept (f.readRows base first (min (first + pageRows) f.length))
    match rows[slot]? with
    | some row =>
      modify ({ · with spill := some (f.keepPage number rows) })
      return row
    | none => throw (.internal s!"spill page {number} misses row {index}")

/-- The row at a position. -/
def row (index : Nat) : Action RowStore Row := do
  let s ← get
  match s.rows[index]? with
  | some row => return row
  | none =>
    match s.spill with
    | some f =>
      if index - s.rows.size < f.length then getFromFile f s.rows.size index
      else throw (.internal s!"buffer row {index} out of range (len={s.length})")
    | none => throw (.internal s!"buffer row {index} out of range (len={s.length})")

end RowStore

end SqlWindow
