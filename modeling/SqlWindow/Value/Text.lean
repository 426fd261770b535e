import SqlWindow.Double.Text
import SqlWindow.Timestamp.Text
import SqlWindow.Value.Basic

set_option autoImplicit false

/-! # Text of values -/

namespace SqlWindow

/-- The text of a value; texts and documents stand for themselves, without quotes. -/
def Value.display : Value → String
  | null _ => "NULL"
  | integer i => toString i.toInt
  | float x => x.text
  | text s => s
  | boolean b => if b then "true" else "false"
  | timestamp t => t.text
  | json s => s

end SqlWindow
