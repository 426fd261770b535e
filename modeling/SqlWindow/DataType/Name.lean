import SqlWindow.Error
import SqlWindow.Text.Uppercase

set_option autoImplicit false

/-! # Reading type names

A type is named by its SQL name or one of the common synonyms, in any letter case.
-/

namespace SqlWindow

/-- The upper-case names of a type, its own and its synonyms. -/
def DataType.synonyms : DataType → List String
  | .null => ["NULL"]
  | .integer => ["INTEGER", "INT", "BIGINT", "SMALLINT", "TINYINT"]
  | .float => ["FLOAT", "DOUBLE", "REAL", "DECIMAL", "NUMERIC"]
  | .text => ["TEXT", "VARCHAR", "CHAR", "STRING"]
  | .boolean => ["BOOLEAN", "BOOL"]
  | .timestamp => ["TIMESTAMP", "DATETIME", "DATE", "TIME"]
  | .json => ["JSON", "JSONB"]

/-- The type that a name stands for. -/
def DataType.ofName (name : String) : Except Error DataType :=
  let upper := uppercase name
  match [.null, .integer, .float, .text, .boolean, .timestamp, .json].find?
      fun t : DataType => t.synonyms.contains upper with
  | some t => .ok t
  | none => .error (.typeConversion upper "DataType")

end SqlWindow
