import SqlWindow.Error
import SqlWindow.Text.Blank

set_option autoImplicit false

/-! # Options

How many bytes of rows a partition may keep in memory, where the rows past that go, and how
many of those are read back at a time. Options are also read from a query such as
`external_buffer_memory=64mb&spill_page_rows=256`. Memory sizes are counted in bytes with an
optional unit of 1024, 1024² or 1024³ bytes. Sizes and counts are 64-bit numbers.
-/

namespace SqlWindow

/-- The options of an operator. -/
structure Options where
  /-- Bytes of rows a partition keeps in memory before it spills. -/
  memory : Nat := 10 * 1024 * 1024
  /-- Directory of the spill files; the usual one for temporary files when there is none. -/
  spillDirectory : Option String := none
  /-- Rows that are read back from a spill file at a time. -/
  pageRows : Nat := 1024
  /-- A page has rows. -/
  pageRows_pos : 0 < pageRows := by decide
deriving DecidableEq, Repr

namespace Options

instance : Inhabited Options := ⟨{}⟩

/-- The options with another number of rows in a page; 0 is taken as 1. -/
def withPageRows (o : Options) (rows : Nat) : Options :=
  { o with pageRows := max rows 1, pageRows_pos := by omega }

/-! ## Numbers -/

/-- The value of decimal digits, leading ones first. -/
def digitsValue (ds : List Char) : Nat := ds.foldl (fun n d => 10 * n + (d.toNat - '0'.toNat)) 0

/-- The 64-bit number written with decimal digits only. -/
def natOfDigits? (ds : List Char) : Option Nat :=
  if ds.isEmpty || ds.any (fun d => !d.isDigit) then none
  else if digitsValue ds < UInt64.size then some (digitsValue ds)
  else none

/-- The 64-bit number written with decimal digits behind at most one plus sign. -/
def count? : List Char → Option Nat
  | '+' :: ds => natOfDigits? ds
  | ds => natOfDigits? ds

/-! ## Memory sizes -/

/-- The bytes that a unit stands for. -/
def unit? (name : List Char) : Option Nat :=
  match String.ofList (name.map Char.toLower) with
  | "" | "b" => some 1
  | "k" | "kb" => some 1024
  | "m" | "mb" => some (1024 * 1024)
  | "g" | "gb" => some (1024 * 1024 * 1024)
  | _ => none

/-- The size that some characters stand for: digits, blanks, a unit. -/
def memorySize? (cs : List Char) : Option Nat := do
  let trimmed := trimBlanks cs
  let amount ← natOfDigits? (trimmed.takeWhile Char.isDigit)
  let multiplier ← unit? (trimBlanks (trimmed.dropWhile Char.isDigit))
  guard (amount * multiplier < UInt64.size)
  return amount * multiplier

/-- The number of bytes that a memory size stands for. -/
def parseMemorySize (s : String) : Except Error Nat :=
  match memorySize? s.toList with
  | some n => .ok n
  | none => .error (.invalidArgument s!"invalid memory size '{s}'")

/-! ## Queries -/

/-- The parts of a list between the places of a separator. -/
def splitAt (separator : Char) : List Char → List (List Char)
  | [] => [[]]
  | c :: cs =>
    if c = separator then [] :: splitAt separator cs
    else match splitAt separator cs with
      | part :: parts => (c :: part) :: parts
      | [] => [[c]]

/-- The options with one of them set. -/
def set (o : Options) (key value : List Char) : Except Error Options := do
  match String.ofList key with
  | "external_buffer_memory" | "table.exec.resource.external-buffer-memory" =>
    let memory ← parseMemorySize (String.ofList value)
    return { o with memory }
  | "spill_dir" =>
    if value.isEmpty then throw (.invalidArgument "spill_dir must not be empty")
    return { o with spillDirectory := some (String.ofList value) }
  | "spill_page_rows" =>
    match count? value with
    | some (rows + 1) => return { o with pageRows := rows + 1, pageRows_pos := by omega }
    | _ =>
      throw (.invalidArgument
        s!"spill_page_rows must be a positive integer, got '{String.ofList value}'")
  | other => throw (.invalidArgument s!"unknown option '{other}'")

/-- The options with one parameter of a query applied: the key before the first equals sign,
the value behind it, both without the blanks around them. -/
def setParameter (o : Options) (parameter : List Char) : Except Error Options :=
  o.set (trimBlanks (parameter.takeWhile (· != '=')))
    (trimBlanks ((parameter.dropWhile (· != '=')).drop 1))

/-- The options that a query describes, the defaults where it says nothing. Later parameters
win; empty ones are skipped. -/
def ofQuery (query : String) : Except Error Options :=
  ((splitAt '&' query.toList).filter (!·.isEmpty)).foldlM setParameter {}

end Options

end SqlWindow
