import SqlWindow.Function.Accumulator
import SqlWindow.Text.Uppercase

set_option autoImplicit false

/-! # Registries

A registry knows functions by their upper-case names. A name is looked up as it is written
first and in upper case second.
-/

namespace SqlWindow

/-- The functions that calls can name, before any row, each under its upper-case name and in
the order of the names. -/
structure Registry (σ : Type) where
  entries : List (String × Accumulator σ)

namespace Registry

variable {σ : Type}

/-- The entries with one more; it replaces an entry of the same name. -/
def insertEntry (key : String) (a : Accumulator σ) :
    List (String × Accumulator σ) → List (String × Accumulator σ)
  | [] => [(key, a)]
  | (k, b) :: rest =>
    match compare key k with
    | .lt => (key, a) :: (k, b) :: rest
    | .eq => (key, a) :: rest
    | .gt => (k, b) :: insertEntry key a rest

/-- The registry with a function added under its name. -/
def insert (r : Registry σ) (a : Accumulator σ) : Registry σ :=
  ⟨insertEntry (uppercase a.name) a r.entries⟩

/-- The registry with a user-defined function added. -/
def register (r : Registry σ) (f : UserFunction σ) : Registry σ := r.insert (.user f f.initial)

/-- The registry of the built-in functions. -/
def builtin : Registry σ := Accumulator.builtins.foldl insert ⟨[]⟩

instance : Inhabited (Registry σ) := ⟨builtin⟩

/-- The function of a name. -/
def find? (r : Registry σ) (name : String) : Option (Accumulator σ) :=
  (r.entries.lookup name).or (r.entries.lookup (uppercase name))

/-- The function of a name, or the error that there is none. -/
def create (r : Registry σ) (name : String) : Except Error (Accumulator σ) :=
  match r.find? name with
  | some a => .ok a
  | none => .error (.functionNotFound (uppercase name))

/-- A function has this name. -/
def contains (r : Registry σ) (name : String) : Bool := (r.find? name).isSome

/-- How the function of a name is listed. -/
def info? (r : Registry σ) (name : String) : Option FunctionInfo :=
  (r.entries.lookup (uppercase name)).map Accumulator.info

/-- The names of all functions, in ascending order. -/
def names (r : Registry σ) : List String := r.entries.map Prod.fst

end Registry

end SqlWindow
