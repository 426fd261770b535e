import SqlWindow.Error

set_option autoImplicit false

/-! # Numbers as bytes

Spilled rows hold numbers as fixed numbers of bytes, least significant first. Reading takes
bytes off the front of what is left and says which part of a record is missing when they run
out.
-/

namespace SqlWindow

namespace Record

/-! ## Little-endian numbers -/

/-- The `width` least significant bytes of a number, least significant first. -/
def littleEndian : (width : Nat) → Nat → List UInt8
  | 0, _ => []
  | width + 1, n => UInt8.ofNat (n % 256) :: littleEndian width (n / 256)

/-- The number that bytes stand for, least significant first. -/
def ofLittleEndian : List UInt8 → Nat
  | [] => 0
  | b :: bs => b.toNat + 256 * ofLittleEndian bs

/-- A number takes as many bytes as asked for. -/
@[simp] theorem length_littleEndian (width n : Nat) : (littleEndian width n).length = width := by
  induction width generalizing n with
  | zero => rfl
  | succ width ih => simp [littleEndian, ih]

/-- A number that fits is read back from its bytes. -/
theorem ofLittleEndian_littleEndian (width n : Nat) (h : n < Nat.pow 256 width) :
    ofLittleEndian (littleEndian width n) = n := by
  induction width generalizing n with
  | zero =>
    have hzero : n = 0 := Nat.lt_one_iff.mp h
    simp [littleEndian, ofLittleEndian, hzero]
  | succ width ih =>
    have hdiv : n / 256 < Nat.pow 256 width := by
      rw [Nat.pow_eq, Nat.pow_succ] at h
      exact Nat.div_lt_of_lt_mul (Nat.mul_comm _ _ ▸ h)
    simp only [littleEndian, ofLittleEndian, ih _ hdiv, UInt8.toNat_ofNat']
    omega

/-! ## Reading -/

/-- The error of bytes that are no record. -/
def corrupt (reason : String) : Error := .io s!"corrupt spill record: {reason}"

/-- A step of reading: a result and the bytes left over. -/
abbrev Reader (α : Type) := StateT (List UInt8) (Except Error) α

/-- The next `count` bytes; `part` names what they belong to. -/
def takeBytes (count : Nat) (part : String) : Reader (List UInt8) := fun bytes =>
  if bytes.length < count then .error (corrupt s!"missing {part}")
  else .ok (bytes.take count, bytes.drop count)

/-- The next number of `width` bytes. -/
def takeNat (width : Nat) (part : String) : Reader Nat := do
  return ofLittleEndian (← takeBytes width part)

end Record

end SqlWindow
