set_option autoImplicit false

/-! # UTF-8

Text as bytes and back. A character takes one to four bytes; every byte after the first is a
continuation byte. The range of the first continuation byte depends on the lead byte, which
rules out overlong forms, surrogates and code points past `U+10FFFF`.

Reading goes byte by byte and reports the first place where the bytes stop being UTF-8:
either they end inside a character, or some of them can belong to no character.
-/

namespace SqlWindow

namespace Utf8

/-! ## Writing -/

/-- The bytes of a character. -/
def encodeChar (c : Char) : List UInt8 :=
  let n := c.toNat
  if n < 0x80 then [UInt8.ofNat n]
  else if n < 0x800 then [UInt8.ofNat (0xC0 + n / 64), UInt8.ofNat (0x80 + n % 64)]
  else if n < 0x10000 then
    [UInt8.ofNat (0xE0 + n / 4096), UInt8.ofNat (0x80 + n / 64 % 64), UInt8.ofNat (0x80 + n % 64)]
  else
    [UInt8.ofNat (0xF0 + n / 262144), UInt8.ofNat (0x80 + n / 4096 % 64),
      UInt8.ofNat (0x80 + n / 64 % 64), UInt8.ofNat (0x80 + n % 64)]

/-- The bytes of a text. -/
def encode (s : String) : List UInt8 := s.toList.flatMap encodeChar

/-! ## Reading -/

/-- Why bytes are not UTF-8. -/
inductive Malformed where
  /-- The `count` bytes from `index` on belong to no character. -/
  | invalid (count index : Nat)
  /-- The bytes end inside the character that starts at `index`. -/
  | incomplete (index : Nat)
deriving DecidableEq, Repr

/-- The wording of a malformed text. -/
def Malformed.message : Malformed → String
  | .invalid count index => s!"invalid utf-8 sequence of {count} bytes from index {index}"
  | .incomplete index => s!"incomplete utf-8 byte sequence from index {index}"

/-- A character whose lead byte has been read: where it starts, how many of its bytes are
read, how many are missing, the range of the next one, and the code point so far. -/
structure Pending where
  start : Nat
  read : Nat
  missing : Nat
  low : Nat
  high : Nat
  code : Nat
deriving Repr

/-- What a lead byte above ASCII announces: the number of continuation bytes, the range of
the first of them, and the leading bits of the code point; none for a byte that starts no
character. -/
def lead? (b : Nat) : Option (Nat × Nat × Nat × Nat) :=
  if b < 0xC2 then none
  else if b ≤ 0xDF then some (1, 0x80, 0xBF, b - 0xC0)
  else if b = 0xE0 then some (2, 0xA0, 0xBF, 0)
  else if b = 0xED then some (2, 0x80, 0x9F, 0xD)
  else if b ≤ 0xEF then some (2, 0x80, 0xBF, b - 0xE0)
  else if b = 0xF0 then some (3, 0x90, 0xBF, 0)
  else if b ≤ 0xF3 then some (3, 0x80, 0xBF, b - 0xF0)
  else if b = 0xF4 then some (3, 0x80, 0x8F, 4)
  else none

/-- Reads the bytes from position `index` on, inside the character `pending` if there is
one. -/
def decodeFrom (index : Nat) (pending : Option Pending) : List UInt8 → Except Malformed (List Char)
  | [] => match pending with
    | none => .ok []
    | some p => .error (.incomplete p.start)
  | b :: rest => match pending with
    | none =>
      if b.toNat < 0x80 then (Char.ofNat b.toNat :: ·) <$> decodeFrom (index + 1) none rest
      else match lead? b.toNat with
        | none => .error (.invalid 1 index)
        | some (missing, low, high, code) =>
          decodeFrom (index + 1) (some ⟨index, 1, missing, low, high, code⟩) rest
    | some p =>
      if b.toNat < p.low ∨ p.high < b.toNat then .error (.invalid p.read p.start)
      else
        let code := p.code * 64 + (b.toNat - 0x80)
        if p.missing = 1 then (Char.ofNat code :: ·) <$> decodeFrom (index + 1) none rest
        else
          decodeFrom (index + 1) (some ⟨p.start, p.read + 1, p.missing - 1, 0x80, 0xBF, code⟩) rest

/-- The text that bytes stand for. -/
def decode (bytes : List UInt8) : Except Malformed String :=
  String.ofList <$> decodeFrom 0 none bytes

end Utf8

end SqlWindow
