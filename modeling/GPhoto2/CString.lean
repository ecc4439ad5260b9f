import Mathlib.Algebra.Group.Nat.Defs

/-!
# `GPhoto2.CString`: C strings
-/

set_option autoImplicit false

namespace GPhoto2

/-- A C string, without its terminating zero. -/
abbrev CString := List Char

/-- Equal strings have equal characters. -/
instance : LawfulBEq CString := inferInstance

/-- `isspace`. -/
def isSpace (c : Char) : Bool := c = ' ' || ('\t' ≤ c && c ≤ '\r')

/-- The number the decimal digits at the start of a string make. -/
def decNumber : Nat → CString → Nat
  | n, [] => n
  | n, c :: s => if c.isDigit then decNumber (10 * n + (c.toNat - '0'.toNat)) s else n

/-- `atoi`. -/
def atoi (s : CString) : Int :=
  match s.dropWhile isSpace with
  | '-' :: s => -(decNumber 0 s : Int)
  | '+' :: s => decNumber 0 s
  | s => decNumber 0 s

/-- The value of a hexadecimal digit. -/
def hexDigit (c : Char) : Option Nat :=
  if '0' ≤ c ∧ c ≤ '9' then some (c.toNat - '0'.toNat)
  else if 'a' ≤ c ∧ c ≤ 'f' then some (c.toNat - 'a'.toNat + 10)
  else if 'A' ≤ c ∧ c ≤ 'F' then some (c.toNat - 'A'.toNat + 10)
  else none

/-- The number the hexadecimal digits at the start of a string make. -/
def hexNumber : Nat → CString → Nat
  | n, [] => n
  | n, c :: s => match hexDigit c with
    | some d => hexNumber (16 * n + d) s
    | none => n

/-- The prefix `0x` that `strtoul` skips, if a digit comes after it. -/
def skipHexMark : CString → CString
  | '0' :: x :: c :: s =>
    if (x = 'x' ∨ x = 'X') ∧ (hexDigit c).isSome then c :: s else '0' :: x :: c :: s
  | s => s

/-- The value of `strtoul` for the digits after the sign, which is `ULONG_MAX` if they are too
many. -/
def strtoulDigits (negative : Bool) (s : CString) : Nat :=
  let n := hexNumber 0 (skipHexMark s)
  if 2 ^ 64 ≤ n then 2 ^ 64 - 1 else if negative then (2 ^ 64 - n) % 2 ^ 64 else n

/-- `strtoul` in base 16. -/
def strtoul16 (s : CString) : Nat :=
  match s.dropWhile isSpace with
  | '-' :: s => strtoulDigits true s
  | '+' :: s => strtoulDigits false s
  | s => strtoulDigits false s

end GPhoto2
