import Mathlib.Algebra.Order.Ring.Nat

/-! C's `strtoul` with base 0, in the C locale. -/

namespace Strtoul

def isSpace (c : UInt8) : Bool := c = 0x20 ∨ 0x09 ≤ c ∧ c ≤ 0x0D

/-- Digits, then letters of either case. -/
def digitValue (c : UInt8) : Option ℕ :=
  if 0x30 ≤ c ∧ c ≤ 0x39 then some (c.toNat - 0x30)
  else if 0x41 ≤ c ∧ c ≤ 0x5A then some (c.toNat - 0x41 + 10)
  else if 0x61 ≤ c ∧ c ≤ 0x7A then some (c.toNat - 0x61 + 10)
  else none

/-- The number that `n` and the longest run of digits behind it stand for. -/
def readDigits (base : ℕ) : ℕ → List UInt8 → ℕ
  | n, [] => n
  | n, c :: cs =>
    match digitValue c with
    | some d => if d < base then readDigits base (n * base + d) cs else n
    | none => n

/-- A prefix says whether the digits are hexadecimal or octal. -/
def readUnsigned (s : List UInt8) : ℕ :=
  if s.head? = some 0x30 then
    if s[1]? = some 0x78 ∨ s[1]? = some 0x58 then readDigits 16 0 (s.drop 2)
    else readDigits 8 0 s
  else readDigits 10 0 s

/-- `strtoul(s, NULL, 0)` where an unsigned long has `w` bits. -/
def strtoul (w : ℕ) (s : List UInt8) : ℕ :=
  let s := s.dropWhile isSpace
  let negative : Bool := s.head? = some 0x2D
  let n := readUnsigned (if s.head? = some 0x2D ∨ s.head? = some 0x2B then s.drop 1 else s)
  if 2 ^ w ≤ n then 2 ^ w - 1
  else if negative then (2 ^ w - n) % 2 ^ w
  else n

end Strtoul
