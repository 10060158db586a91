import BoundSql.Binary64.Decimal

/-!
# Hexadecimal digits

The digits by which the escapes of strings name characters.

## Main definitions

* `BoundSql.hexValue?` — the value of a digit.
* `BoundSql.hexNumber?` — the number that digits write.
-/

namespace BoundSql

/-- The value of a hexadecimal digit. -/
def hexValue? (c : Char) : Option Nat :=
  if isDigit c then some (digitValue c)
  else if 'a' ≤ c && c ≤ 'f' then some (c.toNat - 'a'.toNat + 10)
  else if 'A' ≤ c && c ≤ 'F' then some (c.toNat - 'A'.toNat + 10)
  else none

/-- The number that hexadecimal digits write. -/
def hexNumber? (digits : List Char) : Option Nat :=
  digits.foldlM (fun n c => (hexValue? c).map (16 * n + ·)) 0

end BoundSql
