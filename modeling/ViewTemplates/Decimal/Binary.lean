/-!
# Binary numbers of 64 bits

A pattern of 64 bits is a sign, 11 bits of exponent and 52 bits of fraction. A finite pattern stands
for `mantissa * 2 ^ shift` units, where a unit is `2 ^ (-1074)`, so every finite number is a natural
number of units.
-/

set_option autoImplicit false

namespace ViewTemplates.Decimal

/-- What a pattern of 64 bits stands for. -/
inductive Binary
  | nan
  /-- Above, or when negative below, all numbers. -/
  | infinite (negative : Bool)
  /-- The number `mantissa * 2 ^ shift` units, or its negative. -/
  | finite (negative : Bool) (mantissa shift : Nat)
  deriving DecidableEq, Repr

namespace Binary

/-- The bit before the fraction, which a pattern leaves out unless its exponent is the smallest. -/
def leadingBit : Nat := 0x10000000000000

/-- The number of exponents. The largest one marks patterns that are not finite. -/
def exponents : Nat := 0x800

/-- The meaning of a pattern of 64 bits. -/
def ofBits (bits : UInt64) : Binary :=
  let negative := bits.toNat / leadingBit / exponents = 1
  let exponent := bits.toNat / leadingBit % exponents
  let fraction := bits.toNat % leadingBit
  if exponent + 1 = exponents then
    if fraction = 0 then infinite negative else nan
  else if exponent = 0 then finite negative fraction 0
  else finite negative (leadingBit + fraction) (exponent - 1)

end Binary

end ViewTemplates.Decimal
