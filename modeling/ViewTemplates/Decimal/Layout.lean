import ViewTemplates.Decimal.Shortest

/-!
# How a number is laid out

A layout says which numbers are written with all their places, which with an exponent of ten, and
whether a whole number has a fraction.
-/

set_option autoImplicit false

namespace ViewTemplates.Decimal

/-- The choices in writing a number. -/
structure Layout where
  /-- Whether a number whose first digit stands for this power of ten is written with all its
  places. -/
  positional : Int → Bool
  /-- What follows a whole number. -/
  wholeFraction : String

namespace Layout

/-- All places are written, and a whole number is written as one. -/
def plain : Layout where
  positional _ := true
  wholeFraction := ""

/-- Very large and very small numbers have an exponent, and the fraction of a whole number is
written. -/
def marked : Layout where
  positional exponent := decide (-4 ≤ exponent ∧ exponent < 16)
  wholeFraction := ".0"

/-- A run of zeros. -/
def zeros (n : Nat) : String :=
  String.ofList (List.replicate n '0')

/-- A decimal with all its places. -/
def places (layout : Layout) (d : Decimal) : String :=
  let digits := d.digits.repr
  match d.exponent with
  | .ofNat n => digits ++ zeros n ++ layout.wholeFraction
  | .negSucc n =>
    if n + 1 < digits.length then
      let whole := digits.length - (n + 1)
      String.ofList (digits.toList.take whole) ++ "." ++ String.ofList (digits.toList.drop whole)
    else
      "0." ++ zeros (n + 1 - digits.length) ++ digits

/-- The power of ten that the first digit of a decimal stands for. -/
def leading (d : Decimal) : Int :=
  d.exponent + d.digits.repr.length - 1

/-- A decimal with one digit before the point, and the power of ten of that digit. -/
def scientific (d : Decimal) : String :=
  let digits := d.digits.repr.toList
  let fraction := if digits.length ≤ 1 then "" else "." ++ String.ofList (digits.drop 1)
  String.ofList (digits.take 1) ++ fraction ++ "e" ++ (leading d).repr

/-- The text of a positive decimal. -/
def ofDecimal (layout : Layout) (d : Decimal) : String :=
  if layout.positional (leading d) then layout.places d else scientific d

/-- The text of a binary number: the shortest decimal that reads back as it. -/
def ofBinary (layout : Layout) : Binary → String
  | .nan => "NaN"
  | .infinite negative => sign negative ++ "inf"
  | .finite negative mantissa shift =>
    sign negative ++
      if mantissa = 0 then "0" ++ layout.wholeFraction
      else layout.ofDecimal (shortest mantissa shift)
where
  /-- The sign of a number. -/
  sign (negative : Bool) : String := if negative then "-" else ""

/-- The text of a floating-point number. -/
def ofFloat (layout : Layout) (x : Float) : String :=
  layout.ofBinary (Binary.ofBits x.toBits)

end Layout

end ViewTemplates.Decimal
