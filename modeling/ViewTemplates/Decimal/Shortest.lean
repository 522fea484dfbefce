import ViewTemplates.Decimal.Binary

/-!
# The shortest decimal of a binary number

Of the decimals that read back as a given binary number, the shortest is the one on the coarsest
grid: the multiple `digits * 10 ^ exponent` with the largest exponent. Where two neighbours on that
grid read back, the nearer one is taken, and the upper one if both are as near.

All numbers are counted in quarters of `10 ^ (-1074)`. In this unit every finite binary number, the
ends of the interval that reads back as it, and every grid down to `10 ^ (-1074)` are natural
numbers, so all comparisons are exact.
-/

set_option autoImplicit false

namespace ViewTemplates

/-- The number `digits * 10 ^ exponent`. -/
structure Decimal where
  /-- The decimal digits, read as one number. -/
  digits : Nat
  /-- The power of ten of the last digit. -/
  exponent : Int
  deriving DecidableEq, Repr

namespace Decimal

/-- The numbers that read back as one binary number: those from `mid - below` to `mid + above`, in
quarters of `10 ^ (-1074)`. -/
structure Reach where
  mid : Nat
  below : Nat
  above : Nat
  /-- Whether the ends themselves read back. -/
  closed : Bool
  deriving DecidableEq, Repr

/-- The reach of `mantissa * 2 ^ shift` units of `2 ^ (-1074)`. An end lies half way to the
neighbour. Under a power of two the neighbours are twice as close, except at the smallest exponent.
Ends go to the even neighbour. -/
def Reach.ofBinary (mantissa shift : Nat) : Reach :=
  let quarter := Nat.pow 2 shift * Nat.pow 5 1074
  { mid := 4 * mantissa * quarter
    below := (if mantissa = Binary.leadingBit ∧ 0 < shift then 1 else 2) * quarter
    above := 2 * quarter
    closed := mantissa % 2 = 0 }

/-- Whether a number of quarters reads back. -/
def Reach.contains (r : Reach) (x : Nat) : Bool :=
  if r.closed then decide (r.mid ≤ x + r.below ∧ x ≤ r.mid + r.above)
  else decide (r.mid < x + r.below ∧ x < r.mid + r.above)

/-- The multiple of `step` that reads back and is nearest to the middle, if one reads back. -/
def Reach.onGrid? (r : Reach) (step : Nat) : Option Nat :=
  let lower := r.mid / step
  let upperNearer := step ≤ 2 * (r.mid - lower * step)
  match r.contains (lower * step), r.contains ((lower + 1) * step) with
  | true, true => some (if upperNearer then lower + 1 else lower)
  | true, false => some lower
  | false, true => some (lower + 1)
  | false, false => none

/-- The shortest decimal on the grids from `10 ^ (places - 1074)` down to `10 ^ (-1074)`. The middle
itself lies on the last one. -/
def Reach.shortestFrom (r : Reach) : Nat → Decimal
  | 0 => ⟨r.mid / 4, -1074⟩
  | places + 1 =>
    match r.onGrid? (4 * Nat.pow 10 (places + 1)) with
    | some digits => ⟨digits, (places + 1 : Nat) - 1074⟩
    | none => r.shortestFrom places

/-- The shortest decimal that reads back as `mantissa * 2 ^ shift` units of `2 ^ (-1074)`. The
search begins at `10 ^ 309`, which is above all finite numbers. -/
def shortest (mantissa shift : Nat) : Decimal :=
  (Reach.ofBinary mantissa shift).shortestFrom (1074 + 309)

end Decimal

end ViewTemplates
