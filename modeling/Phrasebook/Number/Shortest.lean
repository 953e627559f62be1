import Phrasebook.Number.Basic

/-!
# Shortest decimals

A number is written with the fewest decimal digits that read back to it. The decimals that read
back form an interval around the number: half way to each of its neighbours, and the ends belong
to it when the mantissa is even. On the grid of decimals with a given number of digits only the
two neighbours of the number have to be tried. The first grid with a hit wins; of two hits the
nearer one is taken, and which of two equally near ones is a matter of the format.
-/

namespace Phrasebook.Number

/-- Which of two equally near decimals is taken. -/
inductive Tie where
  | upward
  | toEven
deriving DecidableEq, Repr

/-- The digits of a decimal as one natural number, and the power of ten of the last digit. -/
structure Digits where
  value : Nat
  exponent : Int
deriving DecidableEq, Repr

namespace Digits

/-- How a decimal compares with a mantissa times a power of two. -/
def compareWith (digits : Digits) (mantissa : Nat) (exponent : Int) : Ordering :=
  compare (digits.value * Nat.pow 10 digits.exponent.toNat * Nat.pow 2 (-exponent).toNat)
    (mantissa * Nat.pow 2 exponent.toNat * Nat.pow 10 (-digits.exponent).toNat)

/-- Whether a decimal reads back to a positive number. Below a power of two the neighbour is only
half as far away as above it. -/
def readsBack (mantissa : Nat) (exponent : Int) (digits : Digits) : Bool :=
  let isNarrow := mantissa == Nat.pow 2 (precision - 1) && leastExponent < exponent
  let low := if isNarrow then 4 * mantissa - 1 else 4 * mantissa - 2
  let high := 4 * mantissa + 2
  let includesEnds := mantissa % 2 == 0
  let fromLow := digits.compareWith low (exponent - 2)
  let fromHigh := digits.compareWith high (exponent - 2)
  (fromLow == .gt || (includesEnds && fromLow == .eq)) &&
    (fromHigh == .lt || (includesEnds && fromHigh == .eq))

/-- The least power of ten above a positive number. -/
def scaleOf (mantissa : Nat) (exponent : Int) : Int :=
  let estimate : Int := ((mantissa.log2 : Int) + exponent) * 30103 / 100000
  if Digits.compareWith ⟨1, estimate⟩ mantissa exponent == .gt then estimate
  else if Digits.compareWith ⟨1, estimate + 1⟩ mantissa exponent == .gt then estimate + 1
  else estimate + 2

/-- The greatest decimal of a grid that is not above a positive number. -/
def below (mantissa : Nat) (exponent grid : Int) : Digits :=
  ⟨mantissa * Nat.pow 2 exponent.toNat * Nat.pow 10 (-grid).toNat /
    (Nat.pow 2 (-exponent).toNat * Nat.pow 10 grid.toNat), grid⟩

/-- The decimal of a grid that reads back to a positive number and is nearest to it. -/
def onGrid? (tie : Tie) (mantissa : Nat) (exponent grid : Int) : Option Digits :=
  let lower := below mantissa exponent grid
  let upper : Digits := ⟨lower.value + 1, grid⟩
  match lower.readsBack mantissa exponent, upper.readsBack mantissa exponent with
  | false, false => none
  | true, false => some lower
  | false, true => some upper
  | true, true =>
    match Digits.compareWith ⟨2 * lower.value + 1, grid⟩ (2 * mantissa) exponent with
    | .gt => some lower
    | .lt => some upper
    | .eq => if tie == .toEven && lower.value % 2 == 0 then some lower else some upper

/-- A decimal without the zeros at its end, of which there are at most as many as `room`. -/
def stripZeros : Nat → Digits → Digits
  | 0, digits => digits
  | room + 1, digits =>
    if digits.value != 0 && digits.value % 10 == 0 then
      stripZeros room ⟨digits.value / 10, digits.exponent + 1⟩
    else digits

/-- The exact value of a mantissa times a power of two as a decimal. -/
def exact (mantissa : Nat) (exponent : Int) : Digits :=
  ⟨mantissa * Nat.pow 2 exponent.toNat * Nat.pow 5 (-exponent).toNat, min exponent 0⟩

/-- The shortest decimal that reads back to a positive number. -/
def shortest (tie : Tie) (mantissa : Nat) (exponent : Int) : Digits :=
  let scale := scaleOf mantissa exponent
  let found := (List.range 17).findSome? fun (count : Nat) ↦
    onGrid? tie mantissa exponent (scale - (count + 1))
  stripZeros 17 (found.getD (exact mantissa exponent))

end Digits

end Phrasebook.Number
