/-!
# Numbers

The numbers that a lookup counts with: binary numbers with 53 bits of precision, two zeros, two
infinities and one value that is no number at all. A finite number is a mantissa times a power of
two. `Number.quotient` is the only place where precision is lost: it rounds an exact quotient of
two natural numbers to the nearest number, and a tie to the one with an even mantissa.
-/

namespace Phrasebook

/-- A binary number with 53 bits of precision. -/
inductive Number where
  /-- The outcome of an operation without a result. -/
  | undefined
  | infinite (negative : Bool)
  /-- The mantissa times two to the power of the exponent. -/
  | finite (negative : Bool) (mantissa : Nat) (exponent : Int)
deriving DecidableEq, Repr, Inhabited

namespace Number

def precision : Nat :=
  53

def leastExponent : Int :=
  -1074

def greatestExponent : Int :=
  971

def zero : Number :=
  finite false 0 leastExponent

/-- A quotient rounded to the nearest natural number, and a tie to the even one. -/
def roundQuotient (numerator denominator : Nat) : Nat :=
  let whole := numerator / denominator
  let rest := 2 * (numerator % denominator)
  if denominator < rest || (denominator == rest && whole % 2 == 1) then whole + 1 else whole

/-- The numerator and the denominator of a quotient divided by a power of two. -/
def scaleDown (numerator denominator : Nat) (exponent : Int) : Nat × Nat :=
  (numerator * Nat.pow 2 (-exponent).toNat, denominator * Nat.pow 2 exponent.toNat)

/-- The exponent with which a quotient has a mantissa of 53 bits, or the least exponent. -/
def exponentOf (numerator denominator : Nat) : Int :=
  let estimate : Int := (numerator.log2 : Int) - denominator.log2 - precision
  let scaled := scaleDown numerator denominator estimate
  max leastExponent (if scaled.1 / scaled.2 < Nat.pow 2 precision then estimate else estimate + 1)

/-- A mantissa of at most 54 bits with its exponent as a number. Only a mantissa that was rounded
up to a power of two has 54 bits. -/
def ofMantissa (negative : Bool) (mantissa : Nat) (exponent : Int) : Number :=
  let fits := mantissa < Nat.pow 2 precision
  let mantissa' := if fits then mantissa else mantissa / 2
  let exponent' := if fits then exponent else exponent + 1
  if greatestExponent < exponent' then infinite negative else finite negative mantissa' exponent'

/-- The number nearest to a quotient with a positive denominator. -/
def quotient (negative : Bool) (numerator denominator : Nat) : Number :=
  if numerator = 0 then finite negative 0 leastExponent
  else
    let exponent := exponentOf numerator denominator
    let scaled := scaleDown numerator denominator exponent
    ofMantissa negative (roundQuotient scaled.1 scaled.2) exponent

def ofInt (value : Int) : Number :=
  quotient (value < 0) value.natAbs 1

/-- A decimal whose leading digit is beyond this power of ten is rounded to an infinity. -/
def decimalLimit : Int :=
  310

/-- A decimal whose leading digit is below this power of ten is rounded to zero. -/
def decimalFloor : Int :=
  -400

/-- The number nearest to `digits` times ten to the power of `exponent`. -/
def ofDecimal (negative : Bool) (digits : Nat) (exponent : Int) : Number :=
  let magnitude : Int := (Nat.toDigits 10 digits).length + exponent
  if digits = 0 || magnitude < decimalFloor then finite negative 0 leastExponent
  else if decimalLimit < magnitude then infinite negative
  else quotient negative (digits * Nat.pow 10 exponent.toNat) (Nat.pow 10 (-exponent).toNat)

/-- The number nearest to a quotient of two natural numbers times a power of two. -/
def scaledQuotient (negative : Bool) (numerator denominator : Nat) (exponent : Int) : Number :=
  quotient negative (numerator * Nat.pow 2 exponent.toNat) (denominator * Nat.pow 2 (-exponent).toNat)

def multiply : Number → Number → Number
  | finite negative mantissa exponent, finite negative' mantissa' exponent' =>
    scaledQuotient (negative != negative') (mantissa * mantissa') 1 (exponent + exponent')
  | _, _ => undefined

/-- The quotient of a finite number by one that is not zero. -/
def divide : Number → Number → Number
  | finite negative mantissa exponent, finite negative' mantissa' exponent' =>
    scaledQuotient (negative != negative') mantissa mantissa' (exponent - exponent')
  | _, _ => undefined

def negate : Number → Number
  | undefined => undefined
  | infinite negative => infinite !negative
  | finite negative mantissa exponent => finite (!negative) mantissa exponent

def isZero : Number → Bool
  | finite _ mantissa _ => mantissa == 0
  | _ => false

def isInfinite : Number → Bool
  | infinite _ => true
  | _ => false

def isOne : Number → Bool
  | finite false mantissa exponent => exponent ≤ 0 && mantissa == Nat.pow 2 (-exponent).toNat
  | _ => false

end Number

end Phrasebook
