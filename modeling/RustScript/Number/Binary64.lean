/-!
# Binary floating-point numbers of 64 bits

The numbers of the format binary64 as exact values `± mantissa · 2 ^ exponent`, with rounding of
an exact quotient to the nearest one, ties to even. Every number has one representation, so
equality of values here is equality of bits, NaN apart, of which there is one.
-/

set_option autoImplicit false

namespace RustScript

/-- A binary64 number. A finite one has a mantissa below `2 ^ 53` and an exponent between `-1074`
and `971`, and the mantissa is at least `2 ^ 52` unless the exponent is `-1074`. -/
inductive Binary64
  | nan
  | infinity (negative : Bool)
  | finite (negative : Bool) (mantissa : Nat) (exponent : Int)
  deriving DecidableEq, Repr, Inhabited

namespace Binary64

/-- The quotient rounded to the nearest integer, a half to the even neighbour. -/
def divideToEven (num den : Nat) : Nat :=
  let quotient := num / den
  let twice := 2 * (num % den)
  if den < twice || (den = twice && quotient % 2 = 1) then quotient + 1 else quotient

/-- A mantissa that rounding may have carried to `2 ^ 53`, with its exponent. -/
def ofScaled (negative : Bool) (mantissa : Nat) (exponent : Int) : Binary64 :=
  let carried := mantissa = Nat.pow 2 53
  let exponent := if carried then exponent + 1 else exponent
  if exponent > 971 then .infinity negative
  else .finite negative (if carried then Nat.pow 2 52 else mantissa) exponent

/-- The number nearest to `num / den`. -/
def ofRatio (negative : Bool) (num den : Nat) : Binary64 :=
  if num = 0 ∨ den = 0 then .finite negative 0 (-1074)
  else
    let guess : Int := num.log2 - den.log2 - 52
    let scaled (e : Int) : Nat × Nat := (num * Nat.pow 2 (-e).toNat, den * Nat.pow 2 e.toNat)
    let (n, d) := scaled guess
    let exponent := max (if n / d < Nat.pow 2 52 then guess - 1 else guess) (-1074)
    let (n, d) := scaled exponent
    ofScaled negative (divideToEven n d) exponent

/-- The number nearest to `digits · 10 ^ exponent`. -/
def ofDecimal (negative : Bool) (digits : Nat) (exponent : Int) : Binary64 :=
  let size : Int := (Nat.toDigits 10 digits).length + exponent
  if digits = 0 ∨ size < -400 then .finite negative 0 (-1074)
  else if size > 400 then .infinity negative
  else ofRatio negative (digits * Nat.pow 10 exponent.toNat) (Nat.pow 10 (-exponent).toNat)

/-- The magnitude of a finite number as a quotient. -/
def ratio (mantissa : Nat) (exponent : Int) : Nat × Nat :=
  (mantissa * Nat.pow 2 exponent.toNat, Nat.pow 2 (-exponent).toNat)

/-- The number is greater than zero. -/
def isPositive : Binary64 → Bool
  | .nan => false
  | .infinity negative => !negative
  | .finite negative mantissa _ => !negative && mantissa ≠ 0

/-- The number is zero or less. NaN is neither this nor positive. -/
def isNonpositive : Binary64 → Bool
  | .nan => false
  | x => !x.isPositive

/-- The number with the other sign. -/
def neg : Binary64 → Binary64
  | .nan => .nan
  | .infinity negative => .infinity !negative
  | .finite negative mantissa exponent => .finite (!negative) mantissa exponent

/-- The numerator of a signed quotient. -/
def signed (negative : Bool) (num : Nat) : Int := if negative then -num else num

/-- The sum, rounded to nearest. -/
def add : Binary64 → Binary64 → Binary64
  | .nan, _ => .nan
  | _, .nan => .nan
  | .infinity a, .infinity b => if a = b then .infinity a else .nan
  | .infinity a, _ => .infinity a
  | _, .infinity b => .infinity b
  | .finite a m e, .finite b n f =>
      let (p, q) := ratio m e
      let (r, s) := ratio n f
      let sum := signed a p * s + signed b r * q
      if sum = 0 then .finite (a && b) 0 (-1074) else ofRatio (sum < 0) sum.natAbs (q * s)

/-- The difference, rounded to nearest. -/
def sub (x y : Binary64) : Binary64 := x.add y.neg

/-- The quotient by a positive integer, rounded to nearest. -/
def divNat : Binary64 → Nat → Binary64
  | .finite negative m e, n =>
      let (p, q) := ratio m e
      ofRatio negative p (q * n)
  | x, _ => x

/-- The thousandths of a finite magnitude, rounded, a half to the even neighbour. -/
def thousandths (mantissa : Nat) (exponent : Int) : Nat :=
  let (p, q) := ratio mantissa exponent
  divideToEven (p * 1000) q

/-- The number rounded to three decimal places. -/
def roundThousandth : Binary64 → Binary64
  | .finite negative m e => ofRatio negative (thousandths m e) 1000
  | x => x

/-- The zero. -/
def zero : Binary64 := .finite false 0 (-1074)

end Binary64

end RustScript
