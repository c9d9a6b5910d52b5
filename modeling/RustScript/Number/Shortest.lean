import RustScript.Number.Binary64

/-!
# Numbers as text

`Binary64.shortest` writes the fewest decimal digits that read back as the number, and of those
the nearest to it: positionally when the leading digit stands for `10 ^ -4` to `10 ^ 15`,
otherwise with an exponent. `Binary64.fixed` writes three decimal places.
-/

set_option autoImplicit false

namespace RustScript.Binary64

/-- A decimal number `digits · 10 ^ exponent`. -/
structure Decimal where
  digits : Nat
  exponent : Int
  deriving DecidableEq, Repr

/-- `num / den` is at least `10 ^ k`. -/
def reachesPower (num den : Nat) (k : Int) : Bool :=
  den * Nat.pow 10 k.toNat ≤ num * Nat.pow 10 (-k).toNat

/-- The least `k` with `num / den < 10 ^ k`, found by going up from a lower bound; `fuel` bounds
the steps. -/
def decimalScale (num den : Nat) : Nat → Int → Int
  | 0, k => k
  | fuel + 1, k => if reachesPower num den k then decimalScale num den fuel (k + 1) else k

/-- Of the two multiples of `10 ^ grid` around a number, the one that reads back as it; the nearer
one if both do, and of two equally near the even one. -/
def onGrid? (mantissa : Nat) (exponent grid : Int) (num den : Nat) : Option Decimal :=
  let below := (num * Nat.pow 10 (-grid).toNat) / (den * Nat.pow 10 grid.toNat)
  let readsBack (digits : Nat) : Bool :=
    ofDecimal false digits grid = .finite false mantissa exponent
  if readsBack below then
    if readsBack (below + 1) then
      -- both neighbours read back, so the nearer one is nearest of all
      let nearest := divideToEven (num * Nat.pow 10 (-grid).toNat) (den * Nat.pow 10 grid.toNat)
      some ⟨nearest, grid⟩
    else some ⟨below, grid⟩
  else if readsBack (below + 1) then some ⟨below + 1, grid⟩
  else none

/-- The exact value of a finite magnitude. -/
def exactDecimal (mantissa : Nat) (exponent : Int) : Decimal :=
  if exponent < 0 then ⟨mantissa * Nat.pow 5 (-exponent).toNat, exponent⟩
  else ⟨mantissa * Nat.pow 2 exponent.toNat, 0⟩

/-- The shortest decimal that reads back as a positive magnitude. -/
def shortestDecimal (mantissa : Nat) (exponent : Int) : Decimal :=
  let (num, den) := ratio mantissa exponent
  let scale := decimalScale num den 8 (((num.log2 : Int) - den.log2 - 1) * 30103 / 100000)
  ((List.range 17).findSome? fun (places : Nat) =>
      onGrid? mantissa exponent (scale - (places : Nat) - 1) num den).getD
    (exactDecimal mantissa exponent)

/-- A digit sequence without the zeros at its end; at least one digit stays. -/
def stripZeros (digits : List Char) : List Char :=
  match digits.reverse.dropWhile (· = '0') with
  | [] => ['0']
  | rest => rest.reverse

/-- The digits of a number below one hundred, at least two of them. -/
def twoDigits (n : Nat) : List Char :=
  if n < 10 then '0' :: Nat.toDigits 10 n else Nat.toDigits 10 n

/-- The digits `digits`, the first of which stands for `10 ^ lead`, with a point. -/
def layout (digits : List Char) (lead : Int) : List Char :=
  -- numbers that are neither tiny nor huge are written out
  if -4 ≤ lead ∧ lead < 16 then
    if lead < 0 then '0' :: '.' :: List.replicate (-lead - 1).toNat '0' ++ digits
    else
      let whole := (lead + 1).toNat
      let padded := digits ++ List.replicate (whole - digits.length) '0'
      let fraction := padded.drop whole
      padded.take whole ++ '.' :: (if fraction.isEmpty then ['0'] else fraction)
  else
    let head := match digits with
      | [d] => [d]
      | d :: rest => d :: '.' :: rest
      | [] => []
    head ++ 'e' :: (if lead < 0 then '-' else '+') :: twoDigits lead.natAbs

/-- The shortest text that reads back as the number. -/
def shortest : Binary64 → String
  | .nan => "nan"
  | .infinity negative => if negative then "-inf" else "inf"
  | .finite negative mantissa exponent =>
      let sign := if negative then ['-'] else []
      if mantissa = 0 then String.ofList (sign ++ ['0', '.', '0'])
      else
        let decimal := shortestDecimal mantissa exponent
        let digits := Nat.toDigits 10 decimal.digits
        let lead := decimal.exponent + digits.length - 1
        String.ofList (sign ++ layout (stripZeros digits) lead)

/-- The number with three decimal places. -/
def fixed : Binary64 → String
  | .nan => "nan"
  | .infinity negative => if negative then "-inf" else "inf"
  | .finite negative mantissa exponent =>
      let total := thousandths mantissa exponent
      let places := Nat.toDigits 10 (total % 1000)
      String.ofList ((if negative then ['-'] else []) ++ Nat.toDigits 10 (total / 1000) ++
        '.' :: List.replicate (3 - places.length) '0' ++ places)

end RustScript.Binary64
