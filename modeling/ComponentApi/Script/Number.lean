/-!
# Names of numbers

A number can be the name of a property; its name is the shortest decimal that reads back as the
same double. `nearest?` rounds an exact fraction to a double, `shortest` finds the digits by trying
one digit, two digits and so on, and `layout` writes them: plainly from 10^-6 up to 10^21, with an
exponent beyond.
-/

namespace ComponentApi.Script.Number

/-- A positive double: the mantissa times a power of two. -/
structure Binary where
  mantissa : Nat
  exponent : Int
  deriving DecidableEq, Repr

/-- A decimal: an integer times a power of ten. -/
structure Decimal where
  digits : Nat
  exponent : Int
  deriving DecidableEq, Repr

/-- A power with an integer exponent as a numerator and a denominator. -/
def powFraction (base : Nat) (exponent : Int) : Nat × Nat :=
  (base.pow exponent.toNat, base.pow (-exponent).toNat)

/-- A quotient rounded to the nearest integer, a half to the even one. -/
def roundDiv (num den : Nat) : Nat :=
  let quotient := num / den
  let rest := 2 * (num % den)
  if rest < den then quotient
  else if den < rest then quotient + 1
  else quotient + quotient % 2

/-- The least mantissa of a double that is not too small for a full one. -/
def leastMantissa : Nat := Nat.pow 2 52

/-- The double nearest to a positive fraction; nothing if it is beyond all doubles. -/
def nearest? (num den : Nat) : Option Binary :=
  let guess : Int := (num.log2 : Int) - den.log2 - 52
  let scaled (exponent : Int) : Nat × Nat :=
    let (up, down) := powFraction 2 exponent
    (num * down, den * up)
  let (n, d) := scaled guess
  let exponent := max (if n < leastMantissa * d then guess - 1 else guess) (-1074)
  let (n, d) := scaled exponent
  let mantissa := roundDiv n d
  let result : Binary :=
    if mantissa = 2 * leastMantissa then ⟨leastMantissa, exponent + 1⟩ else ⟨mantissa, exponent⟩
  if 971 < result.exponent then none else some result

/-- Four times the ends of the range of numbers that round to the double, in units of its last
place: below a power of two the lower end is nearer. -/
def Binary.bounds (b : Binary) : Nat × Nat :=
  let low := if b.mantissa = leastMantissa ∧ -1074 < b.exponent then 4 * b.mantissa - 1
    else 4 * b.mantissa - 2
  (low, 4 * b.mantissa + 2)

/-- The decimal exponent of the first digit of a fraction, by counting down from a bound that is
large enough. -/
def leadExponent (num den : Nat) : Nat → Int → Int
  | 0, exponent => exponent
  | bound + 1, exponent =>
    let (up, down) := powFraction 10 exponent
    if den * up ≤ num * down then exponent else leadExponent num den bound (exponent - 1)

/-- The decimal of a number of digits that is nearest to the double, if it reads back as it. -/
def Binary.decimal? (b : Binary) (lead : Int) (count : Nat) : Option Decimal :=
  let exponent := lead - count + 1
  let (up, down) := powFraction 2 (b.exponent - 2)
  let (tenUp, tenDown) := powFraction 10 exponent
  let unit := up * tenDown
  let place := down * tenUp
  let (low, high) := b.bounds
  let fits (digits : Nat) : Bool :=
    if b.mantissa % 2 = 0 then low * unit ≤ digits * place && digits * place ≤ high * unit
    else low * unit < digits * place && digits * place < high * unit
  let value := 4 * b.mantissa * unit
  let floor := value / place
  let near := if 2 * (value % place) ≤ place then [floor, floor + 1] else [floor + 1, floor]
  (near.find? fits).map fun digits => ⟨digits, exponent⟩

/-- The decimal with the fewest digits that reads back as the double. -/
def Binary.shortest (b : Binary) : Decimal :=
  let (up, down) := powFraction 2 b.exponent
  let lead := leadExponent (b.mantissa * up) down 700 310
  (((List.range 17).findSome? fun i => b.decimal? lead (i + 1))).getD ⟨b.mantissa, 0⟩

/-- Digits without the zeros at their end, and how many those were. -/
def stripZeros (digits : List Char) : List Char × Nat :=
  let kept := (digits.reverse.dropWhile (· == '0')).reverse
  (kept, digits.length - kept.length)

/-- The text of a decimal. -/
def layout (decimal : Decimal) : String :=
  let (digits, zeros) := stripZeros (toString decimal.digits).toList
  let count : Int := digits.length
  let point : Int := count + decimal.exponent + zeros
  let chars :=
    if count ≤ point ∧ point ≤ 21 then digits ++ List.replicate (point - count).toNat '0'
    else if 0 < point ∧ point ≤ 21 then
      digits.take point.toNat ++ '.' :: digits.drop point.toNat
    else if -6 < point ∧ point ≤ 0 then
      '0' :: '.' :: List.replicate (-point).toNat '0' ++ digits
    else
      let mantissa := match digits with
        | [] => []
        | [d] => [d]
        | d :: rest => d :: '.' :: rest
      let exponent := point - 1
      mantissa ++ 'e' :: (if exponent < 0 then '-' else '+') ::
        (toString exponent.natAbs).toList
  String.ofList chars

/-- The name of an exact fraction. -/
def name (num den : Nat) : String :=
  if num = 0 then "0"
  else
    match nearest? num den with
    | none => "Infinity"
    | some b => if b.mantissa = 0 then "0" else layout b.shortest

/-- The name of a decimal written with whole digits, digits after the point and an exponent. -/
def decimalName (whole fraction : Nat) (places : Nat) (exponent : Int) : String :=
  let value := whole * Nat.pow 10 places + fraction
  let scale := exponent - places
  if value = 0 then "0"
  -- Exponents far outside the range of doubles are not worth computing a power for.
  else if scale + (toString value).length < -400 then "0"
  else if 400 < scale then "Infinity"
  else
    let (up, down) := powFraction 10 scale
    name (value * up) down

end ComponentApi.Script.Number
