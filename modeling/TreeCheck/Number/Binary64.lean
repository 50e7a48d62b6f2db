/-
Finite binary floating-point numbers as 64-bit patterns, with decimal
input as documents are read and shortest decimal output.

A number is m · 2^q for a significand m below 2^53 and an exponent q of
at least -1074; the pattern holds the two as the sum
(q + 1074) · 2^52 + m, with m at least 2^52 unless q is least. All work
is on naturals: a fraction is scaled so that its integer part has 53
bits, and the rest is rounded away, to even on a tie.

A decimal of a document is read in floating-point steps. Its significand
is rounded, then multiplied or divided by powers of ten that are rounded
themselves, so the number read need not be the one nearest to the
decimal. Writing takes the first grid of decimals, coarse to fine, on
which a neighbour of the number is nearest to the number itself.
-/

namespace TreeCheck

/-- A floating-point number, as its 64-bit pattern: sign, eleven bits of
exponent, fifty-two bits of fraction. -/
structure Binary64 where
  bits : UInt64
deriving DecidableEq, Repr

namespace Binary64

/-- The pattern of a positive infinity, the first that is not a finite
magnitude. -/
def infinityBits : Nat := 0x7FF0000000000000

/-- The weight of the sign bit. -/
def signBit : Nat := 0x8000000000000000

/-- The weight of the lowest bit of the exponent, above the 52 bits of the
fraction. -/
def exponentBit : Nat := 0x10000000000000

/-- A finite number from its sign and the bits of its magnitude. -/
def ofMagnitude (negative : Bool) (magnitude : Nat) : Binary64 :=
  ⟨UInt64.ofNat (if negative then signBit + magnitude else magnitude)⟩

/-- Whether the sign bit is set; a zero can have it too. -/
def isNegative (x : Binary64) : Bool := signBit ≤ x.bits.toNat

/-- The bits below the sign. -/
def magnitude (x : Binary64) : Nat := x.bits.toNat % signBit

/-- The magnitude as m · 2^q. -/
def decode (magnitude : Nat) : Nat × Int :=
  let field : Nat := magnitude / exponentBit
  let fraction : Nat := magnitude % exponentBit
  if field = 0 then (fraction, -1074) else (exponentBit + fraction, (field : Int) - 1075)

-- ======================================================= from a decimal

/-- The quotient rounded to the nearest natural, a half to the even
neighbour. -/
def roundDiv (num den : Nat) : Nat :=
  let q := num / den
  let twice := 2 * (num % den)
  if den < twice || (twice == den && q % 2 == 1) then q + 1 else q

/-- `num / den / 2^q`, as a fraction of naturals. -/
def scaled (num den : Nat) (q : Int) : Nat × Nat :=
  if 0 ≤ q then (num, den * Nat.pow 2 q.toNat) else (num * Nat.pow 2 (-q).toNat, den)

/-- The exponent at which the integer part of `num / den` has 53 bits,
or the least exponent where that would lie below it. -/
def exponentOf (num den : Nat) : Int :=
  let guess : Int := (Nat.log2 num : Int) - (Nat.log2 den : Int) - 52
  let (n, d) := scaled num den guess
  max (-1074) (if n / d < exponentBit then guess - 1 else guess)

/-- The bits of the magnitude nearest to a positive fraction; a carry out
of the significand runs into the exponent, as it should. -/
def roundFraction (num den : Nat) : Nat :=
  let q := exponentOf num den
  let (n, d) := scaled num den q
  (q + 1074).toNat * exponentBit + roundDiv n d

/-- The bits of the magnitude nearest to a fraction. -/
def nearest (num den : Nat) : Nat := if num = 0 then 0 else roundFraction num den

/-- The product of two finite magnitudes, rounded; it may be infinite. -/
def product (a b : Nat) : Nat :=
  let (m, p) := decode a
  let (n, q) := decode b
  let (num, den) := scaled (m * n) 1 (-(p + q))
  nearest num den

/-- The quotient of two finite magnitudes, rounded. -/
def quotient (a b : Nat) : Nat :=
  let (m, p) := decode a
  let (n, q) := decode b
  let (num, den) := scaled m n (q - p)
  nearest num den

/-- The greatest power of ten that is a finite number. -/
def greatestPower : Nat := 308

/-- The magnitude of a power of ten. -/
def powerOfTen (n : Nat) : Nat := nearest (Nat.pow 10 n) 1

/-- Divides a magnitude by the greatest power of ten a number of times, or
until nothing is left. -/
def divideDown : Nat → Nat → Nat
  | 0, magnitude => magnitude
  | times + 1, magnitude =>
    if magnitude = 0 then 0
    else divideDown times (quotient magnitude (powerOfTen greatestPower))

/-- The magnitude that a significand times a power of ten is read as,
unless it is infinite. Each step is rounded; powers below the finite ones
are taken in several. -/
def magnitudeOfParts? (significand : Nat) (exponent : Int) : Option Nat :=
  let start := nearest significand 1
  let power := exponent.natAbs
  if exponent < 0 then
    let times := (power - 1) / greatestPower
    some (quotient (divideDown times start) (powerOfTen (power - times * greatestPower)))
  else if power ≤ greatestPower then
    let bits := product start (powerOfTen power)
    if bits < infinityBits then some bits else none
  else if start = 0 then some 0
  else none

/-- The number that a decimal of a document is read as, unless that is
infinite. -/
def ofParts? (negative : Bool) (significand : Nat) (exponent : Int) : Option Binary64 :=
  (magnitudeOfParts? significand exponent).map (ofMagnitude negative)

-- ========================================================= to a decimal

/-- `magnitude / 10^scale` as a fraction of naturals. -/
def overPower (magnitude : Nat) (scale : Int) : Nat × Nat :=
  let (m, q) := decode magnitude
  let (n, d) := if 0 ≤ q then (m * Nat.pow 2 q.toNat, 1) else (m, Nat.pow 2 (-q).toNat)
  if 0 ≤ scale then (n, d * Nat.pow 10 scale.toNat) else (n * Nat.pow 10 (-scale).toNat, d)

/-- The decimal exponent of the leading digit of a positive fraction,
found by counting the digits of its integer part or the zeros after its
point. -/
def leadingExponent (magnitude : Nat) : Int :=
  let (n, d) := overPower magnitude 0
  let whole := n / d
  if whole ≠ 0 then (Nat.toDigits 10 whole).length - 1
  else
    let (n', d') := overPower magnitude (-330)
    (Nat.toDigits 10 (n' / d')).length - 1 - 330

/-- A positive decimal `digits · 10^exponent`. -/
structure Decimal where
  digits : Nat
  exponent : Int
deriving DecidableEq, Repr

/-- The neighbours of a number on the grid of multiples of `10^scale`,
the nearer first and, at equal distance, the one with the even digit. -/
def neighbours (magnitude : Nat) (scale : Int) : List Decimal :=
  let (n, d) := overPower magnitude scale
  let low := n / d
  let near := roundDiv n d
  let far := if near = low then low + 1 else low
  [⟨near, scale⟩, ⟨far, scale⟩]

/-- The magnitude nearest to `digits · 10^exponent`, unless it is infinite.
Exponents far outside the range are settled before any power is built. -/
def nearestToDecimal? (digits : Nat) (exponent : Int) : Option Nat :=
  if digits = 0 then some 0
  else
    let top : Int := (Nat.toDigits 10 digits).length + exponent
    if top < -400 then some 0
    else if 400 < top then none
    else
      let bits :=
        if 0 ≤ exponent then roundFraction (digits * Nat.pow 10 exponent.toNat) 1
        else roundFraction digits (Nat.pow 10 (-exponent).toNat)
      if bits < infinityBits then some bits else none

/-- The shortest decimal to which a positive magnitude is nearest, the
nearer first. Seventeen digits always suffice. -/
def shortest (magnitude : Nat) : Decimal :=
  let top := leadingExponent magnitude
  let candidates := (List.range 17).flatMap fun (k : Nat) => neighbours magnitude (top - (k : Int))
  (candidates.find? fun c =>
    c.digits ≠ 0 && nearestToDecimal? c.digits c.exponent == some magnitude).getD ⟨0, 0⟩

/-- The digits of a decimal without trailing zeros, with the exponent of
the first. -/
def Decimal.significant (c : Decimal) : List Char × Int :=
  let ds := Nat.toDigits 10 c.digits
  ((ds.reverse.dropWhile (· == '0')).reverse, c.exponent + ds.length - 1)

/-- Positional notation, always with a digit on each side of the point. -/
def positional (ds : List Char) (top : Int) : String :=
  if top < 0 then
    "0." ++ String.ofList (List.replicate ((-top).toNat - 1) '0' ++ ds)
  else
    let k := top.toNat + 1
    let whole := ds.take k ++ List.replicate (k - ds.length) '0'
    let fraction := if ds.length ≤ k then ['0'] else ds.drop k
    String.ofList whole ++ "." ++ String.ofList fraction

/-- Scientific notation: one digit before the point, no point after a
lone digit, and a sign on every exponent. -/
def scientific (ds : List Char) (top : Int) : String :=
  let mantissa := match ds with
    | [] => ""
    | [d] => String.ofList [d]
    | d :: rest => String.ofList (d :: '.' :: rest)
  mantissa ++ (if top < 0 then "e-" else "e+") ++ toString top.natAbs

/-- The text of a number: the shortest digits that tell it, positional
when the leading digit stands between the fifth decimal and 10^15. -/
def render (x : Binary64) : String :=
  let sign := if x.isNegative then "-" else ""
  if x.magnitude = 0 then sign ++ "0.0"
  else
    let (ds, top) := (shortest x.magnitude).significant
    sign ++ (if -5 ≤ top && top ≤ 15 then positional ds top else scientific ds top)

end Binary64

end TreeCheck
