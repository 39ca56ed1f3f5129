/-!
# Floating-point numbers and decimals

What the sixty-four bits of a floating-point number stand for, the number nearest to a fraction, and
the shortest decimal of a number. Everything is decided in exact arithmetic on naturals.
-/

namespace DawScript.Decimal

/-!
## Binary numbers

Above fifty-two bits of a fraction stand eleven of an exponent and one of a sign. The numbers with
the least exponent are the multiples of `2 ^ -1074` themselves; all others have a leading one that
is not written.
-/

/-- The leading one that is not written, which is also the place of the exponent: `2 ^ 52`. -/
def leadingOne : Nat := 0x10000000000000

/-- The bit of the sign: `2 ^ 63`. -/
def signBit : Nat := 0x8000000000000000

/-- The bits of positive infinity, which stand above those of all positive finite numbers. -/
def infinityBits : Nat := 0x7ff0000000000000

/-- The positive number `mantissa * 2 ^ exponent`, with `halved` set where the next smaller number
lies only half as far away as the next larger one. -/
structure Binary where
  mantissa : Nat
  exponent : Int
  halved : Bool

/-- The number that the bits of a finite number stand for, without its sign. -/
def Binary.ofBits (bits : Nat) : Binary :=
  let exponent : Nat := bits / leadingOne % 2048
  let fraction : Nat := bits % leadingOne
  if exponent = 0 then ⟨fraction, -1074, false⟩
  else ⟨fraction + leadingOne, (exponent : Int) - 1075, fraction = 0 && 1 < exponent⟩

/-!
## The nearest number

A positive fraction is rounded to a whole number of units in the last binary place that it can have,
a half to the even neighbour, and the count of units with the place next to it are the bits of the
number.
-/

/-- A quotient rounded to the nearest natural number, a half to the even neighbour. -/
def roundEven (num den : Nat) : Nat :=
  let below := num / den
  let rest := num % den
  if 2 * rest < den then below
  else if den < 2 * rest then below + 1
  else below + below % 2

/-- The place of the leading binary digit of a positive fraction: the `p` with
`2 ^ p ≤ num / den < 2 ^ (p + 1)`. -/
def leadingBit (num den : Nat) : Int :=
  let p : Int := (num.log2 : Int) - den.log2
  if num * Nat.pow 2 (-p).toNat < den * Nat.pow 2 p.toNat then p - 1 else p

/-- The bits of the number nearest to a positive fraction. Its last place is that of the fifty-third
binary digit, but never below `2 ^ -1074`. The implicit leading one of the mantissa makes up for the
exponents being counted from one, and a mantissa rounded up to a power of two carries into the
exponent. -/
def nearestBits (num den : Nat) : Nat :=
  let place := (leadingBit num den + 1022).toNat
  let mantissa := roundEven (num * Nat.pow 2 (1074 - place)) (den * Nat.pow 2 (place - 1074))
  min (place * leadingOne + mantissa) infinityBits

/-- A whole quotient is its own rounding. -/
@[simp] theorem roundEven_mul (n : Nat) {den : Nat} (h : 0 < den) :
    roundEven (n * den) den = n := by
  simp [roundEven, Nat.mul_div_cancel n h, h]

/-!
## The shortest decimal

A finite positive number stands for all the reals that round to it. Among the decimals in that
interval the shortest one is written: the fewest digits, and of several with as few digits the
nearest to the number.
-/

/-- Which of two decimals equally near to a number is taken: the larger one, or the one whose last
digit is even. -/
inductive Tie where
  | up
  | even

/-- A number and the interval that rounds to it as multiples of a grid `10 ^ k`: the number is
`value / unit`, the interval runs from `low / unit` to `high / unit` and holds its ends if
`closed`. -/
structure Scaled where
  value : Nat
  low : Nat
  high : Nat
  unit : Nat
  closed : Bool

/-- A number on the grid `10 ^ k`, in quarters of its last binary place. -/
def Binary.scale (b : Binary) (k : Int) : Scaled :=
  let up := Nat.pow 2 (b.exponent - 2).toNat * Nat.pow 10 (-k).toNat
  { value := 4 * b.mantissa * up
    low := (4 * b.mantissa - if b.halved then 1 else 2) * up
    high := (4 * b.mantissa + 2) * up
    unit := Nat.pow 2 (2 - b.exponent).toNat * Nat.pow 10 k.toNat
    closed := b.mantissa % 2 = 0 }

/-- Whether the grid point `d` lies in the interval. -/
def Scaled.holds (s : Scaled) (d : Nat) : Bool :=
  (s.low < d * s.unit && d * s.unit < s.high) ||
    (s.closed && (d * s.unit = s.low || d * s.unit = s.high))

/-- Of the grid points on both sides of the number, the nearer one that lies in the interval. -/
def Scaled.nearest? (s : Scaled) (tie : Tie) : Option Nat :=
  let below := s.value / s.unit
  let toBelow := s.value - below * s.unit
  let toAbove := (below + 1) * s.unit - s.value
  match s.holds below, s.holds (below + 1) with
  | true, true =>
    if toBelow < toAbove then some below
    else if toAbove < toBelow then some (below + 1)
    else match tie with
      | .up => some (below + 1)
      | .even => some (if below % 2 = 0 then below else below + 1)
  | true, false => some below
  | false, true => some (below + 1)
  | false, false => none

/-- The place of the leading decimal digit: the `p` with `10 ^ p ≤ b < 10 ^ (p + 1)`. -/
def Binary.leadingPlace (b : Binary) : Int :=
  let s := b.scale 0
  if s.unit ≤ s.value then ((Nat.toDigits 10 (s.value / s.unit)).length : Int) - 1
  else -((Nat.toDigits 10 (s.unit / s.value)).length : Int)

/-- The first grid from `10 ^ k` on downwards with a point in the interval, and that point. -/
def Binary.search (b : Binary) (tie : Tie) : Nat → Int → Nat × Int
  | 0, k => let s := b.scale k; (s.value / s.unit, k)
  | grids + 1, k =>
    match (b.scale k).nearest? tie with
    | some d => (d, k)
    | none => b.search tie grids (k - 1)

/-- The digits `d₁ d₂ …` of the number `0.d₁d₂… * 10 ^ point`. -/
structure Digits where
  digits : List Char
  point : Int

/-- The shortest decimal of a positive number. Seventeen digits always suffice. -/
def Binary.shortest (b : Binary) (tie : Tie) : Digits :=
  let (d, k) := b.search tie 17 b.leadingPlace
  let written := Nat.toDigits 10 d
  ⟨(written.reverse.dropWhile (· == '0')).reverse, (written.length : Int) + k⟩

end DawScript.Decimal
