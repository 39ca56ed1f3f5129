import DawScript.Decimal.Float

/-!
# Numbers as text

How numbers are written and read. A floating-point number is written with its shortest digits, and a
decimal with a fraction or an exponent is read as the floating-point number nearest to it.
-/

/-!
## Digits in other bases

Numbers in a base up to sixteen, with letters of either case for the digits from ten on.
-/

namespace DawScript.Radix

/-- The value of a digit up to fifteen. -/
def digitValue? (c : Char) : Option Nat :=
  if c.isDigit then some (c.toNat - '0'.toNat)
  else if 'a' ≤ c && c ≤ 'f' then some (c.toNat - 'a'.toNat + 10)
  else if 'A' ≤ c && c ≤ 'F' then some (c.toNat - 'A'.toNat + 10)
  else none

/-- The value of a digit of a base. -/
def digit? (base : Nat) (c : Char) : Option Nat := (digitValue? c).filter (· < base)

/-- The number that a nonempty run of digits stands for, the first the highest. -/
def number? (base : Nat) (digits : List Char) : Option Nat :=
  if digits.isEmpty then none
  else digits.foldlM (fun n c => (digit? base c).map (base * n + ·)) 0

end DawScript.Radix

/-!
## Layouts

A number is written plainly while the point stands near its digits and with an exponent beyond.
Three layouts are in use, one for values shown to the reader, one for JSON and one for YAML.
-/

namespace DawScript.Decimal

/-- What a layout decides. Numbers `0.d₁d₂… * 10 ^ point` are written plainly when `point` lies
between `leastPoint` and `mostPoint`. -/
structure Layout where
  tie : Tie
  leastPoint : Int
  mostPoint : Int
  plusExponent : Bool

/-- Values shown to the reader are plain from `0.0001` to below `10 ^ 16`. -/
def Layout.shown : Layout := ⟨.up, -3, 16, false⟩

/-- Numbers in JSON are plain from `0.00001` to below `10 ^ 16`, and an exponent has its sign. -/
def Layout.json : Layout := ⟨.even, -4, 16, true⟩

/-- Numbers in YAML are those of JSON but for the sign of a positive exponent. -/
def Layout.yaml : Layout := ⟨.even, -4, 16, false⟩

/-- Digits around a decimal point, with at least one digit on either side. -/
def plainText (digits : List Char) (point : Int) : List Char :=
  if point ≤ 0 then ['0', '.'] ++ List.replicate (-point).toNat '0' ++ digits
  else if (digits.length : Int) ≤ point then
    digits ++ List.replicate (point.toNat - digits.length) '0' ++ ['.', '0']
  else digits.take point.toNat ++ '.' :: digits.drop point.toNat

/-- One digit before the decimal point, the others after it, and the exponent. -/
def exponentText (plus : Bool) (digits : List Char) (point : Int) : List Char :=
  let exponent := point - 1
  let sign := if exponent < 0 then ['-'] else if plus then ['+'] else []
  let tail := 'e' :: sign ++ Nat.toDigits 10 exponent.natAbs
  match digits with
  | [] => tail
  | [d] => d :: tail
  | d :: ds => d :: '.' :: ds ++ tail

/-- A positive number in a layout. -/
def Layout.magnitude (layout : Layout) (b : Binary) : List Char :=
  let ⟨digits, point⟩ := b.shortest layout.tie
  if layout.leastPoint ≤ point && point ≤ layout.mostPoint then plainText digits point
  else exponentText layout.plusExponent digits point

/-- A finite number in a layout; zero keeps its sign. -/
def Layout.finite (layout : Layout) (x : Float) : String :=
  let bits := x.toBits.toNat
  let magnitude := bits % signBit
  let text := if magnitude = 0 then ['0', '.', '0'] else layout.magnitude (.ofBits magnitude)
  String.ofList (if signBit ≤ bits then '-' :: text else text)

/-- A number as it is shown to the reader, the infinities and NaN by name. -/
def shown (x : Float) : String :=
  if x.isNaN then "NaN"
  else if x.isInf then (if x < 0.0 then "-inf" else "inf")
  else Layout.shown.finite x

/-! ## Reading -/

/-- The value of a digit in the order of the code points from `'0'`. -/
def digitValue (c : Char) : Nat := c.toNat - '0'.toNat

/-- The number that decimal digits stand for, the first the highest. -/
def natOfDigits (digits : List Char) : Nat :=
  digits.foldl (fun n c => 10 * n + digitValue c) 0

/-- The floating-point number nearest to `mantissa * 10 ^ exponent`. What is at least `10 ^ 400` is
infinite and what is below `10 ^ -400` is zero, so the power of ten has to be taken only in
between. -/
def nearest (mantissa : Nat) (exponent : Int) : Float :=
  if mantissa = 0 || exponent + mantissa.log2 + 1 < -400 then 0.0
  else if 400 ≤ exponent then 1.0 / 0.0
  else
    let numerator := mantissa * Nat.pow 10 exponent.toNat
    let denominator := Nat.pow 10 (-exponent).toNat
    .ofBits (nearestBits numerator denominator).toUInt64

/-- A nonempty run of decimal digits as a number. -/
def natural? (digits : List Char) : Option Nat :=
  if !digits.isEmpty && digits.all Char.isDigit then some (natOfDigits digits) else none

/-- Splits a sign off: whether the number is negative, and what follows the sign. -/
def splitSign : List Char → Bool × List Char
  | '-' :: cs => (true, cs)
  | '+' :: cs => (false, cs)
  | cs => (false, cs)

/-- A number with an optional sign as an integer. -/
def integer? (cs : List Char) : Option Int :=
  let (negative, digits) := splitSign cs
  (natural? digits).map fun n => if negative then -(n : Int) else n

/-- The digits before and after a decimal point and the text after them. -/
def splitFraction (cs : List Char) : List Char × List Char × List Char :=
  let whole := cs.takeWhile Char.isDigit
  match cs.dropWhile Char.isDigit with
  | '.' :: rest => (whole, rest.takeWhile Char.isDigit, rest.dropWhile Char.isDigit)
  | rest => (whole, [], rest)

/-- The exponent that a text consists of: nothing, or a mark and an integer. -/
def exponent? : List Char → Option Int
  | [] => some 0
  | c :: cs => if c = 'e' || c = 'E' then integer? cs else none

/-- An unsigned decimal: digits with at most one point among or around them, and an optional
exponent. -/
def magnitude? (cs : List Char) : Option Float :=
  let (whole, fraction, rest) := splitFraction cs
  if whole.isEmpty && fraction.isEmpty then none
  else (exponent? rest).map fun e =>
    nearest (natOfDigits (whole ++ fraction)) (e - fraction.length)

/-- The names of the values that are not finite, in any case. -/
def named? (cs : List Char) : Option Float :=
  let name := cs.map Char.toLower
  if name = "inf".toList || name = "infinity".toList then some (1.0 / 0.0)
  else if name = "nan".toList then some (0.0 / 0.0)
  else none

/-- A floating-point number: an optional sign, then a decimal or the name of a value that is not
finite. -/
def float? (cs : List Char) : Option Float :=
  let (negative, unsigned) := splitSign cs
  let magnitude := (magnitude? unsigned).or (named? unsigned)
  magnitude.map fun x => if negative then -x else x

end DawScript.Decimal
