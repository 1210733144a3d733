import Reminders.Numeric.Binary

/-!
# Decimal numerals of floating-point numbers

A number is written with the fewest digits that read back as the same number; of the numerals with
so few digits the one nearest to the number is taken.
-/

namespace Reminders.Numeric

/-- Digits times a power of ten. -/
structure Decimal where
  digits : Nat
  exponent : Int
deriving DecidableEq

namespace Decimal

/-- A multiple of a power of a base, as a fraction. -/
def power (base multiple : Nat) (exponent : Int) : Nat × Nat :=
  if exponent ≥ 0 then (multiple * Nat.pow base exponent.toNat, 1)
  else (multiple, Nat.pow base (-exponent).toNat)

def le (a b : Nat × Nat) : Bool := decide (a.1 * b.2 ≤ b.1 * a.2)

def lt (a b : Nat × Nat) : Bool := decide (a.1 * b.2 < b.1 * a.2)

def digitCount (n : Nat) : Nat := (Nat.toDigits 10 n).length

/-- The least exponent of a power of ten that a positive fraction is less than. -/
def magnitude (num den : Nat) : Int :=
  if num ≥ den then digitCount (num / den) else 1 - Int.ofNat (digitCount ((den - 1) / num))

/-- The numerals with so many digits next to a number `4 * mantissa` at an exponent of two, of which
those count that round to it. -/
def withDigits? (mantissa : Nat) (exponent : Int) (count : Nat) : Option Decimal :=
  let value := power 2 (4 * mantissa) (exponent - 2)
  let below := if mantissa = Nat.pow 2 52 ∧ exponent > -1074 then 1 else 2
  let least := power 2 (4 * mantissa - below) (exponent - 2)
  let greatest := power 2 (4 * mantissa + 2) (exponent - 2)
  let reads (x : Nat × Nat) : Bool :=
    if mantissa % 2 = 0 then le least x && le x greatest else lt least x && lt x greatest
  let grid := magnitude value.1 value.2 - Int.ofNat count
  let unit := power 10 1 (-grid)
  let floor := value.1 * unit.1 / (value.2 * unit.2)
  let lower := power 10 floor grid
  let upper := power 10 (floor + 1) grid
  let upperIsNearer : Bool :=
    lt (upper.1 * value.2 * lower.2 + lower.1 * value.2 * upper.2, 1)
      (2 * value.1 * upper.2 * lower.2, 1)
  match reads lower, reads upper with
  | true, true => some ⟨if upperIsNearer then floor + 1 else floor, grid⟩
  | true, false => some ⟨floor, grid⟩
  | false, true => some ⟨floor + 1, grid⟩
  | false, false => none

/-- The shortest numeral of a positive number; seventeen digits are always enough. -/
def shortest (mantissa : Nat) (exponent : Int) : Decimal :=
  ((List.range 17).findSome? fun n => withDigits? mantissa exponent (n + 1)).getD ⟨0, 0⟩

/-- The numeral in positional notation, without zeros that are not needed. -/
def positional (d : Decimal) : String :=
  let digits := Nat.toDigits 10 d.digits
  let point : Int := digits.length + d.exponent
  let trimmed := (digits.reverse.dropWhile (· = '0')).reverse
  if point ≤ 0 then "0." ++ String.ofList (List.replicate (-point).toNat '0' ++ trimmed)
  else
    let whole := (trimmed.take point.toNat) ++ List.replicate (point.toNat - trimmed.length) '0'
    let rest := trimmed.drop point.toNat
    String.ofList (if rest.isEmpty then whole else whole ++ '.' :: rest)

/-- The number that a numeral stands for; numerals beyond every number give infinity. -/
def toFloat (d : Decimal) : Float :=
  let size : Int := digitCount d.digits + d.exponent
  if d.digits = 0 then Float.ofBits 0
  else if size > 400 then Float.ofBits 0x7ff0000000000000
  else if size < -400 then Float.ofBits 0
  else
    let (num, den) := power 10 d.digits d.exponent
    ofFraction num den

end Decimal

/-- A number in positional notation. -/
def text (x : Float) : String :=
  match decompose? x with
  | some (negative, mantissa, exponent) =>
    (if negative then "-" else "") ++
      (if mantissa = 0 then "0" else (Decimal.shortest mantissa exponent).positional)
  | none => if x.isNaN then "NaN" else if x < 0.0 then "-inf" else "inf"

end Reminders.Numeric
