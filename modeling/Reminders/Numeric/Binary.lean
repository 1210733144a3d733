/-!
# Binary floating-point numbers

A finite number is a mantissa times a power of two.  Fractions are rounded to the nearest number,
the one with the even mantissa of two that are equally near.
-/

namespace Reminders.Numeric

/-- The sign, the mantissa and the exponent of two of a finite number. -/
def decompose? (x : Float) : Option (Bool × Nat × Int) :=
  let bits := x.toBits.toNat
  let sign := bits / Nat.pow 2 63 == 1
  let exponent : Nat := bits / Nat.pow 2 52 % Nat.pow 2 11
  let fraction : Nat := bits % Nat.pow 2 52
  if exponent = 2047 then none
  else if exponent = 0 then some (sign, fraction, -1074)
  else some (sign, fraction + Nat.pow 2 52, Int.ofNat exponent - 1075)

/-- The whole number nearest to a quotient, the even one of two that are equally near. -/
def roundQuotient (num den : Nat) : Nat :=
  let q := num / den
  let twice := 2 * (num % den)
  if twice > den || (twice == den && q % 2 == 1) then q + 1 else q

/-- A mantissa of at most 53 digits times a power of two that is at least the least one. -/
def compose (mantissa : Nat) (exponent : Int) : Float :=
  let (mantissa, exponent) :=
    if mantissa = Nat.pow 2 53 then (Nat.pow 2 52, exponent + 1) else (mantissa, exponent)
  let bits : Nat :=
    if exponent > 971 then 2047 * Nat.pow 2 52
    else if mantissa < Nat.pow 2 52 then mantissa
    else (exponent + 1075).toNat * Nat.pow 2 52 + (mantissa - Nat.pow 2 52)
  Float.ofBits bits.toUInt64

/-- The number nearest to a fraction. -/
def ofFraction (num den : Nat) : Float :=
  if num = 0 then Float.ofBits 0
  else
    let estimate : Int := Int.ofNat num.log2 - Int.ofNat den.log2 - 53
    let atScale (q : Int) : Nat × Nat :=
      if q ≥ 0 then (num, den * Nat.pow 2 q.toNat) else (num * Nat.pow 2 (-q).toNat, den)
    let whole (q : Int) : Nat := (atScale q).1 / (atScale q).2
    let exact := if whole estimate ≥ Nat.pow 2 53 then estimate + 1 else estimate
    let exponent := max exact (-1074)
    compose (roundQuotient (atScale exponent).1 (atScale exponent).2) exponent

end Reminders.Numeric
