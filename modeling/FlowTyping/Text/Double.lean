/-
FlowTyping.Text.Double — floating-point numbers as text.

A number is given by its 64 bits. It is written with the fewest digits that
read back, positionally if it is neither very large nor very small, and with a
decimal exponent otherwise.
-/
import FlowTyping.Text.Shortest

namespace FlowTyping.Text

/-- A number by its bits. -/
structure Double where
  bits : UInt64
deriving DecidableEq

namespace Double

/-- Whether the sign bit is set. -/
def isNegative (x : Double) : Bool := x.bits >>> 63 == 1

/-- The eleven bits of the exponent. -/
def exponentBits (x : Double) : Nat := (x.bits >>> 52).toNat % 0x800

/-- The fifty-two bits of the fraction. -/
def fraction (x : Double) : Nat := x.bits.toNat % 0x10000000000000

/-- The magnitude of a finite number. The smallest exponent has no implicit leading bit, and the
next one has neighbours at equal distances. -/
def magnitude (x : Double) : Binary :=
  if x.exponentBits = 0 then ⟨x.fraction, -1074, false⟩
  else
    { significand := 0x10000000000000 + x.fraction
      exponent := (x.exponentBits : Int) - 1075
      powerOfTwo := x.fraction == 0 && x.exponentBits > 1 }

end Double

/-- Numbers from a ten-thousandth up to ten thousand million million are written positionally;
`e` is the exponent of the first digit. -/
def positional (e : Int) : Bool := -4 ≤ e && e < 16

/-- A decimal as text, with a digit on either side of the point if it is positional, and with no
more digits than it has otherwise. -/
def Decimal.text (d : Decimal) : String :=
  let digits := Nat.toDigits 10 d.digits
  let point : Int := digits.length + d.exponent
  let e := point - 1
  if positional e then
    if point ≤ 0 then
      String.ofList ('0' :: '.' :: List.replicate (-point).toNat '0' ++ digits)
    else
      let whole := digits.take point.toNat ++ List.replicate (point.toNat - digits.length) '0'
      let rest := digits.drop point.toNat
      String.ofList (whole ++ '.' :: if rest.isEmpty then ['0'] else rest)
  else
    let rest := digits.drop 1
    String.ofList (digits.take 1 ++ (if rest.isEmpty then [] else '.' :: rest)) ++ "e" ++ toString e

/-- A number as text. A number that is none has no sign. -/
def Double.text (x : Double) : String :=
  if x.exponentBits = 2047 then
    if x.fraction ≠ 0 then "NaN" else if x.isNegative then "-inf" else "inf"
  else
    let magnitude :=
      if x.magnitude.significand = 0 then "0.0" else x.magnitude.shortest.text
    if x.isNegative then "-" ++ magnitude else magnitude

end FlowTyping.Text
