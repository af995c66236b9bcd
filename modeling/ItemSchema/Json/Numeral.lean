import ItemSchema.Json.Value

/-! Numbers in JSON text, read digit by digit.

The significand keeps digits while it stays below 2^64. Further digits before the
point only count as a power of ten, and further digits after it are dropped. A
number that is too large for a 64-bit floating-point number is refused.
-/

set_option autoImplicit false

namespace ItemSchema.Json

structure Digits where
  negative : Bool
  significand : Nat := 0
  exponent : Int := 0
  -- whether a digit did not fit into the significand
  full : Bool := false
  deriving DecidableEq, Repr

namespace Digits

/-- Whether one more digit keeps the significand below 2^64. -/
def fits (digits : Digits) (digit : Nat) : Bool :=
  !digits.full && digits.significand * 10 + digit < Nat.pow 2 64

def pushWhole (digits : Digits) (digit : Nat) : Digits :=
  if digits.fits digit then { digits with significand := digits.significand * 10 + digit }
  else { digits with exponent := digits.exponent + 1, full := true }

def pushFraction (digits : Digits) (digit : Nat) : Digits :=
  if digits.fits digit then
    { digits with
      significand := digits.significand * 10 + digit
      exponent := digits.exponent - 1 }
  else { digits with full := true }

/-- A natural number rounded to 53 binary digits, a tie to the even neighbour. -/
def roundToDouble (n : Nat) : Nat :=
  if n < Nat.pow 2 53 then n
  else
    let unit := Nat.pow 2 (n.log2 - 52)
    let quotient := n / unit
    let remainder := n % unit
    if unit < 2 * remainder ∨ (unit = 2 * remainder ∧ quotient % 2 = 1) then (quotient + 1) * unit
    else quotient * unit

/-- The least natural number that rounds to infinity as a 64-bit floating-point number. -/
def infinityBound : Nat := Nat.pow 2 1024 - Nat.pow 2 970

/-- Whether a decimal is too large: the significand times the power of ten, both rounded first,
rounds to infinity. A power of ten above 10^308 is infinite by itself. -/
def overflows (significand : Nat) (exponent : Int) : Bool :=
  significand ≠ 0 && 0 ≤ exponent &&
    (308 < exponent ||
      infinityBound ≤ roundToDouble significand * roundToDouble (Nat.pow 10 exponent.toNat))

def toDecimal? (digits : Digits) : Option Json :=
  if overflows digits.significand digits.exponent then none
  else some (.decimal digits.negative digits.significand digits.exponent)

/-- A number without point and exponent. It is a plain integer if it fits into 64 bits,
signed when it is negative; a negative zero is not one. -/
def toWhole? (digits : Digits) : Option Json :=
  if digits.full then digits.toDecimal?
  else if !digits.negative then some (.integer digits.significand)
  else if digits.significand ≠ 0 ∧ digits.significand ≤ Nat.pow 2 63 then
    some (.integer (-digits.significand))
  else digits.toDecimal?

end Digits

/-- How much of a number has been read. -/
inductive Numeral where
  -- a minus sign; a digit must follow
  | sign
  -- a leading zero; no digit may follow
  | zero (negative : Bool)
  | whole (digits : Digits)
  -- a decimal point; a digit must follow
  | point (digits : Digits)
  | fraction (digits : Digits)
  -- the mark of an exponent; a sign or a digit must follow
  | exponentMark (digits : Digits)
  -- the sign of an exponent; a digit must follow
  | exponentSign (digits : Digits) (down : Bool)
  | exponent (digits : Digits) (down : Bool) (size : Nat)
  deriving DecidableEq, Repr

def digit? (byte : UInt8) : Option Nat :=
  if 0x30 ≤ byte ∧ byte ≤ 0x39 then some (byte.toNat - 0x30) else none

inductive Numeral.Step where
  | continues (next : Numeral)
  -- the number ended before the byte
  | ends (value : Json)
  | fails

namespace Numeral

/-- The value of a number that ends here, if it may end here. -/
def value? : Numeral → Option Json
  | .zero negative => ({ negative } : Digits).toWhole?
  | .whole digits => digits.toWhole?
  | .fraction digits => digits.toDecimal?
  | .exponent digits down size =>
      { digits with
        exponent := if down then digits.exponent - size else digits.exponent + size }.toDecimal?
  | .sign | .point _ | .exponentMark _ | .exponentSign _ _ => none

def finish (numeral : Numeral) : Step :=
  match numeral.value? with
  | some value => .ends value
  | none => .fails

def start (negative : Bool) (digit : Nat) : Numeral :=
  if digit = 0 then .zero negative else .whole (({ negative } : Digits).pushWhole digit)

/-- One more digit of an exponent. An exponent beyond 31 bits is refused at once if it makes
the number large. -/
def pushExponent (digits : Digits) (down : Bool) (size : Nat) : Step :=
  if Nat.pow 2 31 ≤ size ∧ digits.significand ≠ 0 ∧ !down then .fails
  else .continues (.exponent digits down size)

def afterWhole (numeral : Numeral) (digits : Digits) (byte : UInt8) : Step :=
  -- a point, or the letter of an exponent in either case
  if byte = 0x2E then .continues (.point { digits with full := false })
  else if byte = 0x65 ∨ byte = 0x45 then .continues (.exponentMark digits)
  else numeral.finish

def step (numeral : Numeral) (byte : UInt8) : Step :=
  match numeral, digit? byte with
  | .sign, some digit => .continues (start true digit)
  | .zero _, some _ => .fails
  | .zero negative, none => numeral.afterWhole { negative } byte
  | .whole digits, some digit => .continues (.whole (digits.pushWhole digit))
  | .whole digits, none => numeral.afterWhole digits byte
  | .point digits, some digit => .continues (.fraction (digits.pushFraction digit))
  | .fraction digits, some digit => .continues (.fraction (digits.pushFraction digit))
  | .fraction digits, none =>
      if byte = 0x65 ∨ byte = 0x45 then .continues (.exponentMark digits) else numeral.finish
  | .exponentMark digits, some digit => pushExponent digits false digit
  | .exponentMark digits, none =>
      -- a plus or a minus sign
      if byte = 0x2B then .continues (.exponentSign digits false)
      else if byte = 0x2D then .continues (.exponentSign digits true)
      else .fails
  | .exponentSign digits down, some digit => pushExponent digits down digit
  | .exponent digits down size, some digit => pushExponent digits down (size * 10 + digit)
  | .exponent _ _ _, none => numeral.finish
  | .sign, none | .point _, none | .exponentSign _ _, none => .fails

end Numeral

end ItemSchema.Json
