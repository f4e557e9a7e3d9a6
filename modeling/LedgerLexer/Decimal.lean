/-
Exact decimals: a sign, a coefficient of at most 96 bits, and a scale of at most
28 fractional digits. Zero keeps its sign and trailing zeros keep their places, so
two decimals of one numeric value can differ. The grouped form writes the integer
part with a comma before every third digit from the right.
-/

import LedgerLexer.Numeral

namespace LedgerLexer

/-- Two to the power 96. -/
def coefficientBound : Nat := 79228162514264337593543950336

def scaleBound : Nat := 28

structure Decimal where
  negative : Bool
  coefficient : Nat
  scale : Nat
  coefficient_lt : coefficient < coefficientBound
  scale_le : scale ≤ scaleBound
  deriving DecidableEq

/-- All digits of the coefficient, at least one of them before the point. -/
def Decimal.digits (number : Decimal) : Text :=
  paddedNumeral (number.scale + 1) number.coefficient

def Decimal.wholeDigits (number : Decimal) : Text :=
  number.digits.take (number.digits.length - number.scale)

def Decimal.fractionDigits (number : Decimal) : Text :=
  number.digits.drop (number.digits.length - number.scale)

def minusSign (negative : Bool) : Text :=
  if negative then ['-'] else []

def Decimal.fractionText (number : Decimal) : Text :=
  if number.scale = 0 then [] else '.' :: number.fractionDigits

def Decimal.text (number : Decimal) : Text :=
  minusSign number.negative ++ number.wholeDigits ++ number.fractionText

def groupDigits : Text → Text
  | [] => []
  | digit :: rest =>
      if rest.length % 3 = 0 && !rest.isEmpty then digit :: ',' :: groupDigits rest
      else digit :: groupDigits rest

def Decimal.groupedText (number : Decimal) : Text :=
  minusSign number.negative ++ groupDigits number.wholeDigits ++ number.fractionText

/-- The coefficient with its sign, as an integer: the sign of a zero is lost. -/
def Decimal.signedCoefficient (number : Decimal) : Int :=
  if number.negative then -(number.coefficient : Int) else number.coefficient

end LedgerLexer
