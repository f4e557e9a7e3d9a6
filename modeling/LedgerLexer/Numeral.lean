/-
Strings of decimal digits: the number that one denotes, the numeral of a number,
and the reader for counts as they are given in settings and date fields. A count
has at least one digit, and one plus sign may stand before it.
-/

import LedgerLexer.Text

namespace LedgerLexer

def digitsValue (digits : Text) : Nat :=
  Nat.ofDigitChars 10 digits 0

def numeral (number : Nat) : Text :=
  Nat.toDigits 10 number

def paddedNumeral (width number : Nat) : Text :=
  (numeral number).leftpad width '0'

theorem digitsValue_numeral (number : Nat) : digitsValue (numeral number) = number :=
  Nat.ofDigitChars_ten_toDigits

def withoutPlus : Text → Text
  | '+' :: rest => rest
  | text => text

def readCount? (text : Text) : Option Nat :=
  let digits := withoutPlus text
  if digits.isEmpty || !digits.all Char.isDigit then none
  else some (digitsValue digits)

/-- Two to the power 64: sizes are held in 64 bits, and a larger one is refused. -/
def sizeBound : Nat := 18446744073709551616

def readSize? (text : Text) : Option Nat :=
  (readCount? text).filter (· < sizeBound)

end LedgerLexer
