/-
Reading a decimal: one optional sign, an integer part that is plain or grouped by
commas in threes, and an optional point with fractional digits after it. A reading
is exact or refused: a number that the format cannot hold is never rounded. The
first fault in a fixed order is named: points, integer part, grouping, characters,
size.
-/

import LedgerLexer.Decimal

namespace LedgerLexer

inductive NumberFault where
  | manyPoints
  | missingWhole
  | badGrouping
  | strayCharacter
  | tooLarge
  | tooPrecise
  deriving DecidableEq

def NumberFault.message : NumberFault → Text
  | manyPoints => "more than one decimal point".toList
  | missingWhole => "missing integer part".toList
  | badGrouping => "digits must be grouped by three".toList
  | strayCharacter => "unexpected character".toList
  | tooLarge =>
      "cannot be represented exactly: Invalid decimal: overflow from too many digits".toList
  | tooPrecise =>
      "cannot be represented exactly: Number has a high precision that can not be represented."
        |>.toList

/-- The first group has one to three bytes, and every later one has three. -/
def groupedByThrees (whole : Text) : Bool :=
  match whole.splitOn ',' with
  | first :: others =>
      decide (1 ≤ byteLength first ∧ byteLength first ≤ 3) &&
        others.all (fun group => byteLength group == 3)
  | [] => false

def Decimal.ofDigits (negative : Bool) (whole fraction : Text) : Except NumberFault Decimal :=
  if coefficientBound ≤ digitsValue whole then .error .tooLarge
  else if fits : digitsValue (whole ++ fraction) < coefficientBound ∧
      fraction.length ≤ scaleBound then
    .ok ⟨negative, digitsValue (whole ++ fraction), fraction.length, fits.1, fits.2⟩
  else .error .tooPrecise

def Decimal.ofParts (negative : Bool) (whole fraction : Text) : Except NumberFault Decimal :=
  if fraction.contains '.' then .error .manyPoints
  else if whole.isEmpty then .error .missingWhole
  else if whole.contains ',' && !groupedByThrees whole then .error .badGrouping
  else if !(whole.all (fun char => char.isDigit || char == ',') && fraction.all Char.isDigit) then
    .error .strayCharacter
  else Decimal.ofDigits negative (whole.filter (· != ',')) fraction

def withoutSign : Text → Text
  | first :: rest => if isSign first then rest else first :: rest
  | [] => []

def beforePoint (text : Text) : Text :=
  text.takeWhile (· != '.')

/-- Empty both when there is no point and when nothing follows the point. -/
def afterPoint (text : Text) : Text :=
  (text.dropWhile (· != '.')).drop 1

def Decimal.read (text : Text) : Except NumberFault Decimal :=
  Decimal.ofParts (text.head? == some '-') (beforePoint (withoutSign text))
    (afterPoint (withoutSign text))

end LedgerLexer
