/-
Reading a date: three fields between equal separators, hyphens or slashes. The
reader judges the whole text it is given and names the first thing wrong with it,
in a fixed order: fields, separators, widths, digits, month, day. Widths are counted
in bytes, and a field is read as a count, so a plus sign may fill a place in it.
-/

import LedgerLexer.Date

namespace LedgerLexer

inductive DateFault where
  | incomplete
  | tooManyFields
  | mixedSeparators
  | yearWidth
  | monthWidth
  | dayWidth
  | notDigits
  | monthRange (month : Nat)
  | dayRange
  deriving DecidableEq

def DateFault.message : DateFault → Text
  | incomplete => "incomplete date, expected year, month and day".toList
  | tooManyFields => "expected year, month and day".toList
  | mixedSeparators => "mixed date separators".toList
  | yearWidth => "year must have four digits".toList
  | monthWidth => "month must have two digits".toList
  | dayWidth => "day must have two digits".toList
  | notDigits => "invalid digit found in string".toList
  | monthRange month => "month must be in 1..12, got ".toList ++ numeral month
  | dayRange => "day is out of range for month".toList

def Date.ofCounts (year month day : Nat) : Except DateFault Date :=
  if IsMonth month then
    match Date.ofNumbers? year month day with
    | some date => .ok date
    | none => .error .dayRange
  else .error (.monthRange month)

def Date.ofFields (year month day : Text) : Except DateFault Date :=
  if byteLength year ≠ 4 then .error .yearWidth
  else if byteLength month ≠ 2 then .error .monthWidth
  else if byteLength day ≠ 2 then .error .dayWidth
  else
    match readCount? year, readCount? month, readCount? day with
    | some year, some month, some day => Date.ofCounts year month day
    | _, _, _ => .error .notDigits

def sameSeparators (text : Text) : Bool :=
  match text.filter isDateSeparator with
  | first :: second :: _ => first == second
  | _ => true

def Date.read (text : Text) : Except DateFault Date :=
  match text.splitOnP isDateSeparator with
  | [year, month, day] =>
      if month.isEmpty || day.isEmpty then .error .incomplete
      else if !sameSeparators text then .error .mixedSeparators
      else Date.ofFields year month day
  | _ :: _ :: _ :: _ :: _ => .error .tooManyFields
  | _ => .error .incomplete

end LedgerLexer
