/-
Days of the Gregorian calendar, extended backwards to year 0, in years that four
digits can write. A date cannot be built outside the calendar. The printed form
has four, two and two digits with hyphens between; reading has its own module.
-/

import LedgerLexer.Numeral

namespace LedgerLexer

def IsLeapYear (year : Nat) : Prop :=
  year % 4 = 0 ∧ (year % 100 ≠ 0 ∨ year % 400 = 0)

instance (year : Nat) : Decidable (IsLeapYear year) :=
  inferInstanceAs (Decidable (_ ∧ _))

def daysInMonth (year month : Nat) : Nat :=
  match month with
  | 2 => if IsLeapYear year then 29 else 28
  | 4 | 6 | 9 | 11 => 30
  | _ => 31

def IsMonth (month : Nat) : Prop :=
  1 ≤ month ∧ month ≤ 12

instance (month : Nat) : Decidable (IsMonth month) :=
  inferInstanceAs (Decidable (_ ∧ _))

structure IsCalendarDay (year month day : Nat) : Prop where
  yearBound : year < 10000
  monthBound : IsMonth month
  dayPositive : 1 ≤ day
  dayBound : day ≤ daysInMonth year month

instance (year month day : Nat) : Decidable (IsCalendarDay year month day) :=
  decidable_of_iff (year < 10000 ∧ IsMonth month ∧ 1 ≤ day ∧ day ≤ daysInMonth year month)
    ⟨fun ⟨yearBound, monthBound, dayPositive, dayBound⟩ =>
      ⟨yearBound, monthBound, dayPositive, dayBound⟩,
     fun valid => ⟨valid.yearBound, valid.monthBound, valid.dayPositive, valid.dayBound⟩⟩

structure Date where
  year : Nat
  month : Nat
  day : Nat
  valid : IsCalendarDay year month day
  deriving DecidableEq

def Date.ofNumbers? (year month day : Nat) : Option Date :=
  if valid : IsCalendarDay year month day then some ⟨year, month, day, valid⟩ else none

def Date.text (date : Date) : Text :=
  paddedNumeral 4 date.year ++ '-' :: paddedNumeral 2 date.month ++
    '-' :: paddedNumeral 2 date.day

end LedgerLexer
