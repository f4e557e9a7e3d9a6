/-
Strings of digits: what numerals are made of, the numbers that strings of digits denote and
how large these are, and the reader for counts on them.
-/

import Mathlib.Algebra.Group.Nat.Defs
import LedgerLexer.Numeral
import LedgerLexer.Proofs.LongestMatch

namespace LedgerLexer

theorem numeral_isDigit (number : Nat) : (numeral number).all Char.isDigit = true := by
  rw [numeral, List.all_eq_true]
  intro char member
  exact Nat.isDigit_of_mem_toDigits (by decide) (by decide) member

theorem paddedNumeral_isDigit (width number : Nat) :
    (paddedNumeral width number).all Char.isDigit = true := by
  rw [paddedNumeral, List.leftpad, List.all_append, List.all_replicate, numeral_isDigit]
  simp

theorem digitsValue_paddedNumeral (width number : Nat) :
    digitsValue (paddedNumeral width number) = number := by
  rw [digitsValue, paddedNumeral, List.leftpad, Nat.ofDigitChars_append,
    Nat.ofDigitChars_replicate_zero, Nat.mul_zero]
  exact digitsValue_numeral number

theorem digitsValue_le_append (front back : Text) :
    digitsValue front ≤ digitsValue (front ++ back) := by
  have value : digitsValue (front ++ back) =
      10 ^ back.length * digitsValue front + digitsValue back := by
    unfold digitsValue
    rw [Nat.ofDigitChars_append, Nat.ofDigitChars_eq_ofDigitChars_zero]
  rw [value]
  exact Nat.le_add_right_of_le (Nat.le_mul_of_pos_left _ (Nat.pow_pos (Nat.succ_pos 9)))

theorem byteLength_of_digits (digits : Text) (accepted : digits.all Char.isDigit = true) :
    byteLength digits = digits.length := by
  induction digits with
  | nil => rfl
  | cons char rest ih =>
      rw [List.all_cons, Bool.and_eq_true] at accepted
      have oneByte : char.utf8Size = 1 :=
        Char.utf8Size_eq_one_iff.2
          (UInt32.le_trans (Shape.isDigit_bounds char accepted.1).2 (by decide))
      rw [byteLength, ih accepted.2, oneByte, List.length_cons, Nat.add_comm]

theorem digitsValue_lt (digits : Text) (accepted : digits.all Char.isDigit = true) :
    digitsValue digits < 10 ^ digits.length := by
  induction digits with
  | nil => decide
  | cons char rest ih =>
      rw [List.all_cons, Bool.and_eq_true] at accepted
      have restLess := ih accepted.2
      have atMostNine : char.toNat ≤ 57 :=
        UInt32.le_iff_toNat_le.1 (Shape.isDigit_bounds char accepted.1).2
      have value : digitsValue (char :: rest) =
          10 ^ rest.length * (char.toNat - '0'.toNat) + digitsValue rest := by
        unfold digitsValue
        rw [Nat.ofDigitChars_cons, Nat.ofDigitChars_eq_ofDigitChars_zero]
        simp
      have nine : char.toNat - '0'.toNat ≤ 9 := Nat.sub_le_of_le_add atMostNine
      rw [value, List.length_cons, Nat.pow_succ]
      calc 10 ^ rest.length * (char.toNat - '0'.toNat) + digitsValue rest
          < 10 ^ rest.length * (char.toNat - '0'.toNat) + 10 ^ rest.length :=
            Nat.add_lt_add_left restLess _
        _ ≤ 10 ^ rest.length * 9 + 10 ^ rest.length :=
            Nat.add_le_add_right (Nat.mul_le_mul_left _ nine) _
        _ = 10 ^ rest.length * 10 := (Nat.mul_succ _ 9).symm

private theorem withoutPlus_of_digits (digits : Text) (accepted : digits.all Char.isDigit = true) :
    withoutPlus digits = digits := by
  cases digits with
  | nil => rfl
  | cons char rest =>
      rw [List.all_cons, Bool.and_eq_true] at accepted
      unfold withoutPlus
      split
      · rename_i plus
        rw [(List.cons.inj plus).1] at accepted
        cases accepted.1
      · rfl

private theorem eq_withoutPlus_or_cons (text : Text) :
    text = withoutPlus text ∨ text = '+' :: withoutPlus text := by
  unfold withoutPlus
  split
  · exact Or.inr rfl
  · exact Or.inl rfl

theorem readCount?_eq_some_iff (text : Text) (number : Nat) :
    readCount? text = some number ↔ ∃ digits, (text = digits ∨ text = '+' :: digits) ∧
      digits ≠ [] ∧ digits.all Char.isDigit = true ∧ digitsValue digits = number := by
  constructor
  · intro read
    simp only [readCount?] at read
    split at read
    · cases read
    · rename_i usable
      simp only [Bool.or_eq_true, not_or, Bool.not_eq_true', Bool.not_eq_false,
        List.isEmpty_iff] at usable
      exact ⟨withoutPlus text, eq_withoutPlus_or_cons text, usable.1, usable.2,
        Option.some.inj read⟩
  · rintro ⟨digits, written, present, accepted, rfl⟩
    have bare : withoutPlus text = digits := by
      rcases written with rfl | rfl
      · exact withoutPlus_of_digits text accepted
      · rfl
    have visible : digits.isEmpty = false := by simpa using present
    rw [readCount?, bare, visible, accepted]
    rfl

end LedgerLexer
