/-
The shape that is chosen at the front of a text. It is the one whose pattern matches the
longest front, there is never a second one, and an unknown run is taken exactly when no
pattern matches any front. Where one shape begins like another the longer one follows
from this: dates against numbers, a comma behind digits, and doubled punctuation.
-/

import LedgerLexer.Piece
import LedgerLexer.Proofs.LongestMatch

namespace LedgerLexer

namespace Shape

private theorem takeWhile_digits_before (digits rest : Text) (char : Char)
    (accepted : digits.all Char.isDigit = true) (refused : char.isDigit = false) :
    (digits ++ char :: rest).takeWhile Char.isDigit = digits := by
  rw [takeWhile_append_of_all _ _ _ accepted,
    takeWhile_of_stop Char.isDigit (char :: rest) refused, List.append_nil]

theorem longest?_date (first second third fourth separator : Char) (rest : Text)
    (digits : [first, second, third, fourth].all Char.isDigit = true)
    (separates : isDateSeparator separator = true) :
    ∃ found, longest? (first :: second :: third :: fourth :: separator :: rest) = some found ∧
      found.shape = .date ∧ 5 ≤ found.text.length := by
  simp only [List.all_cons, List.all_nil, Bool.and_eq_true, Bool.and_true] at digits
  obtain ⟨firstDigit, secondDigit, thirdDigit, fourthDigit⟩ := digits
  have starts : startsWithDate (first :: second :: third :: fourth :: separator :: rest) = true := by
    simp only [startsWithDate, firstDigit, secondDigit, thirdDigit, fourthDigit, separates,
      Bool.and_self]
  refine ⟨dateAt (first :: second :: third :: fourth :: separator :: rest), ?_, rfl, ?_⟩
  · rw [longest?_digit first _ firstDigit, dateOrNumberAt, if_pos starts]
  · change 5 ≤ (List.take (5 + _) (first :: second :: third :: fourth :: separator :: rest)).length
    rw [Nat.add_comm]
    simp only [List.take_succ_cons, List.length_cons]
    omega

private theorem startsWithDate_comma (digits rest : Text)
    (accepted : digits.all Char.isDigit = true) :
    startsWithDate (digits ++ ',' :: rest) = false := by
  apply Bool.eq_false_iff.2
  intro starts
  obtain ⟨first, second, third, fourth, separator, later, whole, firstDigit, secondDigit,
    thirdDigit, fourthDigit, separates⟩ := startsWithDate_cases _ starts
  have year : [first, second, third, fourth].all Char.isDigit = true := by
    simp only [List.all_cons, List.all_nil, firstDigit, secondDigit, thirdDigit, fourthDigit,
      Bool.and_self]
  -- Both readings of the text agree on how many digits it begins with.
  have before := takeWhile_digits_before digits rest ',' accepted rfl
  rw [whole] at before
  have same : [first, second, third, fourth] = digits :=
    (takeWhile_digits_before [first, second, third, fourth] later separator year
      (isDigit_of_isDateSeparator separator separates)).symm.trans before
  subst same
  have behind : ',' :: rest = separator :: later := List.append_cancel_left whole
  have comma : ',' = separator := (List.cons.inj behind).1
  rw [← comma] at separates
  cases separates

private theorem longest?_digits_comma (digits rest : Text) (nonempty : digits ≠ [])
    (accepted : digits.all Char.isDigit = true) (noDigit : startsWith Char.isDigit rest = false) :
    longest? (digits ++ ',' :: rest) = some ⟨.number, digits, ',' :: rest⟩ := by
  have comma : integerPart (',' :: rest) = ([], ',' :: rest) := by
    rw [integerPart, noDigit, Bool.and_false, Bool.or_false]
    rfl
  have read : numberAt (digits ++ ',' :: rest) = ⟨.number, digits, ',' :: rest⟩ := by
    unfold numberAt
    rw [isAbsorbed_digits digits accepted, comma]
    simp only [List.append_nil]
    exact congrArg (Match.mk .number · _) (List.append_nil digits)
  have notDate := startsWithDate_comma digits rest accepted
  cases digits with
  | nil => exact absurd rfl nonempty
  | cons first others =>
      rw [List.all_cons, Bool.and_eq_true] at accepted
      rw [List.cons_append, longest?_digit first _ accepted.1, ← List.cons_append, dateOrNumberAt,
        notDate, if_neg Bool.false_ne_true, read]

example : longest? ['1', '0', ',', 'U', 'S', 'D'] = some ⟨.number, ['1', '0'], [',', 'U', 'S', 'D']⟩ :=
  rfl

private theorem longest?_doubled (mark : Mark) (rest : Text) (doubled : mark.text.length = 2) :
    longest? (mark.text ++ rest) = some ⟨.punctuation mark, mark.text, rest⟩ := by
  cases mark with
  | doubleAt => rfl
  | doubleOpenBrace => rfl
  | doubleCloseBrace => rfl
  | _ => cases doubled

/-- The match that a session goes by at any text that is left. It is the longest that the
patterns allow, its shape is the only one that matches its text, and a run is given up as
unknown exactly when no pattern matches a front of the text. -/
theorem choice_is_longest (lines : Nat) (first : Char) (others : Text) :
    let text := first :: others
    (∀ found, longest? text = some found ↔ IsLongest found text) ∧
    (longest? text = none ↔
      ∀ (shape : Shape) (front back : Text), front ++ back = text → ¬ shape.pattern.Matches front) ∧
    (∀ found, longest? text = some found →
      Cut.next? lines text = some (Cut.ofMatch lines first others found)) ∧
    (longest? text = none → Cut.next? lines text = some (Cut.unknownRun first others)) ∧
    (∀ (left right : Shape) (run : Text), left.pattern.Matches run → right.pattern.Matches run →
      run ≠ [] ∧ left = right) ∧
    (∀ second third fourth separator rest,
      others = second :: third :: fourth :: separator :: rest →
      [first, second, third, fourth].all Char.isDigit = true → isDateSeparator separator = true →
      ∃ found, longest? text = some found ∧ found.shape = .date ∧ 5 ≤ found.text.length) ∧
    (∀ digits rest, text = digits ++ ',' :: rest → digits ≠ [] → digits.all Char.isDigit = true →
      startsWith Char.isDigit rest = false →
      longest? text = some ⟨.number, digits, ',' :: rest⟩) ∧
    (∀ mark rest, text = mark.text ++ rest → mark.text.length = 2 →
      longest? text = some ⟨.punctuation mark, mark.text, rest⟩) := by
  intro text
  refine ⟨longest?_eq_some_iff text, longest?_eq_none_iff text, ?_, ?_, ?_, ?_, ?_, ?_⟩
  · intro found here
    rw [Cut.next?, here]
  · intro missing
    rw [Cut.next?, missing]
  · intro left right run leftMatched rightMatched
    exact ⟨matches_ne_nil left run leftMatched,
      shape_unique left right run leftMatched rightMatched⟩
  · intro second third fourth separator rest whole digits separates
    have date := longest?_date first second third fourth separator rest digits separates
    rw [← whole] at date
    exact date
  · intro digits rest whole nonempty accepted noDigit
    rw [whole]
    exact longest?_digits_comma digits rest nonempty accepted noDigit
  · intro mark rest whole doubled
    rw [whole]
    exact longest?_doubled mark rest doubled

end Shape

end LedgerLexer
