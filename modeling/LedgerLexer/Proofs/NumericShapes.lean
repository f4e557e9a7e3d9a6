/-
The shapes that begin with digits, a sign or a point: numbers, fractions and dates.
Each hand-written reader takes a text that its pattern matches, and wherever the
pattern matches the front of a text, the reader takes at least that front.
-/

import LedgerLexer.Shape.Longest
import LedgerLexer.Proofs.Pattern

namespace LedgerLexer

namespace Shape

open Pattern

theorem startsWith_append (accepts : Char → Bool) (front back : Text) (nonempty : front ≠ []) :
    startsWith accepts (front ++ back) = startsWith accepts front := by
  cases front with
  | nil => exact absurd rfl nonempty
  | cons char rest => rfl

theorem startsWith_of_all (accepts : Char → Bool) (text : Text) (nonempty : text ≠ [])
    (accepted : text.all accepts = true) : startsWith accepts text = true := by
  cases text with
  | nil => exact absurd rfl nonempty
  | cons char rest =>
      rw [List.all_cons, Bool.and_eq_true] at accepted
      exact accepted.1

theorem takeWhile_append_of_all (accepts : Char → Bool) (front back : Text)
    (accepted : front.all accepts = true) :
    (front ++ back).takeWhile accepts = front ++ back.takeWhile accepts :=
  List.takeWhile_append_of_pos (List.all_eq_true.1 accepted)

theorem dropWhile_append_of_all (accepts : Char → Bool) (front back : Text)
    (accepted : front.all accepts = true) :
    (front ++ back).dropWhile accepts = back.dropWhile accepts :=
  List.dropWhile_append_of_pos (List.all_eq_true.1 accepted)

theorem takeWhile_of_stop (accepts : Char → Bool) (text : Text)
    (stops : text.head?.any accepts = false) : text.takeWhile accepts = [] := by
  cases text with
  | nil => rfl
  | cons char rest => exact List.takeWhile_cons_of_neg (Bool.eq_false_iff.1 stops)

theorem dropWhile_of_stop (accepts : Char → Bool) (text : Text)
    (stops : text.head?.any accepts = false) : text.dropWhile accepts = text := by
  cases text with
  | nil => rfl
  | cons char rest => exact List.dropWhile_cons_of_neg (Bool.eq_false_iff.1 stops)

def commaGroup : Pattern :=
  sequence (char ',') (some digit)

def pointGroup : Pattern :=
  sequence (char '.') (many digit)

def unsignedNumber : Pattern :=
  sequence (some digit) (sequence (many commaGroup) (many pointGroup))

/-- The reader of integer parts takes all of the text, whatever stands behind it. -/
def IsAbsorbed (front : Text) : Prop :=
  ∀ back, integerPart (front ++ back) = (front ++ (integerPart back).1, (integerPart back).2)

theorem IsAbsorbed.append {front later : Text} (frontAbsorbed : IsAbsorbed front)
    (laterAbsorbed : IsAbsorbed later) : IsAbsorbed (front ++ later) := by
  intro back
  rw [List.append_assoc, frontAbsorbed, laterAbsorbed, List.append_assoc]

private theorem isAbsorbed_nil : IsAbsorbed [] :=
  fun _ => rfl

theorem isAbsorbed_digits (digits : Text) (accepted : digits.all Char.isDigit = true) :
    IsAbsorbed digits := by
  induction digits with
  | nil => exact isAbsorbed_nil
  | cons char rest ih =>
      rw [List.all_cons, Bool.and_eq_true] at accepted
      intro back
      rw [List.cons_append, integerPart, accepted.1, Bool.true_or, if_pos rfl, ih accepted.2]
      rfl

private theorem isAbsorbed_commaGroup (group : Text) (matched : Matches commaGroup group) :
    IsAbsorbed group := by
  obtain ⟨digits, rfl, digitsMatched⟩ := (matches_char_sequence_iff _ _ _).1 matched
  obtain ⟨nonempty, accepted⟩ := (matches_some_oneOf_iff _ _).1 digitsMatched
  intro back
  have follows : startsWith Char.isDigit (digits ++ back) = true := by
    rw [startsWith_append _ _ _ nonempty, startsWith_of_all _ _ nonempty accepted]
  rw [List.cons_append, integerPart, follows, isAbsorbed_digits digits accepted]
  rfl

private theorem isAbsorbed_commaGroups (groups : Text)
    (matched : Matches (many commaGroup) groups) : IsAbsorbed groups :=
  many_induction isAbsorbed_nil
    (fun group _ groupMatched _ laterAbsorbed =>
      (isAbsorbed_commaGroup group groupMatched).append laterAbsorbed) matched

private theorem integerPart_matches (text : Text) :
    ∃ digits groups, (integerPart text).1 = digits ++ groups ∧ digits.all Char.isDigit = true ∧
      Matches (many commaGroup) groups ∧
      (startsWith Char.isDigit text = true → digits ≠ []) := by
  induction text with
  | nil => exact ⟨[], [], rfl, rfl, .none, fun starts => nomatch starts⟩
  | cons char rest ih =>
      obtain ⟨digits, groups, whole, accepted, groupsMatched, starts⟩ := ih
      by_cases isDigit : char.isDigit = true
      · refine ⟨char :: digits, groups, ?_, ?_, groupsMatched, fun _ => List.cons_ne_nil _ _⟩
        · rw [integerPart, isDigit, Bool.true_or, if_pos rfl]
          exact congrArg (char :: ·) whole
        · rw [List.all_cons, isDigit, accepted, Bool.and_self]
      · have refused : startsWith Char.isDigit (char :: rest) ≠ true := isDigit
        refine ⟨[], (integerPart (char :: rest)).1, rfl, rfl, ?_, fun found => absurd found refused⟩
        rw [integerPart, Bool.eq_false_iff.2 isDigit, Bool.false_or]
        split
        · rename_i comma
          rw [Bool.and_eq_true] at comma
          have itemMatched : Matches commaGroup (char :: digits) := by
            rw [eq_of_beq comma.1]
            exact (matches_char_sequence_iff _ _ _).2
              ⟨digits, rfl, (matches_some_oneOf_iff _ _).2 ⟨starts comma.2, accepted⟩⟩
          change Matches (many commaGroup) (char :: (integerPart rest).1)
          rw [whole]
          exact .more itemMatched groupsMatched
        · exact .none

private theorem integerPart_rest (text : Text) :
    startsWith Char.isDigit (integerPart text).2 = false := by
  induction text with
  | nil => rfl
  | cons char rest ih =>
      rw [integerPart]
      split
      · exact ih
      · rename_i refused
        rw [Bool.or_eq_true, not_or] at refused
        exact Bool.eq_false_iff.2 refused.1

private theorem points_of_pointGroups (points : Text) (matched : Matches (many pointGroup) points) :
    points = [] ∨ ∃ rest, points = '.' :: rest ∧ rest.all isPointOrDigit = true := by
  refine many_induction (motive := fun points =>
    points = [] ∨ ∃ rest, points = '.' :: rest ∧ rest.all isPointOrDigit = true)
    (Or.inl rfl) ?_ matched
  intro group later groupMatched _ laterForm
  obtain ⟨digits, rfl, digitsMatched⟩ := (matches_char_sequence_iff _ _ _).1 groupMatched
  have accepted := (matches_many_oneOf_iff _ _).1 digitsMatched
  have digitsPart : digits.all isPointOrDigit = true := by
    rw [List.all_eq_true] at accepted ⊢
    intro char member
    rw [isPointOrDigit, accepted char member, Bool.or_true]
  refine Or.inr ⟨digits ++ later, rfl, ?_⟩
  rw [List.all_append, digitsPart, Bool.true_and]
  rcases laterForm with rfl | ⟨rest, rfl, restPart⟩
  · rfl
  · rw [List.all_cons, restPart]
    rfl

private theorem pointGroups_of_all (text : Text) (accepted : text.all isPointOrDigit = true) :
    ∃ digits points, text = digits ++ points ∧ digits.all Char.isDigit = true ∧
      Matches (many pointGroup) points ∧
      (startsWith Char.isDigit text = false → digits = []) := by
  induction text with
  | nil => exact ⟨[], [], rfl, rfl, .none, fun _ => rfl⟩
  | cons char rest ih =>
      rw [List.all_cons, Bool.and_eq_true] at accepted
      obtain ⟨digits, points, rfl, digitsAccepted, pointsMatched, _⟩ := ih accepted.2
      by_cases isDigit : char.isDigit = true
      · refine ⟨char :: digits, points, rfl, ?_, pointsMatched, ?_⟩
        · rw [List.all_cons, isDigit, digitsAccepted, Bool.and_self]
        · intro refused
          exact absurd isDigit (Bool.eq_false_iff.1 refused)
      · have point : char = '.' := by
          have either := accepted.1
          rw [isPointOrDigit, Bool.eq_false_iff.2 isDigit, Bool.or_false] at either
          exact eq_of_beq either
        subst point
        refine ⟨[], '.' :: digits ++ points, rfl, rfl, ?_, fun _ => rfl⟩
        exact .more ((matches_char_sequence_iff _ _ _).2
          ⟨digits, rfl, (matches_many_oneOf_iff _ _).2 digitsAccepted⟩) pointsMatched

theorem numberAt_matches (text : Text) (starts : startsWith Char.isDigit text = true) :
    Matches unsignedNumber (numberAt text).text := by
  obtain ⟨digits, groups, whole, accepted, groupsMatched, nonempty⟩ := integerPart_matches text
  have tailAccepted : ((integerPart text).2.takeWhile isPointOrDigit).all isPointOrDigit = true :=
    List.all_takeWhile
  obtain ⟨later, points, tailForm, _, pointsMatched, noDigits⟩ := pointGroups_of_all _ tailAccepted
  have noLater : later = [] := by
    apply noDigits
    have stopped := integerPart_rest text
    cases left : (integerPart text).2 with
    | nil => rfl
    | cons char rest =>
        rw [left] at stopped
        rw [List.takeWhile_cons]
        split
        · exact stopped
        · rfl
  subst noLater
  change Matches unsignedNumber
    ((integerPart text).1 ++ (integerPart text).2.takeWhile isPointOrDigit)
  rw [whole, tailForm, List.append_assoc]
  exact .sequence ((matches_some_oneOf_iff _ _).2 ⟨nonempty starts, accepted⟩)
    (.sequence groupsMatched pointsMatched)

theorem numberAt_covers (front back : Text) (matched : Matches unsignedNumber front) :
    ∃ more, (numberAt (front ++ back)).text = front ++ more := by
  obtain ⟨digits, later, rfl, digitsMatched, laterMatched⟩ :=
    (matches_sequence_iff _ _ _).1 matched
  obtain ⟨groups, points, rfl, groupsMatched, pointsMatched⟩ :=
    (matches_sequence_iff _ _ _).1 laterMatched
  have absorbed : IsAbsorbed (digits ++ groups) :=
    (isAbsorbed_digits digits ((matches_some_oneOf_iff _ _).1 digitsMatched).2).append
      (isAbsorbed_commaGroups groups groupsMatched)
  have regrouped : digits ++ (groups ++ points) ++ back = digits ++ groups ++ (points ++ back) := by
    simp only [List.append_assoc]
  rw [regrouped]
  unfold numberAt
  simp only [absorbed (points ++ back)]
  rcases points_of_pointGroups points pointsMatched with rfl | ⟨rest, rfl, accepted⟩
  · exact ⟨(integerPart back).1 ++ (integerPart back).2.takeWhile isPointOrDigit, by
      simp only [List.append_nil, List.nil_append, List.append_assoc]⟩
  · have stopped : integerPart ('.' :: rest ++ back) = ([], '.' :: rest ++ back) := rfl
    have taken : ('.' :: rest).all isPointOrDigit = true := by
      rw [List.all_cons, accepted]
      rfl
    rw [stopped]
    exact ⟨back.takeWhile isPointOrDigit, by
      simp only [List.append_nil, takeWhile_append_of_all _ _ _ taken, List.append_assoc]⟩

theorem unsignedNumber_starts (text : Text) (matched : Matches unsignedNumber text) :
    startsWith Char.isDigit text = true := by
  obtain ⟨digits, later, rfl, digitsMatched, _⟩ := (matches_sequence_iff _ _ _).1 matched
  obtain ⟨nonempty, accepted⟩ := (matches_some_oneOf_iff _ _).1 digitsMatched
  rw [startsWith_append _ _ _ nonempty, startsWith_of_all _ _ nonempty accepted]

theorem fractionAt_matches (rest : Text) (found : Match) (here : fractionAt rest = Option.some found) :
    found.shape = .fraction ∧ Matches (sequence (char '.') (some digit)) found.text := by
  unfold fractionAt at here
  split at here
  · rename_i starts
    cases here
    refine ⟨rfl, (matches_char_sequence_iff _ _ _).2 ⟨rest.takeWhile Char.isDigit, rfl, ?_⟩⟩
    refine (matches_some_oneOf_iff _ _).2 ⟨?_, List.all_takeWhile⟩
    cases rest with
    | nil => cases starts
    | cons char others =>
        have isDigit : char.isDigit = true := starts
        rw [List.takeWhile_cons_of_pos isDigit]
        exact List.cons_ne_nil _ _
  · cases here

theorem fractionAt_covers (digits back : Text) (matched : Matches (some digit) digits) :
    fractionAt (digits ++ back) =
      Option.some ⟨.fraction, '.' :: digits ++ back.takeWhile Char.isDigit,
        back.dropWhile Char.isDigit⟩ := by
  obtain ⟨nonempty, accepted⟩ := (matches_some_oneOf_iff _ _).1 matched
  unfold fractionAt stretch
  rw [startsWith_append _ _ _ nonempty, startsWith_of_all _ _ nonempty accepted, if_pos rfl,
    takeWhile_append_of_all _ _ _ accepted, dropWhile_append_of_all _ _ _ accepted,
    List.cons_append]

/-! ### Dates -/

def monthDay : Pattern :=
  optional (sequence (some digit) (optional (sequence dateSeparator (many digit))))

theorem monthDay_cases (text : Text) (matched : Matches monthDay text) :
    text = [] ∨ ∃ month tail, text = month ++ tail ∧ month ≠ [] ∧ month.all Char.isDigit = true ∧
      (tail = [] ∨ ∃ separator day, tail = separator :: day ∧
        isDateSeparator separator = true ∧ day.all Char.isDigit = true) := by
  rcases (matches_optional_iff _ _).1 matched with empty | present
  · exact Or.inl empty
  · obtain ⟨month, tail, whole, monthMatched, tailMatched⟩ := (matches_sequence_iff _ _ _).1 present
    obtain ⟨nonempty, accepted⟩ := (matches_some_oneOf_iff _ _).1 monthMatched
    refine Or.inr ⟨month, tail, whole, nonempty, accepted, ?_⟩
    rcases (matches_optional_iff _ _).1 tailMatched with noDay | withDay
    · exact Or.inl noDay
    · obtain ⟨separator, day, parts, isSeparator, dayMatched⟩ :=
        (matches_oneOf_sequence_iff _ _ _).1 withDay
      exact Or.inr ⟨separator, day, parts, isSeparator, (matches_many_oneOf_iff _ _).1 dayMatched⟩

theorem isDigit_of_isDateSeparator (char : Char) (separates : isDateSeparator char = true) :
    char.isDigit = false := by
  unfold isDateSeparator at separates
  rw [Bool.or_eq_true, beq_iff_eq, beq_iff_eq] at separates
  rcases separates with hyphen | slash
  · rw [hyphen]
    rfl
  · rw [slash]
    rfl

private theorem monthDayLength_covers (front back : Text) (matched : Matches monthDay front) :
    front.length ≤ monthDayLength (front ++ back) := by
  rcases monthDay_cases front matched with rfl | ⟨month, tail, rfl, nonempty, accepted, tailForm⟩
  · exact Nat.zero_le _
  · unfold monthDayLength
    rw [List.append_assoc, takeWhile_append_of_all _ _ _ accepted,
      dropWhile_append_of_all _ _ _ accepted]
    rcases tailForm with rfl | ⟨separator, day, rfl, separates, dayAccepted⟩
    · have atLeast : month.length ≤ (month ++ (List.takeWhile Char.isDigit back)).length := by
        rw [List.length_append]
        exact Nat.le_add_right _ _
      rw [List.append_nil, List.nil_append]
      dsimp only
      split
      · split
        · omega
        · exact atLeast
      · exact atLeast
    · have refused := isDigit_of_isDateSeparator separator separates
      have stops : ¬ separator.isDigit = true := Bool.eq_false_iff.1 refused
      have notEmpty : month.isEmpty = false := by
        cases month with
        | nil => exact absurd rfl nonempty
        | cons char rest => rfl
      rw [List.cons_append, List.takeWhile_cons_of_neg stops, List.dropWhile_cons_of_neg stops,
        List.append_nil]
      simp only [notEmpty, separates, Bool.not_false, Bool.and_self, if_true,
        takeWhile_append_of_all _ _ _ dayAccepted, List.length_append, List.length_cons]
      omega

private theorem monthDayLength_matches (text : Text) :
    Matches monthDay (text.take (monthDayLength text)) := by
  have whole := List.takeWhile_append_dropWhile (p := Char.isDigit) (l := text)
  have monthAccepted : (text.takeWhile Char.isDigit).all Char.isDigit = true := List.all_takeWhile
  have monthAlone : Matches monthDay (text.take (text.takeWhile Char.isDigit).length) := by
    have taken : text.take (text.takeWhile Char.isDigit).length = text.takeWhile Char.isDigit :=
      List.prefix_iff_eq_take.1 (List.takeWhile_prefix _) |>.symm
    rw [taken, monthDay, matches_optional_iff]
    by_cases empty : text.takeWhile Char.isDigit = []
    · exact Or.inl empty
    · refine Or.inr ((matches_sequence_iff _ _ _).2 ⟨_, [], (List.append_nil _).symm, ?_, ?_⟩)
      · exact (matches_some_oneOf_iff _ _).2 ⟨empty, monthAccepted⟩
      · exact (matches_optional_iff _ _).2 (Or.inl rfl)
  unfold monthDayLength
  dsimp only
  split
  · rename_i separator rest behind
    split
    · rename_i both
      rw [Bool.and_eq_true] at both
      have nonempty : text.takeWhile Char.isDigit ≠ [] := by
        intro empty
        rw [empty] at both
        exact absurd both.1 Bool.false_ne_true
      have dayAccepted : (rest.takeWhile Char.isDigit).all Char.isDigit = true := List.all_takeWhile
      have dayTaken : rest.take (rest.takeWhile Char.isDigit).length = rest.takeWhile Char.isDigit :=
        List.prefix_iff_eq_take.1 (List.takeWhile_prefix _) |>.symm
      have taken : text.take ((text.takeWhile Char.isDigit).length + 1 +
          (rest.takeWhile Char.isDigit).length) =
          text.takeWhile Char.isDigit ++ separator :: rest.takeWhile Char.isDigit := by
        rw [behind] at whole
        conv => lhs; arg 2; rw [← whole]
        rw [Nat.add_assoc, List.take_length_add_append, Nat.add_comm 1, List.take_succ_cons,
          dayTaken]
      rw [taken, monthDay, matches_optional_iff]
      refine Or.inr (.sequence ((matches_some_oneOf_iff _ _).2 ⟨nonempty, monthAccepted⟩) ?_)
      refine (matches_optional_iff _ _).2 (Or.inr ?_)
      exact (matches_oneOf_sequence_iff _ _ _).2
        ⟨separator, _, rfl, both.2, (matches_many_oneOf_iff _ _).2 dayAccepted⟩
    · exact monthAlone
  · exact monthAlone

theorem startsWithDate_cases (text : Text) (starts : startsWithDate text = true) :
    ∃ first second third fourth separator rest,
      text = first :: second :: third :: fourth :: separator :: rest ∧
        first.isDigit = true ∧ second.isDigit = true ∧ third.isDigit = true ∧
        fourth.isDigit = true ∧ isDateSeparator separator = true := by
  unfold startsWithDate at starts
  split at starts
  · rename_i first second third fourth separator rest
    simp only [Bool.and_eq_true] at starts
    obtain ⟨⟨⟨⟨firstDigit, secondDigit⟩, thirdDigit⟩, fourthDigit⟩, separates⟩ := starts
    exact ⟨first, second, third, fourth, separator, rest, rfl, firstDigit, secondDigit, thirdDigit,
      fourthDigit, separates⟩
  · cases starts

theorem matches_datePattern_iff (text : Text) :
    Matches datePattern text ↔ ∃ first second third fourth separator rest,
      text = first :: second :: third :: fourth :: separator :: rest ∧
        first.isDigit = true ∧ second.isDigit = true ∧ third.isDigit = true ∧
        fourth.isDigit = true ∧ isDateSeparator separator = true ∧ Matches monthDay rest := by
  unfold datePattern digit dateSeparator
  simp only [matches_oneOf_sequence_iff]
  constructor
  · intro matched
    obtain ⟨first, _, rfl, firstDigit, second, _, rfl, secondDigit, third, _, rfl, thirdDigit,
      fourth, _, rfl, fourthDigit, separator, rest, rfl, separates, restMatched⟩ := matched
    exact ⟨first, second, third, fourth, separator, rest, rfl, firstDigit, secondDigit, thirdDigit,
      fourthDigit, separates, restMatched⟩
  · intro parts
    obtain ⟨first, second, third, fourth, separator, rest, rfl, firstDigit, secondDigit, thirdDigit,
      fourthDigit, separates, restMatched⟩ := parts
    exact ⟨first, _, rfl, firstDigit, second, _, rfl, secondDigit, third, _, rfl, thirdDigit,
      fourth, _, rfl, fourthDigit, separator, rest, rfl, separates, restMatched⟩

theorem dateAt_matches (text : Text) (starts : startsWithDate text = true) :
    Matches datePattern (dateAt text).text := by
  obtain ⟨first, second, third, fourth, separator, rest, rfl, firstDigit, secondDigit, thirdDigit,
    fourthDigit, separates⟩ := startsWithDate_cases text starts
  refine (matches_datePattern_iff _).2 ⟨first, second, third, fourth, separator,
    rest.take (monthDayLength rest), ?_, firstDigit, secondDigit, thirdDigit, fourthDigit, separates,
    monthDayLength_matches rest⟩
  change List.take (5 + monthDayLength rest) _ = _
  rw [Nat.add_comm]
  rfl

theorem dateAt_covers (front back : Text) (matched : Matches datePattern front) :
    startsWithDate (front ++ back) = true ∧ ∃ more, (dateAt (front ++ back)).text = front ++ more := by
  obtain ⟨first, second, third, fourth, separator, rest, rfl, firstDigit, secondDigit, thirdDigit,
    fourthDigit, separates, restMatched⟩ := (matches_datePattern_iff front).1 matched
  constructor
  · simp only [List.cons_append, startsWithDate, firstDigit, secondDigit, thirdDigit, fourthDigit,
      separates, Bool.and_self]
  · have enough := monthDayLength_covers rest back restMatched
    refine ⟨back.take (monthDayLength (rest ++ back) - rest.length), ?_⟩
    change List.take (5 + monthDayLength (rest ++ back)) _ = _
    rw [Nat.add_comm]
    change first :: second :: third :: fourth :: separator ::
      List.take (monthDayLength (rest ++ back)) (rest ++ back) = _
    rw [List.take_append, List.take_of_length_le enough]
    rfl

end Shape

end LedgerLexer
