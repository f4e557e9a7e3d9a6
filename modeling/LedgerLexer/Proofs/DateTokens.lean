/-
Dates among the tokens. Where a match begins with four digits and a date separator, all
text that belongs to a date is one token: a date when it writes a day of the calendar in
full, and one error of conversion otherwise, never numbers.
-/

import LedgerLexer.Proofs.DateReading
import LedgerLexer.Proofs.Runs
import LedgerLexer.Proofs.ShapeChoice

namespace LedgerLexer

def BeginsDate (text : Text) : Prop :=
  ∃ year separator rest, text = year ++ separator :: rest ∧ IsField 4 year ∧
    separator ∈ ['-', '/']

theorem isField_four_iff (field : Text) :
    IsField 4 field ↔ ∃ first second third fourth, field = [first, second, third, fourth] ∧
      first.isDigit = true ∧ second.isDigit = true ∧ third.isDigit = true ∧
      fourth.isDigit = true := by
  constructor
  · rintro ⟨length, digits⟩
    match field with
    | [first, second, third, fourth] =>
        simp only [List.all_cons, List.all_nil, Bool.and_eq_true, Bool.and_true] at digits
        exact ⟨first, second, third, fourth, rfl, digits⟩
  · rintro ⟨first, second, third, fourth, rfl, firstDigit, secondDigit, thirdDigit, fourthDigit⟩
    exact ⟨rfl, by simp [firstDigit, secondDigit, thirdDigit, fourthDigit]⟩

namespace Shape

open Pattern

private theorem matches_monthDay_of_month (month : Text) (digits : month.all Char.isDigit = true) :
    Matches monthDay month := by
  by_cases empty : month = []
  · exact (matches_optional_iff _ _).2 (Or.inl empty)
  · refine (matches_optional_iff _ _).2 (Or.inr ((matches_sequence_iff _ _ _).2
      ⟨month, [], (List.append_nil _).symm, ?_, ?_⟩))
    · exact (matches_some_oneOf_iff _ _).2 ⟨empty, digits⟩
    · exact (matches_optional_iff _ _).2 (Or.inl rfl)

private theorem matches_monthDay_of_day (month day : Text) (separator : Char)
    (separates : isDateSeparator separator = true) (present : month ≠ [])
    (monthDigits : month.all Char.isDigit = true) (dayDigits : day.all Char.isDigit = true) :
    Matches monthDay (month ++ separator :: day) := by
  refine (matches_optional_iff _ _).2 (Or.inr (.sequence
    ((matches_some_oneOf_iff _ _).2 ⟨present, monthDigits⟩) ?_))
  refine (matches_optional_iff _ _).2 (Or.inr ?_)
  exact (matches_oneOf_sequence_iff _ _ _).2
    ⟨separator, day, rfl, separates, (matches_many_oneOf_iff _ _).2 dayDigits⟩

theorem matches_date_iff (text : Text) : Shape.date.pattern.Matches text ↔ IsDateText text := by
  change Matches datePattern text ↔ IsDateText text
  rw [matches_datePattern_iff]
  constructor
  · rintro ⟨first, second, third, fourth, separator, rest, rfl, firstDigit, secondDigit, thirdDigit,
      fourthDigit, separates, restMatched⟩
    rw [isDateSeparator_iff] at separates
    have yearField : IsField 4 [first, second, third, fourth] :=
      (isField_four_iff _).2
        ⟨first, second, third, fourth, rfl, firstDigit, secondDigit, thirdDigit, fourthDigit⟩
    rcases monthDay_cases rest restMatched with rfl | ⟨month, tail, rfl, present, digits, tailForm⟩
    · exact .month separates yearField rfl
    · rcases tailForm with rfl | ⟨second, day, rfl, separatesToo, dayDigits⟩
      · rw [List.append_nil]
        exact .month separates yearField digits
      · exact .day separates ((isDateSeparator_iff second).1 separatesToo) yearField digits present
          dayDigits
  · intro shaped
    cases shaped with
    | @month year month separator separates yearField monthDigits =>
        obtain ⟨first, second, third, fourth, rfl, firstDigit, secondDigit, thirdDigit,
          fourthDigit⟩ := (isField_four_iff _).1 yearField
        exact ⟨first, second, third, fourth, separator, month, rfl, firstDigit, secondDigit,
          thirdDigit, fourthDigit, (isDateSeparator_iff separator).2 separates,
          matches_monthDay_of_month month monthDigits⟩
    | @day year month day separator second separates separatesToo yearField monthDigits present
        dayDigits =>
        obtain ⟨first, next, third, fourth, rfl, firstDigit, nextDigit, thirdDigit,
          fourthDigit⟩ := (isField_four_iff _).1 yearField
        exact ⟨first, next, third, fourth, separator, _, rfl, firstDigit, nextDigit, thirdDigit,
          fourthDigit, (isDateSeparator_iff separator).2 separates,
          matches_monthDay_of_day month day second ((isDateSeparator_iff second).2 separatesToo)
            present monthDigits dayDigits⟩

private theorem exists_longest_date (text : Text) (begins : BeginsDate text) :
    ∃ run rest, longest? text = Option.some ⟨.date, run, rest⟩ := by
  obtain ⟨year, separator, behind, rfl, yearField, separates⟩ := begins
  have digits := yearField.digits
  rw [← isDateSeparator_iff] at separates
  obtain ⟨first, second, third, fourth, rfl, _⟩ := (isField_four_iff _).1 yearField
  obtain ⟨⟨shape, run, rest⟩, longest, isDate, _⟩ :=
    longest?_date first second third fourth separator behind digits separates
  obtain rfl : shape = .date := isDate
  exact ⟨run, rest, longest⟩

end Shape

def Token.IsDate (token : Token) (year month day : Nat) : Prop :=
  token.kind = .date ∧ ∃ date : Date, token.value = some (.date date) ∧
    date.year = year ∧ date.month = month ∧ date.day = day

namespace Session

variable {session : Session} {cut : Cut} {run rest : Text}

private theorem cut_of_date (here : session.nextCut? = some cut)
    (longest : Shape.longest? session.rest = some ⟨.date, run, rest⟩) :
    cut = Cut.ofDate run rest := by
  obtain ⟨first, others, _, found⟩ :=
    Cut.next?_of_longest session.options.maxStringLines session.rest _ longest
  exact Option.some.inj (here.symm.trans found)

/-- A text of the date shape is shown whole, and the reader decides what it is. -/
theorem stageOf_date (here : session.nextCut? = some cut)
    (longest : Shape.longest? session.rest = some ⟨.date, run, rest⟩) :
    cut.piece.text = run ∧
    ((∃ date, Date.read run = .ok date ∧ (session.stageOf cut).error? = none ∧
        (session.stageOf cut).token = some ⟨.date, session.line, run, some (.date date)⟩) ∨
      ∃ reason, Date.read run = .error reason ∧
        (session.stageOf cut).token = some ⟨.error, session.line, run, none⟩ ∧
        (session.stageOf cut).error? = some ((Fault.badDate run reason).toError session.line)) := by
  rw [cut_of_date here longest]
  cases read : Date.read run with
  | ok date =>
      have cutForm : Cut.ofDate run rest = Cut.token .date (some (.date date)) run rest := by
        rw [Cut.ofDate, read]
      rw [cutForm]
      exact ⟨rfl, Or.inl ⟨date, rfl, rfl, rfl⟩⟩
  | error reason =>
      have cutForm : Cut.ofDate run rest = Cut.fault (.badDate run reason) run run rest := by
        rw [Cut.ofDate, read]
      rw [cutForm]
      exact ⟨rfl, Or.inr ⟨reason, rfl, rfl, rfl⟩⟩

/-- A date is one token. Wherever a match begins with four digits and a date separator, it
takes up the longest front that belongs to a date, and the stage hands out one token over
all of it. The token is a date of some year, month and day exactly when the text writes
them in full and they are a day of the calendar; otherwise it is an error token, and its
error is one of conversion. More digits behind a written day leave no date. -/
theorem date_text_is_one_token (source : Text) (options : Options) (firstLine : Nat) :
    let session := Session.start source options firstLine
    let stages := session.trail.stages
    textOf stages = source ∧
    tokensOf stages = session.finish.tokens ∧
    session.finish.session.errors.toList = errorsOf stages ∧
    ∀ before stage behind, stages = before ++ stage :: behind →
      let text := stage.piece.text
      BeginsDate (text ++ textOf behind) →
      IsDateText text ∧
      (∀ front back, front ++ back = text ++ textOf behind → IsDateText front →
        front.length ≤ text.length) ∧
      ∃ token, stage.token = some token ∧ token.lexeme = text ∧
        (∀ year month day, token.IsDate year month day ↔
          WritesDay text year month day ∧ Date.OnCalendar year month day) ∧
        ((∃ year month day, token.IsDate year month day) ∧ stage.error? = none ∨
          token.kind = .error ∧ token.value = none ∧
            ∃ error, stage.error? = some error ∧ error.kind = .conversion ∧
              error.line = token.line) ∧
        ∀ front extra year month day, text = front ++ extra → extra ≠ [] →
          WritesDay front year month day → token.kind = .error := by
  intro session stages
  have noErrors : session.errors.toList = [] := rfl
  have errors := session.reaches_finish.errors_eq
  rw [noErrors, List.nil_append] at errors
  refine ⟨session.textOf_trail, session.tokensOf_trail, errors, ?_⟩
  intro before stage behind split text begins
  obtain ⟨middle, cut, _, here, rfl, cutRest⟩ := session.exists_cut_of_split before behind stage split
  have ahead : text ++ textOf behind = middle.rest := by
    rw [← cutRest]
    exact (Cut.next?_splits _ _ _ here).2
  rw [ahead] at begins ⊢
  obtain ⟨run, rest, longest⟩ := Shape.exists_longest_date middle.rest begins
  have isLongest := Shape.longest?_isLongest _ _ longest
  obtain ⟨whole, outcome⟩ := stageOf_date here longest
  obtain rfl : text = run := whole
  have shaped : IsDateText text := (Shape.matches_date_iff text).1 isLongest.matched
  refine ⟨shaped, ?_, ?_⟩
  · intro front back sameText frontShaped
    exact isLongest.maximal .date front back sameText ((Shape.matches_date_iff front).2 frontShaped)
  rcases outcome with ⟨date, read, noError, present⟩ | ⟨reason, read, present, error⟩
  · have isDate : ∃ year month day, Token.IsDate
        ⟨.date, middle.line, text, some (.date date)⟩ year month day :=
      ⟨date.year, date.month, date.day, rfl, date, rfl, rfl, rfl, rfl⟩
    refine ⟨_, present, rfl, ?_, Or.inl ⟨isDate, noError⟩, ?_⟩
    · intro year month day
      rw [← Date.exists_read_iff text shaped, read]
      constructor
      · rintro ⟨_, other, same, numbers⟩
        cases same
        exact ⟨date, rfl, numbers⟩
      · rintro ⟨other, same, numbers⟩
        cases same
        exact ⟨rfl, date, rfl, numbers⟩
    · intro front extra year month day longer present frontWrites
      -- A written day has ten characters, so the longer text is none.
      have writes := (Date.read_eq_ok_iff text shaped date).1 read
      have lengths := writes.length
      rw [longer, List.length_append, frontWrites.length] at lengths
      exact absurd (List.length_eq_zero_iff.1 (by omega)) present
  · refine ⟨_, present, rfl, ?_, Or.inr ⟨rfl, rfl, _, error, rfl, rfl⟩, fun _ _ _ _ _ _ _ _ => rfl⟩
    intro year month day
    rw [← Date.exists_read_iff text shaped, read]
    constructor
    · rintro ⟨isDate, _⟩
      cases isDate
    · rintro ⟨_, same, _⟩
      cases same

/-- The leap day of year 0 is a date, and with one more digit it is none. -/
theorem date_text_is_one_token_leap_day :
    let leapDay : Text := ['0', '0', '0', '0', '-', '0', '2', '-', '2', '9']
    let session := start (leapDay ++ ' ' :: leapDay ++ ['9']) Options.standard 1
    ∃ first second, session.finish.tokens = [first, second] ∧ first.IsDate 0 2 29 ∧
      second.kind = .error := by
  intro leapDay session
  have writes : WritesDay leapDay 0 2 29 :=
    @WritesDay.fields ['0', '0', '0', '0'] ['0', '2'] ['2', '9'] '-' (by decide) ⟨rfl, rfl⟩
      ⟨rfl, rfl⟩ ⟨rfl, rfl⟩
  have onCalendar : Date.OnCalendar 0 2 29 :=
    ⟨29, .leapFebruary (Or.inr ⟨0, rfl⟩), by decide, by decide⟩
  have begins (rest : Text) : BeginsDate (leapDay ++ rest) :=
    ⟨['0', '0', '0', '0'], '-', '0' :: '2' :: '-' :: '2' :: '9' :: rest, rfl, ⟨rfl, rfl⟩,
      by decide⟩
  have run : Reaches session _ _ := .step rfl (.step rfl (.step rfl (.here _)))
  have stages := congrArg Trail.stages (run.trail_of_end rfl)
  obtain ⟨_, tokens, _, each⟩ :=
    date_text_is_one_token (leapDay ++ ' ' :: leapDay ++ ['9']) Options.standard 1
  obtain ⟨_, _, first, firstPresent, _, dates, _⟩ := each [] _ _ stages (begins _)
  obtain ⟨_, _, second, secondPresent, _, _, _, longer⟩ := each [_, _] _ [] stages (begins ['9'])
  refine ⟨first, second, ?_, (dates 0 2 29).2 ⟨writes, onCalendar⟩,
    longer leapDay ['9'] 0 2 29 rfl (List.cons_ne_nil _ _) writes⟩
  rw [← tokens, stages, tokensOf_cons, firstPresent, tokensOf_cons, tokensOf_cons, secondPresent]
  rfl

end Session

end LedgerLexer
