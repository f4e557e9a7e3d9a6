/-
The reader of dates against the dates among the tokens. The reader is given any text, and it
lets a plus sign fill the first place of a count; a date token never has one. So a text that
the reader accepts is one date token, with the same value, exactly when it has no plus sign.
-/

import LedgerLexer.Proofs.DateTokens

namespace LedgerLexer

private theorem Shape.Reads.shape_of_date {shape : Shape} {run : Text} {value : Option Value}
    (reads : shape.Reads run .date value) : shape = .date := by
  have same := reads.anywhere 0 ' ' [] []
  cases shape with
  | blank => exact absurd rfl reads.notBlank
  | comment => exact absurd rfl reads.notComment
  | date => rfl
  | number | fraction =>
      change Cut.ofNumber run [] = _ at same
      unfold Cut.ofNumber at same
      split at same <;> cases same
  | word =>
      change Cut.ofWord ' ' [] run [] = _ at same
      unfold Cut.ofWord at same
      split at same <;> cases same
  | name =>
      change Cut.ofName ' ' [] run [] = _ at same
      unfold Cut.ofName at same
      split at same <;> cases same
  | _ => cases same

private theorem Cut.isDateText_of_token {lines : Nat} {text : Text} {cut : Cut}
    {value : Option Value}
    (here : next? lines text = some cut) (found : cut.piece.finding = .token .date value) :
    IsDateText cut.piece.text := by
  have form := next?_form lines text cut here
  cases form with
  | token longest reads =>
      cases found
      obtain rfl := reads.shape_of_date
      exact (Shape.matches_date_iff _).1 (Shape.longest?_isLongest _ _ longest).matched
  | _ => cases found

namespace Session

private theorem no_plus_of_date (session : Session) (token : Token)
    (member : token ∈ session.finish.tokens) (isDate : token.kind = .date) :
    '+' ∉ token.lexeme := by
  rw [← session.tokensOf_trail] at member
  obtain ⟨stage, inTrail, present⟩ := List.mem_filterMap.1 member
  obtain ⟨_, middle, cut, _, here, rfl⟩ := session.exists_cut_of_mem stage inTrail
  cases handsOut_of_take present with
  | indent _ _ => cases isDate
  | token found =>
      obtain rfl := isDate
      exact (Cut.isDateText_of_token here found).no_plus
  | fault _ => cases isDate

private theorem longest?_of_isDateText (text : Text) (shaped : IsDateText text) :
    Shape.longest? text = some ⟨.date, text, []⟩ := by
  refine (Shape.longest?_eq_some_iff _ _).2
    ⟨List.append_nil text, (Shape.matches_date_iff text).2 shaped, ?_⟩
  intro shape front back whole _
  rw [← whole, List.length_append]
  exact Nat.le_add_right _ _

private theorem finish_of_written_day (text : Text) (date : Date) (options : Options)
    (firstLine : Nat) (read : Date.read text = .ok date) (noPlus : '+' ∉ text) :
    (start text options firstLine).finish.tokens =
        [⟨.date, firstLine, text, some (.date date)⟩] ∧
      (start text options firstLine).finish.session.errors = #[] := by
  have writes : WritesDay text date.year date.month date.day :=
    (writesDay_iff _ _ _ _).2 ⟨(Date.read_eq_ok_iff_writesCounts text date).1 read, noPlus⟩
  have longest := longest?_of_isDateText text (isDateText_of_writesDay writes)
  generalize fresh : start text options firstLine = session
  have rest : session.rest = text := by rw [← fresh]; rfl
  have line : session.line = firstLine := by rw [← fresh]; rfl
  have noErrors : session.errors.toList = [] := by rw [← fresh]; rfl
  rw [← rest] at longest
  have goesOn : session.nextCut? ≠ none := by
    intro ended
    rw [(Cut.next?_eq_none_iff _ _).1 ended] at longest
    cases longest
  obtain ⟨cut, here⟩ := Option.ne_none_iff_exists'.1 goesOn
  obtain ⟨whole, outcome⟩ := stageOf_date here longest
  have splits := (Cut.next?_splits _ _ _ here).2
  have atEnd : (session.take cut).session.rest = [] := by
    rw [take_rest]
    rw [whole] at splits
    exact List.append_right_eq_self.1 splits
  have run := Reaches.step here (.here (session.take cut).session)
  have errors := run.errors_eq
  rcases outcome with ⟨other, otherRead, noError, token⟩ | ⟨reason, failed, _⟩
  · rw [rest, read] at otherRead
    cases otherRead
    rw [run.finish_of_end atEnd, tokensOf_cons, token, line, rest]
    rw [noErrors, errorsOf_cons, noError] at errors
    exact ⟨rfl, Array.toList_eq_nil_iff.1 errors⟩
  · rw [rest, read] at failed
    cases failed

/-- What the reader accepts and what is a date in the source. The reader accepts three counts
that name a day of the calendar, and no other text, while a date token has no plus sign. So a
text that the reader accepts is written in digits alone exactly when it has no plus sign, and
then, and only then, it is on its own one date token of this value, with no error. -/
theorem accepted_text_is_date_unless_signed (text : Text) (options : Options) (firstLine : Nat) :
    let finished := (start text options firstLine).finish
    (∀ date, Date.read text = .ok date ↔ WritesCounts text date.year date.month date.day) ∧
    (∀ token ∈ finished.tokens, token.kind = .date → '+' ∉ token.lexeme) ∧
    ∀ date, Date.read text = .ok date →
      ((∃ year month day, WritesDay text year month day) ↔ '+' ∉ text) ∧
      (finished.tokens = [⟨.date, firstLine, text, some (.date date)⟩] ∧
        finished.session.errors = #[] ↔ '+' ∉ text) := by
  intro finished
  have noPlusIn := (start text options firstLine).no_plus_of_date
  refine ⟨Date.read_eq_ok_iff_writesCounts text, noPlusIn, ?_⟩
  intro date read
  have writes := (Date.read_eq_ok_iff_writesCounts text date).1 read
  constructor
  · constructor
    · rintro ⟨year, month, day, inDigits⟩
      exact ((writesDay_iff text year month day).1 inDigits).2
    · intro noPlus
      exact ⟨_, _, _, (writesDay_iff text _ _ _).2 ⟨writes, noPlus⟩⟩
  · constructor
    · rintro ⟨only, _⟩
      exact noPlusIn ⟨.date, firstLine, text, some (.date date)⟩ (only ▸ List.mem_singleton_self _)
        rfl
    · exact finish_of_written_day text date options firstLine read

/-- With a plus sign in the place of its first digit a year of three digits is accepted,
though the text is no date in the source but three numbers. -/
theorem accepted_text_is_no_date_signed_year :
    let text : Text := ['+', '1', '2', '3', '-', '0', '1', '-', '0', '2']
    (∃ date, Date.read text = .ok date ∧ date.year = 123) ∧
      (¬ ∃ year month day, WritesDay text year month day) ∧
      (start text Options.standard 1).finish.tokens.map Token.kind =
        [.number, .number, .number] := by
  intro text
  refine ⟨⟨⟨123, 1, 2, by decide⟩, rfl, rfl⟩, ?_, ?_⟩
  · rintro ⟨year, month, day, inDigits⟩
    exact ((writesDay_iff text year month day).1 inDigits).2 (List.mem_cons_self ..)
  · have run : Reaches (start text Options.standard 1) _ _ :=
      .step rfl (.step rfl (.step rfl (.here _)))
    rw [run.finish_of_end rfl]
    rfl

end Session

end LedgerLexer
