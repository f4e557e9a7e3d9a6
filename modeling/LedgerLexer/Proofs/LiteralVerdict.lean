/-
The verdict on a literal. It is settled by the first quote behind the opening one that is
not escaped and by the line feeds before it, or by all line feeds when no such quote
follows. What stands behind that quote, or behind the line feed that begins one line too
many, is never looked at.
-/

import LedgerLexer.Piece
import LedgerLexer.Proofs.LiteralSpan

namespace LedgerLexer

def spannedLines (text : Text) : Nat :=
  lineFeeds text + 1

def LiteralEnd.before (rest : Text) : LiteralEnd → LiteralEnd
  | closed body _ => closed body rest
  | overlong => overlong
  | unterminated => unterminated

/-- A search with so many lines left is over at the end of this text, at its closing quote
or at the line feed that begins one line too many, whichever comes first. -/
inductive EndsSearch (lines : Nat) : Text → Prop where
  | quote {before : Text} (notEscaped : escapesNext false before = false)
      (goesOn : StaysOpen false before) (few : lineFeeds before < lines) :
      EndsSearch lines (before ++ ['"'])
  | lineFeed {before : Text} (goesOn : StaysOpen false before)
      (last : lineFeeds before + 1 = lines) : EndsSearch lines (before ++ ['\n'])

private theorem exists_front_of_lineFeeds (lines : Nat) (text : Text) (positive : 1 ≤ lines)
    (enough : lines ≤ lineFeeds text) :
    ∃ before behind, text = before ++ '\n' :: behind ∧ lineFeeds before + 1 = lines := by
  induction text generalizing lines with
  | nil =>
      rw [lineFeeds_nil] at enough
      omega
  | cons char rest ih =>
      rw [lineFeeds_cons] at enough
      by_cases feed : char = '\n'
      · rw [if_pos feed] at enough
        by_cases first : lines = 1
        · exact ⟨[], rest, by rw [feed]; rfl, first.symm⟩
        · obtain ⟨before, behind, rfl, count⟩ := ih (lines - 1) (by omega) (by omega)
          refine ⟨char :: before, behind, rfl, ?_⟩
          rw [lineFeeds_cons, if_pos feed]
          omega
      · rw [if_neg feed] at enough
        obtain ⟨before, behind, rfl, count⟩ := ih lines positive (by omega)
        refine ⟨char :: before, behind, rfl, ?_⟩
        rw [lineFeeds_cons, if_neg feed]
        omega

theorem StaysOpen.of_append {escaped : Bool} {front back : Text}
    (open_ : StaysOpen escaped (front ++ back)) : StaysOpen escaped front := by
  intro before behind whole
  exact open_ before (behind ++ back) (by rw [whole]; simp)

private theorem EndsSearch.exists_verdict {lines : Nat} {front : Text}
    (ends : EndsSearch lines front) :
    ∃ verdict : LiteralEnd, verdict ≠ .unterminated ∧
      ∀ rest, literalEnd lines (front ++ rest) = verdict.before rest := by
  cases ends with
  | @quote before notEscaped goesOn few =>
      refine ⟨.closed (before ++ ['"']) [], nofun, ?_⟩
      intro rest
      have first : FirstClosing false (before ++ ['"'] ++ rest) before rest :=
        ⟨by simp, notEscaped, goesOn⟩
      rw [literalEnd_of_firstClosing lines _ before rest (by omega) first, if_neg (by omega)]
      rfl
  | @lineFeed before goesOn last =>
      refine ⟨.overlong, nofun, ?_⟩
      intro rest
      have gaveUp (escaped : Bool) : findLiteralEnd 1 escaped ('\n' :: rest) = .overlong := rfl
      have tooLong : LiteralEnd.overlong.Fails := Or.inl rfl
      have left : lines - lineFeeds before = 1 := by omega
      have walk := findLiteralEnd_over lines false before ('\n' :: rest) (by omega) goesOn
      rw [if_neg (by omega), left, gaveUp, tooLong.foldr_eq] at walk
      rw [List.append_assoc]
      exact walk

private theorem LiteralEnd.before_before (verdict : LiteralEnd) (rest other : Text) :
    (verdict.before rest).before other = verdict.before other := by
  cases verdict <;> rfl

/-- The search is over within the text unless the literal stays open over all of it, on few
enough lines. -/
theorem exists_endsSearch (lines : Nat) (text : Text) (positive : 1 ≤ lines)
    (ended : literalEnd lines text ≠ .unterminated) :
    ∃ front rest, text = front ++ rest ∧ EndsSearch lines front := by
  -- Among open text with too many line feeds, the search ends at one of them.
  have ofFeeds (open_ behind : Text) (goesOn : StaysOpen false open_)
      (enough : lines ≤ lineFeeds open_) :
      ∃ front rest, open_ ++ behind = front ++ rest ∧ EndsSearch lines front := by
    obtain ⟨before, later, rfl, count⟩ := exists_front_of_lineFeeds lines open_ positive enough
    exact ⟨before ++ ['\n'], later ++ behind, by simp, .lineFeed goesOn.of_append count⟩
  rcases exists_firstClosing_or_staysOpen false text with ⟨before, behind, first⟩ | open_
  · by_cases enough : lines ≤ lineFeeds before
    · rw [first.whole]
      exact ofFeeds before _ first.goesOn enough
    · refine ⟨before ++ ['"'], behind, by simp [first.whole], ?_⟩
      exact .quote first.notEscaped first.goesOn (by omega)
  · rw [literalEnd_of_staysOpen lines text positive open_] at ended
    split at ended
    · rename_i enough
      obtain ⟨front, rest, whole, ends⟩ := ofFeeds text [] open_ enough
      exact ⟨front, rest, by rw [← whole, List.append_nil], ends⟩
    · exact absurd rfl ended

theorem literalEnd_closed_iff (lines : Nat) (text body rest : Text) (positive : 1 ≤ lines) :
    literalEnd lines text = .closed body rest ↔
      ∃ before, FirstClosing false text before rest ∧ lineFeeds before < lines ∧
        body = before ++ ['"'] := by
  constructor
  · intro closes
    rcases exists_firstClosing_or_staysOpen false text with ⟨before, behind, first⟩ | open_
    · rw [literalEnd_of_firstClosing lines text before behind positive first] at closes
      split at closes
      · cases closes
      · rename_i few
        cases closes
        exact ⟨before, first, by omega, rfl⟩
    · rw [literalEnd_of_staysOpen lines text positive open_] at closes
      split at closes <;> cases closes
  · rintro ⟨before, first, few, rfl⟩
    rw [literalEnd_of_firstClosing lines text before rest positive first, if_neg (by omega)]

theorem literalEnd_unterminated_iff (lines : Nat) (text : Text) (positive : 1 ≤ lines) :
    literalEnd lines text = .unterminated ↔ StaysOpen false text ∧ lineFeeds text < lines := by
  constructor
  · intro unended
    rcases exists_firstClosing_or_staysOpen false text with ⟨before, behind, first⟩ | open_
    · rw [literalEnd_of_firstClosing lines text before behind positive first] at unended
      split at unended <;> cases unended
    · rw [literalEnd_of_staysOpen lines text positive open_] at unended
      split at unended
      · cases unended
      · rename_i few
        exact ⟨open_, by omega⟩
  · rintro ⟨open_, few⟩
    rw [literalEnd_of_staysOpen lines text positive open_, if_neg (by omega)]

/-- The verdict on a literal, from the text behind its opening quote. It is closed, at its
first quote that is not escaped, exactly when fewer line feeds than the limit stand before
this quote; too long exactly when as many as the limit do, or stand in the text when no such
quote does; and unterminated in the one case left. So a literal is accepted exactly when it
spans no more lines than the limit, and a literal that is not costs its opening quote only.
The text behind the place where the search ends has no part in the verdict, and the search
reads the text to its end only when the literal is unterminated. -/
theorem verdict_by_closing_quote_and_lines (lines : Nat) (text : Text) (positive : 1 ≤ lines) :
    (∀ body rest, literalEnd lines text = .closed body rest ↔
      ∃ before, FirstClosing false text before rest ∧ lineFeeds before < lines ∧
        body = before ++ ['"']) ∧
    (literalEnd lines text = .overlong ↔
      (∃ before rest, FirstClosing false text before rest ∧ lines ≤ lineFeeds before) ∨
        StaysOpen false text ∧ lines ≤ lineFeeds text) ∧
    (literalEnd lines text = .unterminated ↔ StaysOpen false text ∧ lineFeeds text < lines) ∧
    (∀ before rest, FirstClosing false text before rest →
      ((∃ body behind, literalEnd lines text = .closed body behind) ↔
        spannedLines ('"' :: before ++ ['"']) ≤ lines)) ∧
    (∀ body rest, literalEnd lines text = .closed body rest →
      ∃ value, Cut.next? lines ('"' :: text) = some (Cut.token .string value ('"' :: body) rest)) ∧
    ((literalEnd lines text).Fails →
      ∃ reason, Cut.next? lines ('"' :: text) = some (Cut.fault reason ['"'] ['"'] text)) ∧
    (∀ front rest other, text = front ++ rest → EndsSearch lines front →
      literalEnd lines (front ++ other) = (literalEnd lines text).before other) ∧
    (literalEnd lines text ≠ .unterminated ↔
      ∃ front rest, text = front ++ rest ∧ EndsSearch lines front) := by
  refine ⟨fun body rest => literalEnd_closed_iff lines text body rest positive,
    literalEnd_overlong_iff_feeds lines text positive,
    literalEnd_unterminated_iff lines text positive, ?_, ?_, ?_, ?_, ?_⟩
  · intro before rest first
    have spans : spannedLines ('"' :: before ++ ['"']) = lineFeeds before + 1 := by
      simp [spannedLines, lineFeeds_cons]
    rw [spans]
    constructor
    · rintro ⟨body, behind, closes⟩
      rw [literalEnd_of_firstClosing lines text before rest positive first] at closes
      split at closes
      · cases closes
      · omega
    · intro few
      exact ⟨_, rest, (literalEnd_closed_iff lines text _ rest positive).2
        ⟨before, first, few, rfl⟩⟩
  · intro body rest closes
    have here : Cut.next? lines ('"' :: text) = some (Cut.ofLiteral lines ['"'] text) := rfl
    rw [here, Cut.ofLiteral, closes]
    exact ⟨_, rfl⟩
  · intro fails
    have here : Cut.next? lines ('"' :: text) = some (Cut.ofLiteral lines ['"'] text) := rfl
    rw [here, Cut.ofLiteral]
    rcases fails with verdict | verdict
    all_goals
      rw [verdict]
      exact ⟨_, rfl⟩
  · rintro front rest other rfl ends
    obtain ⟨verdict, _, same⟩ := ends.exists_verdict
    rw [same other, same rest, verdict.before_before]
  · constructor
    · exact exists_endsSearch lines text positive
    · rintro ⟨front, rest, rfl, ends⟩
      obtain ⟨verdict, ended, same⟩ := ends.exists_verdict
      rw [same rest]
      cases verdict with
      | unterminated => exact absurd rfl ended
      | _ => exact nofun

/-- An escaped line feed counts as a line, and an escaped quote closes nothing. -/
theorem verdict_of_escaped_line_feed :
    let text : Text := ['\\', '\n', '\\', '"', '"', 'x']
    let before : Text := ['\\', '\n', '\\', '"']
    1 ≤ 2 ∧ FirstClosing false text before ['x'] ∧
      literalEnd 2 text = .closed (before ++ ['"']) ['x'] ∧ literalEnd 1 text = .overlong := by
  intro text before
  have first : FirstClosing false text before ['x'] :=
    ⟨rfl, rfl, by simp [before, staysOpen_cons_iff, staysOpen_nil]⟩
  obtain ⟨closed, _⟩ := verdict_by_closing_quote_and_lines 2 text (by decide)
  obtain ⟨_, tooLong, _⟩ := verdict_by_closing_quote_and_lines 1 text (by decide)
  exact ⟨by decide, first, (closed _ _).2 ⟨before, first, by decide, rfl⟩,
    tooLong.2 (Or.inl ⟨before, _, first, by decide⟩)⟩

end LedgerLexer
