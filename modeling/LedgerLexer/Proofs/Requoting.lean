/-
Content written as a literal and read back. The search for the end of a literal and the
reading of its content are two readers of the same escapes; both take the quoted content
up as it was written, over as many lines as the limit allows. Reading a literal keeps its
line feeds, so what was read once can always be written and read again.
-/

import LedgerLexer.Proofs.PieceExtent
import LedgerLexer.Proofs.Respelling

namespace LedgerLexer

private theorem lineFeeds_escapeContent (content : Text) :
    lineFeeds (escapeContent content) = lineFeeds content := by
  induction content with
  | nil => rfl
  | cons char rest ih =>
      rw [escapeContent]
      split
      · rw [lineFeeds_cons, if_neg (by decide), Nat.zero_add, lineFeeds_cons, lineFeeds_cons, ih]
      · rw [lineFeeds_cons, lineFeeds_cons, ih]

private theorem lineFeeds_quoteContent (content : Text) :
    lineFeeds (quoteContent content) = lineFeeds content := by
  simp [quoteContent, lineFeeds_cons, lineFeeds_escapeContent]

private theorem lineFeeds_unescapeContent (text : Text) :
    lineFeeds (unescapeContent text) = lineFeeds text := by
  induction text using content_induction with
  | nil => rfl
  | last => rfl
  | escape char rest ih =>
      rw [unescapeContent_escape, lineFeeds_append, ih]
      split <;> simp [lineFeeds_cons]
  | plain char rest notBackslash ih =>
      rw [unescapeContent_plain char rest notBackslash, lineFeeds_cons, lineFeeds_cons, ih]

private theorem lineFeeds_unquote (body : Text) (closed : body.getLast? = some '"') :
    lineFeeds (unquote ('"' :: body)) = lineFeeds ('"' :: body) := by
  obtain ⟨inner, rfl⟩ := List.getLast?_eq_some_iff.1 closed
  rw [unquote_quoted, lineFeeds_unescapeContent]
  simp [lineFeeds_cons]

/-- Every quote and every backslash of the content stands behind a backslash of its own,
so nothing is escaped where the next character of the content begins. -/
theorem closes_escapeContent (lines : Nat) (content : Text) (fits : lineFeeds content < lines) :
    Closes lines false (escapeContent content ++ ['"']) := by
  induction content generalizing lines with
  | nil => exact .quote
  | cons char later ih =>
      rw [lineFeeds_cons] at fits
      rw [escapeContent]
      split
      · rename_i special
        have noFeed : char ≠ '\n' := by
          rintro rfl
          simp at special
        have laterCloses := ih lines (by omega)
        exact .inside (by decide) nofun (.inside noFeed (fun _ => rfl) laterCloses)
      · rename_i plain
        rw [not_or] at plain
        by_cases feed : char = '\n'
        · subst feed
          rw [if_pos rfl] at fits
          exact .lineFeed (by omega) (ih (lines - 1) (by omega))
        · have unescaped : (!false && char == '\\') = false := by
            simp [plain.2]
          have laterCloses := ih lines (by omega)
          rw [← unescaped] at laterCloses
          exact .inside feed (fun quote => absurd quote plain.1) laterCloses

private theorem Closes.lineFeeds_lt {lines : Nat} {escaped : Bool} {body : Text}
    (closes : Closes lines escaped body) (positive : 1 ≤ lines) : lineFeeds body < lines := by
  induction closes with
  | quote => exact positive
  | lineFeed more _ ih =>
      have fewer := ih (by omega)
      rw [lineFeeds_cons, if_pos rfl]
      omega
  | inside noFeed _ _ ih =>
      rw [lineFeeds_cons, if_neg noFeed, Nat.zero_add]
      exact ih positive

namespace Cut

private theorem next?_quoteContent (lines : Nat) (content rest : Text)
    (fits : lineFeeds content < lines) :
    next? lines (quoteContent content ++ rest) =
      some (token .string (some (.content content)) (quoteContent content) rest) := by
  have ends : literalEnd lines (escapeContent content ++ ['"'] ++ rest) =
      .closed (escapeContent content ++ ['"']) rest :=
    (findLiteralEnd_eq_closed_iff _ _ _ _ _).2 ⟨closes_escapeContent lines content fits, rfl⟩
  have reads : unquote (['"'] ++ (escapeContent content ++ ['"'])) = content :=
    unquote_quoteContent content
  change some (ofLiteral lines ['"'] (escapeContent content ++ ['"'] ++ rest)) = _
  rw [ofLiteral, ends]
  change some (token _ (some (.content (unquote _))) _ rest) = _
  rw [reads]
  rfl

private theorem Form.content_of_string {lines : Nat} {text : Text} {cut : Cut}
    (form : Form lines text cut) (positive : 1 ≤ lines) {value : Option Value}
    (found : cut.piece.finding = .token .string value) :
    ∃ content, value = some (.content content) ∧
      lineFeeds content = lineFeeds cut.piece.text ∧ lineFeeds content < lines := by
  cases form with
  | @literal body rest whole closes =>
      cases found
      have bodyCloses := ((findLiteralEnd_eq_closed_iff _ _ _ _ _).1 closes).1
      have feeds := lineFeeds_unquote body bodyCloses.getLast
      have fits := bodyCloses.lineFeeds_lt positive
      refine ⟨_, rfl, feeds, ?_⟩
      rw [feeds, lineFeeds_cons, if_neg (by decide), Nat.zero_add]
      exact fits
  | token _ reads =>
      cases found
      exact absurd rfl reads.plain.2.2
  | _ => cases found

end Cut

namespace Session

private theorem pull_quoteContent (content rest : Text) (options : Options) (firstLine : Nat)
    (positive : 1 ≤ options.maxStringLines) (fits : lineFeeds content < options.maxStringLines) :
    (start (quoteContent content ++ rest) options firstLine).pull =
      ⟨some ⟨.string, firstLine, quoteContent content, some (.content content)⟩,
        midLine rest options (firstLine + lineFeeds content)⟩ := by
  rw [← options.usable_of_pos positive] at fits
  rw [pull_of_token_ahead options firstLine .string (some (.content content)) _ rest (by decide)
    (Cut.next?_quoteContent _ content rest fits), linesEnded, lineFeeds_quoteContent]

/-- Content that fits the limit is read back from its quoted form, whatever follows, and
lexing goes on behind the closing quote. The content of every literal fits, for it holds
the line feeds of the literal, so quoted again it is read as the same content. -/
theorem quoted_content_is_read_back (lines : Nat) (positive : 1 ≤ lines) :
    let limited : Options := ⟨lines⟩
    (∀ content rest firstLine, lineFeeds content < lines →
      (start (quoteContent content ++ rest) limited firstLine).pull =
        ⟨some ⟨.string, firstLine, quoteContent content, some (.content content)⟩,
          midLine rest limited (firstLine + lineFeeds content)⟩) ∧
    ∀ source sourceLine token, token ∈ (start source limited sourceLine).finish.tokens →
      token.kind = .string →
      ∃ content, token.value = some (.content content) ∧
        lineFeeds content = lineFeeds token.lexeme ∧ lineFeeds content < lines ∧
        ∀ rest firstLine, (start (quoteContent content ++ rest) limited firstLine).pull =
          ⟨some ⟨.string, firstLine, quoteContent content, token.value⟩,
            midLine rest limited (firstLine + lineFeeds content)⟩ := by
  intro limited
  have readBack := fun content rest firstLine =>
    pull_quoteContent content rest limited firstLine positive
  refine ⟨readBack, ?_⟩
  intro source sourceLine token member isString
  have noError : token.kind ≠ .error := by
    rw [isString]
    decide
  have noIndent : token.kind ≠ .indent := by
    rw [isString]
    decide
  obtain ⟨text, cut, here, found, lexeme⟩ :=
    (start source limited sourceLine).isReadUnder_of_mem token member noError noIndent
  rw [isString] at found
  have limit : (start source limited sourceLine).options = limited :=
    limited.usable_of_pos positive
  rw [limit] at here
  obtain ⟨content, isContent, feeds, fits⟩ :=
    (Cut.next?_form _ _ _ here).content_of_string positive found
  rw [lexeme]
  refine ⟨content, isContent, feeds, fits, fun rest firstLine => ?_⟩
  rw [isContent]
  exact readBack content rest firstLine fits

/-- A backslash stands before the quote, the line feed and the end of the content, which has
as many lines as the limit allows. -/
theorem quoted_backslashes_are_read_back :
    let content := ['\\', '"', '\\', '\n', '\\']
    let quoted := ['"', '\\', '\\', '\\', '"', '\\', '\\', '\n', '\\', '\\', '"']
    1 ≤ 2 ∧ lineFeeds content < 2 ∧
    (start (quoted ++ ['"']) ⟨2⟩ 1).pull =
      ⟨some ⟨.string, 1, quoted, some (.content content)⟩, midLine ['"'] ⟨2⟩ 2⟩ := by
  intro content quoted
  have fits : lineFeeds content < 2 := by decide
  obtain ⟨readBack, _⟩ := quoted_content_is_read_back 2 (by decide)
  exact ⟨by decide, fits, readBack content ['"'] 1 fits⟩

end Session

end LedgerLexer
