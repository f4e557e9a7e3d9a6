/-
What the piece at the front of a text can be, in one list of forms: blank text, a
comment, a token read from a whole match, a match whose value is refused, a closed
string literal, an opening quote that is given up, an unknown run, and a malformed
account. Everything said later about single pieces is read off these forms.
-/

import LedgerLexer.Piece
import LedgerLexer.Proofs.LiteralEnd
import LedgerLexer.Proofs.MatchContext
import LedgerLexer.Proofs.WordReading

namespace LedgerLexer

/-- Every match of the shape with this text becomes this token, wherever it stands. -/
structure Shape.Reads (shape : Shape) (run : Text) (kind : Kind) (value : Option Value) : Prop where
  anywhere : ∀ (lines : Nat) (first : Char) (others rest : Text),
    Cut.ofMatch lines first others ⟨shape, run, rest⟩ = Cut.token kind value run rest
  plain : kind ≠ .error ∧ kind ≠ .indent ∧ kind ≠ .string
  breaks : kind = .lineBreak ↔ shape = .lineBreak
  notBlank : shape ≠ .blank
  notComment : shape ≠ .comment

namespace Cut

inductive Form (lines : Nat) (text : Text) : Cut → Prop where
  | blank {run rest : Text} (longest : Shape.longest? text = some ⟨.blank, run, rest⟩) :
      Form lines text ⟨⟨run, .blank⟩, rest⟩
  | comment {run rest : Text} (longest : Shape.longest? text = some ⟨.comment, run, rest⟩) :
      Form lines text ⟨⟨run, .comment⟩, rest⟩
  | token {shape : Shape} {run rest : Text} {kind : Kind} {value : Option Value}
      (longest : Shape.longest? text = some ⟨shape, run, rest⟩)
      (reads : shape.Reads run kind value) : Form lines text (token kind value run rest)
  | badValue {shape : Shape} {run rest : Text} {reason : Fault}
      (longest : Shape.longest? text = some ⟨shape, run, rest⟩)
      (converts : shape = .date ∨ shape = .number ∨ shape = .fraction)
      (conversion : reason.kind = .conversion) : Form lines text (fault reason run run rest)
  | literal {body rest : Text} (whole : text = '"' :: body ++ rest)
      (closes : literalEnd lines (body ++ rest) = .closed body rest) :
      Form lines text (token .string (some (.content (unquote ('"' :: body)))) ('"' :: body) rest)
  | openQuote {rest : Text} {reason : Fault} (whole : text = '"' :: rest)
      (abandoned : literalEnd lines rest = .overlong ∧ reason = .overlongString lines ∨
        literalEnd lines rest = .unterminated ∧ reason = .unterminatedString) :
      Form lines text (fault reason ['"'] ['"'] rest)
  | unknown {first : Char} {others : Text} (whole : text = first :: others)
      (unread : ∀ found, Shape.longest? text = some found →
        found.shape = .word ∨ found.shape = .name) :
      Form lines text (unknownRun first others)
  | account {first : Char} {others word rest component : Text} (whole : text = first :: others)
      (longest : Shape.longest? text = some ⟨.word, word, rest⟩)
      (colon : ':' ∈ word) (bad : badComponent? word = some component) :
      Form lines text (fault (.malformedAccount word (shownComponent component))
        (shownComponent component) (runFrom first others) (afterRun first others))

private theorem form_ofDate (lines : Nat) (text run rest : Text)
    (longest : Shape.longest? text = some ⟨.date, run, rest⟩) :
    Form lines text (ofDate run rest) := by
  unfold ofDate
  split
  · rename_i date read
    refine .token longest ⟨?_, by decide, by decide, by decide, by decide⟩
    intro _ _ _ behind
    change ofDate run behind = _
    rw [ofDate, read]
  · exact .badValue longest (Or.inl rfl) rfl

private theorem form_ofNumber (lines : Nat) (text run rest : Text) (shape : Shape)
    (numeric : shape = .number ∨ shape = .fraction)
    (longest : Shape.longest? text = some ⟨shape, run, rest⟩) :
    Form lines text (ofNumber run rest) := by
  unfold ofNumber
  split
  · rename_i number read
    refine .token longest ⟨?_, by decide, ?_, ?_, ?_⟩
    · intro _ _ _ behind
      have same : ofNumber run behind = token .number (some (.number number)) run behind := by
        rw [ofNumber, read]
      rcases numeric with rfl | rfl <;> exact same
    all_goals rcases numeric with rfl | rfl <;> decide
  · exact .badValue longest (Or.inr numeric) rfl

private theorem form_ofLiteral (lines : Nat) (rest : Text) :
    Form lines ('"' :: rest) (ofLiteral lines ['"'] rest) := by
  unfold ofLiteral
  split
  · rename_i body behind closes
    have whole : body ++ behind = rest := findLiteralEnd_closed lines false rest body behind closes
    subst whole
    exact .literal rfl closes
  · rename_i tooLong
    exact .openQuote rfl (Or.inl ⟨tooLong, rfl⟩)
  · rename_i unended
    exact .openQuote rfl (Or.inr ⟨unended, rfl⟩)

theorem readWord_malformed (word component : Text)
    (read : readWord word = .malformedAccount component) :
    ':' ∈ word ∧ ∃ bad, badComponent? word = some bad ∧ component = shownComponent bad := by
  obtain ⟨colon, bad, first, shown⟩ := (readWord_eq_iff word _).1 read
  exact ⟨colon, bad, (badComponent?_eq_some_iff word bad).2 first, shown⟩

private theorem form_ofWord (lines : Nat) (first : Char) (others word rest : Text)
    (longest : Shape.longest? (first :: others) = some ⟨.word, word, rest⟩) :
    Form lines (first :: others) (ofWord first others word rest) := by
  have reads (kind : Kind) (value : Option Value)
      (plain : kind ≠ .error ∧ kind ≠ .indent ∧ kind ≠ .string ∧ kind ≠ .lineBreak)
      (anywhere : ∀ first others rest, ofWord first others word rest = token kind value word rest) :
      Form lines (first :: others) (token kind value word rest) := by
    refine .token longest ⟨fun _ first others rest => anywhere first others rest, ?_, ?_,
      by decide, by decide⟩
    · exact ⟨plain.1, plain.2.1, plain.2.2.1⟩
    · exact ⟨fun breaks => absurd breaks plain.2.2.2, nofun⟩
  unfold ofWord
  split
  case h_2 component read =>
    obtain ⟨colon, bad, found, rfl⟩ := readWord_malformed word component read
    exact .account rfl longest colon found
  case h_7 read =>
    refine .unknown rfl ?_
    intro found here
    rw [longest] at here
    cases here
    exact Or.inl rfl
  all_goals
    rename_i read
    refine reads _ _ (by decide) ?_
    intro _ _ _
    unfold ofWord
    rw [read]

private theorem form_ofName (lines : Nat) (first : Char) (others name rest : Text)
    (longest : Shape.longest? (first :: others) = some ⟨.name, name, rest⟩) :
    Form lines (first :: others) (ofName first others name rest) := by
  have anywhere {kind : Kind} {value : Option Value}
      (plain : kind ≠ .error ∧ kind ≠ .indent ∧ kind ≠ .string ∧ kind ≠ .lineBreak)
      (same : ∀ first others rest, ofName first others name rest = token kind value name rest) :
      Shape.name.Reads name kind value := by
    refine ⟨fun _ first others rest => same first others rest, ?_, ?_, by decide, by decide⟩
    · exact ⟨plain.1, plain.2.1, plain.2.2.1⟩
    · exact ⟨fun breaks => absurd breaks plain.2.2.2, nofun⟩
  unfold ofName
  split
  · rename_i identifier read
    refine .token longest (anywhere (by decide) ?_)
    intro _ _ _
    rw [ofName, read]
  · rename_i directive read
    refine .token longest (anywhere ⟨nofun, nofun, nofun, nofun⟩ ?_)
    intro _ _ _
    rw [ofName, read]
  · refine .unknown rfl ?_
    intro found here
    rw [longest] at here
    cases here
    exact Or.inr rfl

private theorem form_ofMatch (lines : Nat) (first : Char) (others : Text) (found : Match)
    (longest : Shape.longest? (first :: others) = some found) :
    Form lines (first :: others) (ofMatch lines first others found) := by
  obtain ⟨shape, run, rest⟩ := found
  have plain {kind : Kind} {value : Option Value}
      (same : ∀ lines first others rest,
        ofMatch lines first others ⟨shape, run, rest⟩ = token kind value run rest)
      (ordinary : kind ≠ .error ∧ kind ≠ .indent ∧ kind ≠ .string)
      (breaks : kind = .lineBreak ↔ shape = .lineBreak)
      (notLayout : shape ≠ .blank ∧ shape ≠ .comment) :
      Form lines (first :: others) (token kind value run rest) :=
    .token longest ⟨same, ordinary, breaks, notLayout.1, notLayout.2⟩
  cases shape with
  | blank => exact .blank longest
  | comment => exact .comment longest
  | lineBreak =>
      exact plain (fun _ _ _ _ => rfl) (by decide) ⟨fun _ => rfl, fun _ => rfl⟩ (by decide)
  | date => exact form_ofDate lines _ run rest longest
  | number => exact form_ofNumber lines _ run rest .number (Or.inl rfl) longest
  | fraction => exact form_ofNumber lines _ run rest .fraction (Or.inr rfl) longest
  | quote =>
      have found := Shape.longest?_isLongest _ _ longest
      have opening : run = ['"'] := (Pattern.matches_char_iff _ _).1 found.matched
      have whole : run ++ rest = first :: others := found.whole
      rw [← whole, opening]
      exact form_ofLiteral lines rest
  | tag => exact plain (fun _ _ _ _ => rfl) (by decide) (by decide) (by decide)
  | link => exact plain (fun _ _ _ _ => rfl) (by decide) (by decide) (by decide)
  | flag => exact plain (fun _ _ _ _ => rfl) (by decide) (by decide) (by decide)
  | word => exact form_ofWord lines first others run rest longest
  | name => exact form_ofName lines first others run rest longest
  | punctuation mark =>
      exact plain (fun _ _ _ _ => rfl) ⟨nofun, nofun, nofun⟩ ⟨nofun, nofun⟩ ⟨nofun, nofun⟩

theorem next?_form (lines : Nat) (text : Text) (cut : Cut) (here : next? lines text = some cut) :
    Form lines text cut := by
  cases text with
  | nil => cases here
  | cons first others =>
      rw [next?] at here
      cases here
      split
      · rename_i found longest
        exact form_ofMatch lines first others found longest
      · rename_i missing
        refine .unknown rfl ?_
        intro found here
        rw [missing] at here
        cases here

theorem next?_lineFeed (lines : Nat) (rest : Text) :
    next? lines ('\n' :: rest) = some (token .lineBreak none ['\n'] rest) := rfl

theorem next?_semicolon (lines : Nat) (rest : Text) :
    next? lines (';' :: rest) =
      some ⟨⟨';' :: rest.takeWhile isCommentPart, .comment⟩, rest.dropWhile isCommentPart⟩ := rfl

theorem next?_blankRun (lines : Nat) (run rest : Text) (nonempty : run ≠ [])
    (blank : run.all isBlank = true) (stops : rest.head?.any isBlank = false) :
    next? lines (run ++ rest) = some ⟨⟨run, .blank⟩, rest⟩ := by
  obtain ⟨first, later, rfl⟩ := List.exists_cons_of_ne_nil nonempty
  rw [List.all_cons, Bool.and_eq_true] at blank
  have stretches : Shape.longest? (first :: (later ++ rest)) =
      some ⟨.blank, first :: later, rest⟩ := by
    rw [Shape.longest?_blank first _ blank.1, Shape.stretch,
      Shape.takeWhile_append_of_all _ _ _ blank.2, Shape.takeWhile_of_stop _ _ stops,
      Shape.dropWhile_append_of_all _ _ _ blank.2, Shape.dropWhile_of_stop _ _ stops,
      List.append_nil]
  rw [List.cons_append, next?, stretches]
  rfl

theorem next?_commentRun (lines : Nat) (body rest : Text)
    (sameLine : body.all isCommentPart = true) (ends : rest.head?.all isLineEnd = true) :
    next? lines (';' :: body ++ rest) = some ⟨⟨';' :: body, .comment⟩, rest⟩ := by
  have stops : rest.head?.any isCommentPart = false := by
    cases rest with
    | nil => rfl
    | cons char others =>
        change (!isLineEnd char) = false
        rw [show isLineEnd char = true from ends]
        rfl
  rw [List.cons_append, next?_semicolon, Shape.takeWhile_append_of_all _ _ _ sameLine,
    Shape.takeWhile_of_stop _ _ stops, Shape.dropWhile_append_of_all _ _ _ sameLine,
    Shape.dropWhile_of_stop _ _ stops, List.append_nil]

theorem next?_of_longest (lines : Nat) (text : Text) (found : Match)
    (longest : Shape.longest? text = some found) :
    ∃ first others, text = first :: others ∧
      next? lines text = some (ofMatch lines first others found) := by
  cases text with
  | nil => cases longest
  | cons first others => exact ⟨first, others, rfl, by rw [next?, longest]⟩

theorem next?_of_reads (lines : Nat) (shape : Shape) (run rest : Text) (kind : Kind)
    (value : Option Value) (nonempty : run ≠ [])
    (longest : Shape.longest? (run ++ rest) = some ⟨shape, run, rest⟩)
    (reads : shape.Reads run kind value) :
    next? lines (run ++ rest) = some (token kind value run rest) := by
  obtain ⟨first, others, rfl⟩ := List.exists_cons_of_ne_nil nonempty
  rw [List.cons_append] at longest ⊢
  rw [next?, longest]
  exact congrArg some (reads.anywhere lines first _ rest)

end Cut

end LedgerLexer
