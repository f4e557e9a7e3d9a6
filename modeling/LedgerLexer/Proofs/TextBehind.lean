/-
More text behind a source that ends with a line feed. No piece but an unterminated
literal depends on what stands behind such a text, so a session over the longer text
takes up the same pieces first and then has the added text ahead.
-/

import LedgerLexer.Proofs.Runs

namespace LedgerLexer

/-- What was found does not depend on more text behind it. -/
def Finding.IsSettled (finding : Finding) : Prop :=
  ∀ lexeme, finding ≠ .fault lexeme .unterminatedString

namespace Cut

def extend (cut : Cut) (back : Text) : Cut :=
  { cut with rest := cut.rest ++ back }

private theorem exists_run_end (first : Char) (others : Text) (ends : EndsLine (first :: others))
    (goesOn : endsRun first = false) : ∃ char ∈ others, continuesRun char = false := by
  obtain ⟨before, whole⟩ := ends.exists_append
  cases before with
  | nil =>
      rw [List.nil_append] at whole
      obtain ⟨rfl, _⟩ := List.cons.inj whole
      cases goesOn
  | cons char later =>
      obtain ⟨_, rest⟩ := List.cons.inj whole
      refine ⟨'\n', ?_, rfl⟩
      rw [rest]
      exact List.mem_append_right _ (List.mem_singleton_self _)

private theorem takeWhile_ne_of_exists_not (accepts : Char → Bool) (text : Text)
    (stops : ∃ char ∈ text, accepts char = false) :
    (text.takeWhile accepts).length ≠ text.length := by
  intro same
  obtain ⟨char, member, refused⟩ := stops
  have whole := (List.takeWhile_sublist accepts).eq_of_length same
  rw [← whole] at member
  have accepted := List.all_eq_true.1 List.all_takeWhile char member
  rw [refused] at accepted
  cases accepted

private theorem runFrom_append (first : Char) (others back : Text)
    (ends : EndsLine (first :: others)) :
    runFrom first (others ++ back) = runFrom first others := by
  unfold runFrom
  split
  · rfl
  · rename_i goesOn
    have stops := exists_run_end first others ends (Bool.eq_false_iff.2 goesOn)
    rw [List.takeWhile_append, if_neg (takeWhile_ne_of_exists_not _ _ stops)]

private theorem afterRun_append (first : Char) (others back : Text)
    (ends : EndsLine (first :: others)) :
    afterRun first (others ++ back) = afterRun first others ++ back := by
  have whole := runFrom_append_afterRun first (others ++ back)
  rw [runFrom_append first others back ends, ← List.cons_append,
    ← runFrom_append_afterRun first others, List.append_assoc] at whole
  exact List.append_cancel_left whole

variable (lines : Nat) (first : Char) (others back : Text)

private theorem unknownRun_append (ends : EndsLine (first :: others)) :
    unknownRun first (others ++ back) = (unknownRun first others).extend back := by
  unfold unknownRun
  rw [runFrom_append first others back ends, afterRun_append first others back ends]
  rfl

private theorem ofDate_append (text rest : Text) :
    ofDate text (rest ++ back) = (ofDate text rest).extend back := by
  unfold ofDate
  split <;> rfl

private theorem ofNumber_append (text rest : Text) :
    ofNumber text (rest ++ back) = (ofNumber text rest).extend back := by
  unfold ofNumber
  split <;> rfl

private theorem ofLiteral_append (opening rest : Text)
    (settled : (ofLiteral lines opening rest).piece.finding.IsSettled) :
    ofLiteral lines opening (rest ++ back) = (ofLiteral lines opening rest).extend back := by
  unfold ofLiteral at settled ⊢
  cases found : literalEnd lines rest with
  | closed body behind =>
      have whole : body ++ behind = rest := findLiteralEnd_closed lines false rest body behind found
      have longer : literalEnd lines (rest ++ back) = .closed body (behind ++ back) := by
        rw [← whole, List.append_assoc]
        exact findLiteralEnd_body lines false rest body behind found (behind ++ back)
      rw [longer]
      rfl
  | overlong =>
      have longer : literalEnd lines (rest ++ back) = .overlong :=
        findLiteralEnd_overlong_append lines false rest found back
      rw [longer]
      rfl
  | unterminated =>
      rw [found] at settled
      exact absurd rfl (settled opening)

private theorem ofWord_append (word rest : Text) (ends : EndsLine (first :: others)) :
    ofWord first (others ++ back) word (rest ++ back) =
      (ofWord first others word rest).extend back := by
  unfold ofWord
  rw [runFrom_append first others back ends, afterRun_append first others back ends,
    unknownRun_append first others back ends]
  split <;> rfl

private theorem ofName_append (name rest : Text) (ends : EndsLine (first :: others)) :
    ofName first (others ++ back) name (rest ++ back) =
      (ofName first others name rest).extend back := by
  unfold ofName
  rw [unknownRun_append first others back ends]
  split <;> rfl

private theorem ofMatch_append (found : Match) (ends : EndsLine (first :: others))
    (settled : (ofMatch lines first others found).piece.finding.IsSettled) :
    ofMatch lines first (others ++ back) (found.extend back) =
      (ofMatch lines first others found).extend back := by
  obtain ⟨shape, run, rest⟩ := found
  cases shape with
  | date => exact ofDate_append back run rest
  | number => exact ofNumber_append back run rest
  | fraction => exact ofNumber_append back run rest
  | quote => exact ofLiteral_append lines back run rest settled
  | word => exact ofWord_append first others back run rest ends
  | name => exact ofName_append first others back run rest ends
  | _ => rfl

private theorem next?_append (text : Text) (cut : Cut) (ends : EndsLine text)
    (here : next? lines text = some cut) (settled : cut.piece.finding.IsSettled) :
    next? lines (text ++ back) = some (cut.extend back) := by
  cases text with
  | nil => cases here
  | cons first others =>
      rw [next?] at here
      have cutForm := Option.some.inj here
      have longer := Shape.longest?_append (first :: others) back ends
      rw [List.cons_append] at longer ⊢
      rw [next?, longer, ← cutForm]
      congr 1
      cases longest : Shape.longest? (first :: others) with
      | none => exact unknownRun_append first others back ends
      | some found =>
          rw [← cutForm, longest] at settled
          exact ofMatch_append lines first others back found ends settled

end Cut

/-! ### Runs before more text -/

private theorem startsContent_append (text back : Text) (nonempty : text ≠ []) :
    Session.startsContent (text ++ back) = Session.startsContent text := by
  cases text with
  | nil => exact absurd rfl nonempty
  | cons char rest => rfl

private theorem Cut.Form.rest_ne_nil_of_blank {lines : Nat} {text : Text} {cut : Cut}
    (form : Cut.Form lines text cut) (splits : cut.Splits text) (ends : EndsLine text)
    (found : cut.piece.finding = .blank) : cut.rest ≠ [] := by
  intro empty
  have whole := splits.2
  rw [empty, List.append_nil] at whole
  rw [← whole] at ends
  have blankFeed := List.all_eq_true.1 (form.all_blank found) '\n' (List.mem_of_getLast? ends)
  cases blankFeed

namespace Session

def extend (session : Session) (back : Text) : Session :=
  { session with rest := session.rest ++ back }

private theorem nextCut?_extend (session : Session) (back : Text) (cut : Cut)
    (ends : EndsLine session.rest)
    (here : session.nextCut? = some cut) (settled : cut.piece.finding.IsSettled) :
    (session.extend back).nextCut? = some (cut.extend back) :=
  Cut.next?_append session.options.maxStringLines back session.rest cut ends here settled

private theorem take_extend (session : Session) (back : Text) (cut : Cut)
    (ends : EndsLine session.rest) (here : session.nextCut? = some cut) :
    (session.extend back).take (cut.extend back) =
      ⟨(session.take cut).token, (session.take cut).session.extend back⟩ := by
  have form := session.nextCut?_form cut here
  have splits := Cut.next?_splits _ _ _ here
  unfold take
  have samePiece : (cut.extend back).piece = cut.piece := rfl
  rw [samePiece]
  split
  · rename_i found
    have sameIndents : (session.extend back).indents (cut.extend back) = session.indents cut := by
      unfold indents
      have sameContent := startsContent_append cut.rest back
        (form.rest_ne_nil_of_blank splits ends found)
      change (_ && _ && startsContent (cut.rest ++ back)) = _
      rw [sameContent]
      rfl
    unfold takeBlank
    rw [sameIndents]
    split <;> rfl
  · rfl
  · rfl
  · rfl

theorem Reaches.extend {session last : Session} {taken : List Stage}
    (run : Reaches session taken last) (back : Text)
    (ends : session.rest = [] ∨ EndsLine session.rest)
    (settled : ∀ stage ∈ taken, stage.piece.finding.IsSettled) :
    Reaches (session.extend back) taken (last.extend back) := by
  induction run with
  | here session => exact .here _
  | @step session last cut later next _ ih =>
      rcases ends with empty | ends
      · rw [nextCut?, empty] at next
        cases next
      · have here := session.nextCut?_extend back cut ends next
          (settled _ (List.mem_cons_self ..))
        have taken := session.take_extend back cut ends next
        have wholeEnds : EndsLine (cut.piece.text ++ cut.rest) := by
          rw [(Cut.next?_splits _ _ _ next).2]
          exact ends
        have restEnds := wholeEnds.of_append
        rw [← session.take_rest cut] at restEnds
        have goesOn := ih restEnds
          (fun stage member => settled stage (List.mem_cons_of_mem _ member))
        have sameStage : (session.extend back).stageOf (cut.extend back) = session.stageOf cut := by
          unfold stageOf
          rw [taken]
          rfl
        rw [← sameStage]
        refine .step here ?_
        rw [taken]
        exact goesOn

private theorem take_atLineStart_of_endsLine (session : Session) (cut : Cut)
    (here : session.nextCut? = some cut) (ends : EndsLine cut.piece.text) :
    (session.take cut).session.atLineStart = true := by
  have form := session.nextCut?_form cut here
  have feeds := form.lineFeeds_piece
  have positive := ends.lineFeeds_pos
  rw [take_atLineStart]
  cases found : cut.piece.finding with
  | token kind value =>
      rw [found] at feeds
      by_cases breaks : kind = .lineBreak
      · rw [breaks]
        rfl
      · by_cases string : kind = .string
        · subst string
          have quoteLast := form.string_getLast found
          rw [ends] at quoteLast
          cases quoteLast
        · have none := feeds.trans (Cut.linesEnded_eq_zero kind _ breaks string)
          omega
  | _ =>
      rw [found] at feeds
      have none : lineFeeds cut.piece.text = 0 := feeds
      omega

theorem Reaches.atLineStart_of_endsLine {session last : Session} {taken : List Stage}
    (run : Reaches session taken last) (ends : EndsLine (textOf taken)) :
    last.atLineStart = true := by
  induction run with
  | here session => exact absurd ends not_endsLine_nil
  | @step session last cut later next goesOn ih =>
      rcases EndsLine.of_append ends with empty | laterEnds
      · obtain rfl := goesOn.eq_nil_of_textOf empty
        cases goesOn
        refine session.take_atLineStart_of_endsLine cut next ?_
        have alone : textOf [session.stageOf cut] = cut.piece.text := List.append_nil _
        rw [← alone]
        exact ends
      · exact ih laterEnds

end Session

end LedgerLexer
