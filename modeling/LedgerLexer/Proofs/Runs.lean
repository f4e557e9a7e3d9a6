/-
Runs of a session over any number of matches. A run lists a stage for each piece it
takes up; what one stage does to the line, the errors and the two flags of a session is
said once, and adds up along a run. Pulling any number of tokens is a run, and so is the
whole trail.
-/

import LedgerLexer.Trail
import LedgerLexer.Proofs.PieceExtent

namespace LedgerLexer

def textOf (stages : List Stage) : Text :=
  sourceOf (stages.map Stage.piece)

def tokensOf (stages : List Stage) : List Token :=
  stages.filterMap Stage.token

/-- The error that a stage records: the line is that of its token. -/
def Stage.error? (stage : Stage) : Option LexError :=
  match stage.piece.finding with
  | .fault _ reason => stage.token.map (fun token => reason.toError token.line)
  | _ => none

def errorsOf (stages : List Stage) : List LexError :=
  stages.filterMap Stage.error?

@[simp]
theorem textOf_nil : textOf [] = [] := rfl

@[simp]
theorem textOf_cons (stage : Stage) (later : List Stage) :
    textOf (stage :: later) = stage.piece.text ++ textOf later := rfl

@[simp]
theorem textOf_append (before after : List Stage) :
    textOf (before ++ after) = textOf before ++ textOf after := by
  unfold textOf sourceOf
  rw [List.map_append, List.flatMap_append]

@[simp]
theorem tokensOf_nil : tokensOf [] = [] := rfl

@[simp]
theorem tokensOf_append (before after : List Stage) :
    tokensOf (before ++ after) = tokensOf before ++ tokensOf after :=
  List.filterMap_append

theorem tokensOf_cons (stage : Stage) (later : List Stage) :
    tokensOf (stage :: later) = stage.token.toList ++ tokensOf later := by
  unfold tokensOf
  rw [List.filterMap_cons]
  cases stage.token <;> rfl

@[simp]
theorem errorsOf_append (before after : List Stage) :
    errorsOf (before ++ after) = errorsOf before ++ errorsOf after :=
  List.filterMap_append

theorem errorsOf_cons (stage : Stage) (later : List Stage) :
    errorsOf (stage :: later) = stage.error?.toList ++ errorsOf later := by
  unfold errorsOf
  rw [List.filterMap_cons]
  cases stage.error? <;> rfl

/-- Whether the next piece begins a line. -/
def Finding.endsLine : Finding → Bool
  | .token .lineBreak _ => true
  | _ => false

namespace Session

/-! ### What one stage does -/

def stageOf (session : Session) (cut : Cut) : Stage :=
  ⟨cut.piece, (session.take cut).token⟩

theorem nextCut?_form (session : Session) (cut : Cut) (here : session.nextCut? = some cut) :
    Cut.Form session.options.maxStringLines session.rest cut :=
  Cut.next?_form _ _ _ here

/-- The four ways in which a session takes up a piece. -/
inductive Taking (session : Session) (cut : Cut) : Pulled → Prop where
  | indent (found : cut.piece.finding = .blank) (indented : session.indents cut = true) :
      Taking session cut ⟨some ⟨.indent, session.line, cut.piece.text, none⟩, session.pass cut⟩
  | silent (found : cut.piece.finding = .blank ∧ session.indents cut = false ∨
      cut.piece.finding = .comment) : Taking session cut ⟨none, session.pass cut⟩
  | token {kind : Kind} {value : Option Value} (found : cut.piece.finding = .token kind value) :
      Taking session cut (session.takeToken cut kind value)
  | fault {lexeme : Text} {reason : Fault} (found : cut.piece.finding = .fault lexeme reason) :
      Taking session cut (session.takeFault cut lexeme reason)

theorem take_taking (session : Session) (cut : Cut) : Taking session cut (session.take cut) := by
  unfold take
  split
  · rename_i found
    unfold takeBlank
    split
    · rename_i indented
      exact .indent found indented
    · rename_i notIndented
      exact .silent (Or.inl ⟨found, Bool.eq_false_iff.2 notIndented⟩)
  · rename_i found
    exact .silent (Or.inr found)
  · rename_i found
    exact .token found
  · rename_i found
    exact .fault found

/-- The three ways in which a token is handed out for a piece. -/
inductive HandsOut (session : Session) (cut : Cut) : Token → Prop where
  | indent (found : cut.piece.finding = .blank) (indented : session.indents cut = true) :
      HandsOut session cut ⟨.indent, session.line, cut.piece.text, none⟩
  | token {kind : Kind} {value : Option Value} (found : cut.piece.finding = .token kind value) :
      HandsOut session cut ⟨kind, session.line, cut.piece.text, value⟩
  | fault {lexeme : Text} {reason : Fault} (found : cut.piece.finding = .fault lexeme reason) :
      HandsOut session cut ⟨.error, session.line, lexeme, none⟩

theorem handsOut_of_take {session : Session} {cut : Cut} {token : Token}
    (taken : (session.take cut).token = some token) : HandsOut session cut token := by
  have taking := session.take_taking cut
  generalize session.take cut = pulled at taking taken
  cases taking with
  | indent found indented =>
      cases taken
      exact .indent found indented
  | silent _ => cases taken
  | token found =>
      cases taken
      exact .token found
  | fault found =>
      cases taken
      exact .fault found

theorem take_line (session : Session) (cut : Cut) (here : session.nextCut? = some cut) :
    (session.take cut).session.line = session.line + lineFeeds cut.piece.text := by
  rw [(session.nextCut?_form cut here).lineFeeds_piece]
  have taking := session.take_taking cut
  generalize session.take cut = pulled at taking
  cases taking with
  | indent found _ =>
      rw [found]
      rfl
  | silent found =>
      rcases found with ⟨found, _⟩ | found
      all_goals
        rw [found]
        rfl
  | token found =>
      rw [found]
      rfl
  | fault found =>
      rw [found]
      rfl

private theorem take_errors (session : Session) (cut : Cut) :
    (session.take cut).session.errors.toList =
      session.errors.toList ++ (session.stageOf cut).error?.toList := by
  unfold stageOf Stage.error?
  have taking := session.take_taking cut
  generalize session.take cut = pulled at taking
  cases taking with
  | indent found _ =>
      simp only [found]
      exact (List.append_nil _).symm
  | silent found =>
      rcases found with ⟨found, _⟩ | found
      all_goals
        simp only [found]
        exact (List.append_nil _).symm
  | token found =>
      simp only [found]
      exact (List.append_nil _).symm
  | fault found =>
      simp only [found]
      exact Array.toList_push

theorem take_token_line (session : Session) (cut : Cut) (token : Token)
    (taken : (session.take cut).token = some token) : token.line = session.line := by
  cases handsOut_of_take taken <;> rfl

/-- A session has seen content once a token other than a line break was handed out. An
indent is no content, but it is handed out only where content came before. -/
theorem take_seenContent (session : Session) (cut : Cut) (here : session.nextCut? = some cut) :
    (session.take cut).session.seenContent =
      (session.seenContent ||
        (session.take cut).token.any (fun token => token.kind != .lineBreak)) := by
  have form := session.nextCut?_form cut here
  have taking := session.take_taking cut
  generalize session.take cut = pulled at taking
  cases taking with
  | indent found indented =>
      simp only [indents, Bool.and_eq_true] at indented
      change session.seenContent = _
      rw [indented.1.2]
      rfl
  | silent found =>
      change session.seenContent = _
      rw [Option.any_none, Bool.or_false]
  | @token kind value found =>
      have notIndent := (form.token_kind found).2
      change (session.seenContent || !decide kind.IsLayout) =
        (session.seenContent || kind != .lineBreak)
      congr 1
      by_cases breaks : kind = .lineBreak
      · subst breaks
        rfl
      · have content : ¬ kind.IsLayout := fun layout => layout.elim breaks notIndent
        rw [decide_eq_false content]
        exact (bne_iff_ne.2 breaks).symm
  | fault found =>
      change true = (session.seenContent || true)
      exact (Bool.or_true _).symm

theorem take_atLineStart (session : Session) (cut : Cut) :
    (session.take cut).session.atLineStart = cut.piece.finding.endsLine := by
  have taking := session.take_taking cut
  generalize session.take cut = pulled at taking
  cases taking with
  | indent found _ =>
      rw [found]
      rfl
  | silent found =>
      rcases found with ⟨found, _⟩ | found
      all_goals
        rw [found]
        rfl
  | @token kind value found =>
      rw [found]
      change decide (kind = .lineBreak) = _
      cases kind <;> rfl
  | fault found =>
      rw [found]
      rfl

/-! ### Runs -/

/-- The session takes up the pieces of the given stages in order and becomes the other
session. -/
inductive Reaches : Session → List Stage → Session → Prop where
  | here (session : Session) : Reaches session [] session
  | step {session last : Session} {cut : Cut} {later : List Stage}
      (next : session.nextCut? = some cut)
      (goesOn : Reaches (session.take cut).session later last) :
      Reaches session (session.stageOf cut :: later) last

namespace Reaches

variable {session middle last : Session} {taken before after : List Stage}

theorem trans (first : Reaches session before middle) (second : Reaches middle after last) :
    Reaches session (before ++ after) last := by
  induction first with
  | here session => exact second
  | step next _ ih => exact .step next (ih second)

theorem split (run : Reaches session (before ++ after) last) :
    ∃ middle, Reaches session before middle ∧ Reaches middle after last := by
  induction before generalizing session with
  | nil => exact ⟨session, .here session, run⟩
  | cons stage later ih =>
      cases run with
      | step next goesOn =>
          obtain ⟨middle, first, second⟩ := ih goesOn
          exact ⟨middle, .step next first, second⟩

theorem options_eq (run : Reaches session taken last) : last.options = session.options := by
  induction run with
  | here session => rfl
  | step _ _ ih => rw [ih, take_options]

theorem text_append (run : Reaches session taken last) :
    textOf taken ++ last.rest = session.rest := by
  induction run with
  | here session => rfl
  | @step session last cut later next _ ih =>
      change cut.piece.text ++ textOf later ++ last.rest = session.rest
      rw [take_rest] at ih
      rw [List.append_assoc, ih]
      exact (Cut.next?_splits _ _ _ next).2

theorem line_eq (run : Reaches session taken last) :
    last.line = session.line + lineFeeds (textOf taken) := by
  induction run with
  | here session => rfl
  | @step session last cut later next _ ih =>
      change last.line = session.line + lineFeeds (cut.piece.text ++ textOf later)
      rw [ih, session.take_line cut next, lineFeeds_append, Nat.add_assoc]

theorem errors_eq (run : Reaches session taken last) :
    last.errors.toList = session.errors.toList ++ errorsOf taken := by
  induction run with
  | here session => exact (List.append_nil _).symm
  | @step session last cut later _ _ ih =>
      rw [ih, take_errors, errorsOf_cons, List.append_assoc]

theorem seenContent_eq (run : Reaches session taken last) :
    last.seenContent =
      (session.seenContent || (tokensOf taken).any (fun token => token.kind != .lineBreak)) := by
  induction run with
  | here session => exact (Bool.or_false _).symm
  | @step session last cut later next _ ih =>
      rw [ih, session.take_seenContent cut next, tokensOf_cons, List.any_append, Bool.or_assoc,
        stageOf]
      congr 2
      cases (session.take cut).token with
      | none => rfl
      | some token => exact (Bool.or_false _).symm

theorem eq_nil_of_textOf (run : Reaches session taken last) (empty : textOf taken = []) :
    taken = [] := by
  cases run with
  | here _ => rfl
  | step next _ =>
      have nonempty := (Cut.next?_splits _ _ _ next).1
      exact absurd (List.append_eq_nil_iff.1 empty).1 nonempty

theorem trail_eq (run : Reaches session taken last) :
    session.trail = ⟨taken ++ last.trail.stages, last.trail.session⟩ := by
  induction run with
  | here session => rfl
  | step next _ ih => rw [trail_of_cut _ _ next, ih]; rfl

theorem trail_of_end (run : Reaches session taken last) (atEnd : last.rest = []) :
    session.trail = ⟨taken, last⟩ := by
  have ended : last.trail = ⟨[], last⟩ := trail_of_none last ((Cut.next?_eq_none_iff _ _).2 atEnd)
  rw [run.trail_eq, ended, List.append_nil]

theorem finish_of_end (run : Reaches session taken last) (atEnd : last.rest = []) :
    session.finish = ⟨tokensOf taken, last⟩ := by
  rw [finish_eq_trail, run.trail_of_end atEnd]
  rfl

end Reaches

/-- The trail is a run that uses the source up. -/
theorem reaches_trail (session : Session) :
    Reaches session session.trail.stages session.trail.session ∧
      session.trail.session.rest = [] := by
  induction bound : session.rest.length using Nat.strongRecOn generalizing session with
  | ind length ih =>
      cases here : session.nextCut? with
      | none =>
          rw [trail_of_none session here]
          exact ⟨.here session, (Cut.next?_eq_none_iff _ _).1 here⟩
      | some cut =>
          have shorter := Cut.next?_rest_lt _ _ cut here
          rw [bound, ← session.take_rest cut] at shorter
          obtain ⟨goesOn, atEnd⟩ := ih _ shorter (session.take cut).session rfl
          rw [trail_of_cut session cut here]
          exact ⟨.step here goesOn, atEnd⟩

theorem textOf_trail (session : Session) : textOf session.trail.stages = session.rest := by
  obtain ⟨run, atEnd⟩ := session.reaches_trail
  have whole := run.text_append
  rw [atEnd, List.append_nil] at whole
  exact whole

theorem reaches_of_trail (session : Session) (before after : List Stage)
    (whole : session.trail.stages = before ++ after) :
    ∃ middle, Reaches session before middle ∧ middle.trail.stages = after := by
  have run := session.reaches_trail.1
  rw [whole] at run
  obtain ⟨middle, first, _⟩ := run.split
  have shown := congrArg Trail.stages first.trail_eq
  rw [whole] at shown
  exact ⟨middle, first, (List.append_cancel_left shown).symm⟩

theorem cut_of_trail (session : Session) (stage : Stage) (later : List Stage)
    (whole : session.trail.stages = stage :: later) :
    ∃ cut, session.nextCut? = some cut ∧ stage = session.stageOf cut ∧ cut.rest = textOf later ∧
      (session.take cut).session.trail.stages = later := by
  cases here : session.nextCut? with
  | none =>
      rw [trail_of_none session here] at whole
      cases whole
  | some cut =>
      rw [trail_of_cut session cut here] at whole
      obtain ⟨sameStage, sameLater⟩ := List.cons.inj whole
      refine ⟨cut, rfl, sameStage.symm, ?_, sameLater⟩
      have text := (session.take cut).session.textOf_trail
      rw [sameLater, take_rest] at text
      exact text.symm

/-- Each stage of a trail is a piece taken up by a session that the run passes through. -/
theorem exists_cut_of_split (session : Session) (before behind : List Stage) (stage : Stage)
    (whole : session.trail.stages = before ++ stage :: behind) :
    ∃ middle cut, Reaches session before middle ∧ middle.nextCut? = some cut ∧
      stage = middle.stageOf cut ∧ cut.rest = textOf behind := by
  obtain ⟨middle, run, ahead⟩ := session.reaches_of_trail before (stage :: behind) whole
  obtain ⟨cut, here, sameStage, rest, _⟩ := middle.cut_of_trail stage behind ahead
  exact ⟨middle, cut, run, here, sameStage, rest⟩

theorem exists_cut_of_mem (session : Session) (stage : Stage)
    (member : stage ∈ session.trail.stages) :
    ∃ before middle cut, Reaches session before middle ∧ middle.nextCut? = some cut ∧
      stage = middle.stageOf cut := by
  obtain ⟨before, behind, whole⟩ := List.append_of_mem member
  obtain ⟨middle, cut, run, here, sameStage, _⟩ :=
    session.exists_cut_of_split before behind stage whole
  exact ⟨before, middle, cut, run, here, sameStage⟩

theorem tokensOf_trail (session : Session) :
    tokensOf session.trail.stages = session.finish.tokens :=
  (congrArg Finished.tokens session.finish_eq_trail).symm

theorem reaches_finish (session : Session) :
    Reaches session session.trail.stages session.finish.session := by
  rw [finish_eq_trail]
  exact session.reaches_trail.1

/-! ### Pulling -/

def after (session : Session) : Nat → Session
  | 0 => session
  | count + 1 => session.pull.session.after count

def handedOut (session : Session) : Nat → List Token
  | 0 => []
  | count + 1 => session.pull.token.toList ++ session.pull.session.handedOut count

theorem reaches_pull (session : Session) :
    ∃ taken, Reaches session taken session.pull.session ∧
      tokensOf taken = session.pull.token.toList := by
  fun_induction pull session with
  | case1 session _ => exact ⟨[], .here session, rfl⟩
  | case2 session token next stepped =>
      obtain ⟨cut, here, taken⟩ := Option.map_eq_some_iff.1 stepped
      have run := Reaches.step here (.here (session.take cut).session)
      rw [taken] at run
      refine ⟨[session.stageOf cut], run, ?_⟩
      rw [tokensOf_cons, stageOf, taken]
      rfl
  | case3 session next stepped ih =>
      obtain ⟨cut, here, taken⟩ := Option.map_eq_some_iff.1 stepped
      obtain ⟨later, run, tokens⟩ := ih
      have longer := Reaches.step here (show Reaches (session.take cut).session later _ by
        rw [taken]
        exact run)
      refine ⟨session.stageOf cut :: later, longer, ?_⟩
      rw [tokensOf_cons, stageOf, taken]
      exact tokens

theorem reaches_after (session : Session) (count : Nat) :
    ∃ taken, Reaches session taken (session.after count) ∧
      tokensOf taken = session.handedOut count := by
  induction count generalizing session with
  | zero => exact ⟨[], .here session, rfl⟩
  | succ count ih =>
      obtain ⟨first, firstRun, firstTokens⟩ := session.reaches_pull
      obtain ⟨later, laterRun, laterTokens⟩ := ih session.pull.session
      refine ⟨first ++ later, firstRun.trans laterRun, ?_⟩
      rw [tokensOf_append, firstTokens, laterTokens]
      rfl

theorem after_add (session : Session) (count more : Nat) :
    session.after (count + more) = (session.after count).after more := by
  induction count generalizing session with
  | zero =>
      rw [Nat.zero_add]
      rfl
  | succ count ih =>
      rw [Nat.succ_add]
      exact ih session.pull.session

private theorem pull_none_rest (session : Session) (pulled : session.pull.token = none) :
    session.pull.session.rest = [] := by
  fun_induction pull session with
  | case1 session stepped =>
      exact (Cut.next?_eq_none_iff _ _).1 (Option.map_eq_none_iff.1 stepped)
  | case2 session token next stepped => cases pulled
  | case3 session next stepped ih => exact ih pulled

theorem pull_of_rest_nil (session : Session) (atEnd : session.rest = []) :
    session.pull = ⟨none, session⟩ := by
  apply pull_of_step_none
  unfold step? nextCut?
  rw [atEnd]
  rfl

private theorem after_of_rest_nil (session : Session) (atEnd : session.rest = []) (count : Nat) :
    session.after count = session := by
  induction count with
  | zero => rfl
  | succ count ih =>
      rw [after, session.pull_of_rest_nil atEnd]
      exact ih

private theorem finish_of_pull (session : Session) :
    session.finish = match session.pull.token with
      | none => ⟨[], session.pull.session⟩
      | some token => ⟨token :: session.pull.session.finish.tokens,
          session.pull.session.finish.session⟩ := by
  cases pulled : session.pull with
  | mk token next =>
      cases token with
      | none => exact finish_of_pull_none session next pulled
      | some token => exact finish_of_pull_token session next token pulled

theorem handedOut_eq_take (session : Session) (count : Nat) :
    session.handedOut count = session.finish.tokens.take count := by
  induction count generalizing session with
  | zero => exact List.take_zero.symm
  | succ count ih =>
      rw [handedOut, session.finish_of_pull]
      cases pulled : session.pull.token with
      | none =>
          have atEnd := session.pull_none_rest pulled
          rw [ih, session.pull.session.finish_of_pull, pull_of_rest_nil _ atEnd]
          exact List.take_nil
      | some token =>
          rw [ih]
          rfl

/-- Each pull hands out the next token, and none when there are no more. -/
theorem pull_after_token (session : Session) (count : Nat) :
    (session.after count).pull.token = session.finish.tokens[count]? := by
  induction count generalizing session with
  | zero =>
      rw [session.finish_of_pull]
      change session.pull.token = _
      cases session.pull.token <;> rfl
  | succ count ih =>
      rw [after, ih, session.finish_of_pull]
      cases pulled : session.pull.token with
      | none =>
          have atEnd := session.pull_none_rest pulled
          rw [session.pull.session.finish_of_pull, pull_of_rest_nil _ atEnd]
          rfl
      | some token => rfl

theorem after_of_finished (session : Session) (count : Nat)
    (finished : session.finish.tokens.length < count) :
    session.after count = session.finish.session := by
  induction count generalizing session with
  | zero => exact absurd finished (Nat.not_lt_zero _)
  | succ count ih =>
      rw [after]
      rw [session.finish_of_pull] at finished ⊢
      cases pulled : session.pull.token with
      | none => exact after_of_rest_nil _ (session.pull_none_rest pulled) count
      | some token =>
          rw [pulled] at finished
          exact ih _ (Nat.lt_of_succ_lt_succ finished)

/-- A session in the midst of a line, behind a token that is no layout. -/
def midLine (rest : Text) (options : Options) (line : Nat) : Session :=
  { start rest options line with
    atLineStart := false
    seenContent := true }

theorem pull_of_token_ahead (options : Options) (firstLine : Nat) (kind : Kind)
    (value : Option Value) (lexeme rest : Text) (noLayout : ¬ kind.IsLayout)
    (ahead : Cut.next? options.usable.maxStringLines (lexeme ++ rest) =
      some (Cut.token kind value lexeme rest)) :
    (start (lexeme ++ rest) options firstLine).pull =
      ⟨some ⟨kind, firstLine, lexeme, value⟩,
        midLine rest options (firstLine + linesEnded kind lexeme)⟩ := by
  have stepped : (start (lexeme ++ rest) options firstLine).step? =
      some ((start (lexeme ++ rest) options firstLine).takeToken
        (Cut.token kind value lexeme rest) kind value) :=
    Option.map_eq_some_iff.2 ⟨_, ahead, rfl⟩
  have noBreak : decide (kind = .lineBreak) = false :=
    decide_eq_false (fun isBreak => noLayout (Or.inl isBreak))
  rw [pull_of_step_token _ _ _ stepped]
  simp [pass, start, midLine, Cut.token, noBreak, noLayout]

end Session

end LedgerLexer
